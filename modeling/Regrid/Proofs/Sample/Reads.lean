import Regrid.Proofs.Kinds
import Regrid.Proofs.Sample.Protocols
import Regrid.Proofs.Sample.Samplers

/-!
# Nothing outside the field is read

Weights, field and positions come from a caller, and may be anything.  Whatever they are, the
entries of the field that sampling depends on are those at the corners of the cells, and only the
corners inside the field: what a machine gives for any other multi-index has no influence.  Once the
checks have let the arguments pass, nothing can go wrong any more (`Sample.exists_red`,
`Sample.exists_blue`, `Sample.exists_green`), so the faults of sampling are those of the checks and
of the container (`Sample.sample_failsWithin`).

`Backend.sample_reads_inside` puts this together for every backend, with the arguments that are
sampled when the weights are not summed up (`Sample.Samplable`) and those that have an index too large
for a machine (`Sample.BeyondWords`).
-/
namespace Regrid

/-! ## Reading inside -/

theorem NdArray.exists_read {α : Type} (a : NdArray α) {ix : List Int} (h : Inside a.shape ix) :
    ∃ x, a.get? (ix.map Int.toNat) = some x ∧ a.read ix = .ok x := by
  have hsome := (a.get?_isSome_iff _).2 (place?_isSome_of_inside h)
  obtain ⟨x, hx⟩ := Option.isSome_iff_exists.1 hsome
  refine ⟨x, hx, ?_⟩
  rw [read_eq_of_inside a h, hx]
  rfl

/-- Inside the field its entries are read, by every backend. -/
theorem Backend.read_of_inside {α : Type} [Scalar α] (b : Backend) (field : NdArray α)
    {ix : List Int} (h : NdArray.Inside field.shape ix) :
    b.sampler.read field ix = field.read ix := by
  cases b with
  | fused => exact field.readNearest_eq_of_inside h
  | reference => rfl
  | compiled => rfl
  | native => rfl

namespace Sample

variable {α : Type} {s : Sampler α} {field : NdArray α}

/-! ## Past the checks nothing goes wrong -/

section Brackets
variable (hs : ∀ ix, NdArray.Inside field.shape ix → s.read field ix = field.read ix)
  {lists : List (List Int)}
  (hfield : (checkField field.shape lists : Except (Fault α) Unit) = .ok ())
include hs hfield

theorem exists_gather {idx : List Int} (hmem : List.Forall₂ (· ∈ ·) idx lists) {axes : Nat}
    (haxes : field.rank = axes) :
    ∃ values, gather s field (Corner.offsets axes) idx = .ok values := by
  have hidx := onAxes_of_mem hfield hmem
  have hlen : axes = idx.length := haxes.symm.trans hidx.length_eq
  subst hlen
  obtain ⟨values, hvalues, -⟩ := Outcome.exists_mapM fun ix hix => by
    have hinside := inside_of_mem_corners hidx ix hix
    obtain ⟨x, -, hx⟩ := field.exists_read hinside
    exact ⟨x, (hs ix hinside).trans hx⟩
  exact ⟨values, hvalues⟩

theorem exists_single {idx : List Int} (hmem : List.Forall₂ (· ∈ ·) idx lists) (w : List α) :
    ∃ value, single s field idx w = .ok value := by
  obtain ⟨values, hvalues⟩ := exists_gather hs hfield hmem (onAxes_of_mem hfield hmem).length_eq
  rw [single, hvalues]
  exact ⟨_, rfl⟩

theorem exists_rows {axes : Nat} (haxes : field.rank = axes) {idx : List (List Int)}
    (hmem : ∀ is ∈ idx, List.Forall₂ (· ∈ ·) is lists) {w : List (List α)}
    (hcount : w.length = idx.length) :
    ∃ values, rows s field axes idx w = .ok values ∧ values.length = idx.length := by
  have hrow : ∀ entry ∈ idx.zip w, ∃ value,
      (gather s field (Corner.offsets axes) entry.1 >>= fun values =>
        .ok (s.row values entry.2)) = .ok value := by
    intro entry hentry
    obtain ⟨values, hvalues⟩ := exists_gather hs hfield (hmem entry.1 (List.of_mem_zip hentry).1)
      haxes
    rw [hvalues]
    exact ⟨_, rfl⟩
  obtain ⟨values, hvalues, hlen⟩ := Outcome.exists_mapM hrow
  refine ⟨values, hvalues, ?_⟩
  rw [hlen, List.length_zip, hcount, Nat.min_self]

end Brackets

section Checked
variable [Scalar α] {weights : NdArray α} {check : SumCheck α}
  (hs : ∀ ix, NdArray.Inside field.shape ix → s.read field ix = field.read ix)
include hs

/-- **One position per axis** has a value once it is checked. -/
theorem exists_red {ps : List (Position α)} (hne : ps ≠ [])
    (h : checkRed weights field ps check = .ok ()) :
    ∃ value, red s weights field ps check = .ok value := by
  have hfield := (checkRed_eq_ok_iff.1 h).2.1
  have hmem : List.Forall₂ (· ∈ ·) (ps.map Position.idx) (ps.map fun p => [p.idx]) := by
    rw [List.forall₂_map_left_iff, List.forall₂_map_right_iff, List.forall₂_same]
    exact fun p _ => List.mem_singleton_self _
  rw [red, if_neg (by simpa using hne), h]
  exact exists_single hs hfield hmem _

variable {cs : List (Column α)} (hne : cs ≠ [])
include hne

/-- **A sequence of positions** has a value for each once it is checked. -/
theorem exists_blue (h : checkBlue weights field cs check = .ok ()) {n : Nat}
    (hn : ∀ c ∈ cs, c.length = n) :
    ∃ a, blue s weights field cs none check = .ok a ∧ a.shape = [n] := by
  obtain ⟨⟨m, hm, hshape⟩, hfield, -⟩ := (checkBlue_eq_ok_iff hne).1 h
  have hmn : m = n := by
    obtain ⟨c, hc⟩ := List.exists_mem_of_ne_nil cs hne
    rw [← hm c hc, hn c hc]
  subst hmn
  have haxes : field.rank = cs.length :=
    (checkField_eq_ok_iff.1 hfield).length_eq.trans (List.length_map _)
  have hlists : cs.map Column.idx ≠ [] := by rwa [Ne, List.map_eq_nil_iff]
  have hcount : (Weights.sideBySide (cs.map Column.idx)).length = m :=
    Weights.length_sideBySide hlists (List.forall_mem_map.2 hn)
  have hrows : weights.rows.length = m := by
    rw [NdArray.length_rows, NdArray.lead, hshape]
    exact volume_singleton m
  obtain ⟨values, hvalues, hlen⟩ := exists_rows hs hfield haxes
    (fun is his => Weights.mem_sideBySide hlists his) (hrows.trans hcount.symm)
  refine ⟨NdArray.vector values, ?_, by rw [NdArray.shape_vector, hlen, hcount]⟩
  rw [blue, if_neg (by simpa using hne), h]
  simp only [Outcome.ok_bind, hvalues]
  rfl

/-- **A grid of positions** has a value at every point once it is checked. -/
theorem exists_green (h : checkGreen weights field cs check = .ok ()) :
    ∃ a, green s weights field cs none check = .ok a ∧ a.shape = cs.map Column.length := by
  obtain ⟨hshape, hfield, -⟩ := checkGreen_eq_ok_iff.1 h
  have haxes : field.rank = cs.length :=
    (checkField_eq_ok_iff.1 hfield).length_eq.trans (List.length_map _)
  have hcount : (mesh (cs.map Column.idx)).length = volume (cs.map Column.length) := by
    rw [length_mesh, List.map_map]
    rfl
  have hrows : weights.rows.length = volume (cs.map Column.length) := by
    rw [NdArray.length_rows, NdArray.lead, hshape, List.dropLast_concat]
  obtain ⟨values, hvalues, hlen⟩ := exists_rows hs hfield haxes
    (fun is his => mem_mesh.1 his) (hrows.trans hcount.symm)
  obtain ⟨a, ha, hashape, -⟩ := shaped_eq_ok (hlen.trans hcount)
  refine ⟨a, ?_, hashape⟩
  rw [green, if_neg (by simpa using hne), h, Outcome.ok_bind, hvalues, Outcome.ok_bind, ha]
  rfl

end Checked

/-! ## What can go wrong -/

/-- The kinds of faults of sampling. -/
def faultKinds : List FaultKind :=
  [.dimensionMismatch, .invalidWeights, .invalidArgument, .overflow]

/-- **Single positions with an index that is no machine word**, which is noticed if their weights
have the shape that they need and there is no container. -/
def BeyondWords (weights field : NdArray α) (ps : List (Placement α))
    (out : Option (Container α)) : Prop :=
  out = none ∧ ∃ qs : List (Position α), qs ≠ [] ∧ ps = qs.map .one ∧
    weights.shape = [2 ^ qs.length] ∧ ∃ q ∈ qs, ¬ FitsWord field.shape q.idx

section Faults
open Outcome

variable {kinds : List FaultKind} (hkinds : .dimensionMismatch ∈ kinds)
include hkinds

theorem mismatch_failsWithin {β : Type} (cause : ShapeFault) :
    FailsWithin kinds (.error (.dimensionMismatch cause) : Except (Fault α) β) :=
  .of_error hkinds

theorem checkAxes_failsWithin (axis : Nat) (shape : List Nat) (lists : List (List Int)) :
    FailsWithin kinds (checkAxes axis shape lists : Except (Fault α) Unit) := by
  induction shape generalizing axis lists with
  | nil => exact .of_ok ()
  | cons size sizes ih =>
    cases lists with
    | nil => exact .of_ok ()
    | cons idx rest =>
      refine .bind ?_ fun _ _ => ih (axis + 1) rest
      cases idx with
      | nil => exact .of_ok ()
      | cons i idx => exact .ite (fun _ => mismatch_failsWithin hkinds _) fun _ => .of_ok ()

theorem checkField_failsWithin (shape : List Nat) (lists : List (List Int)) :
    FailsWithin kinds (checkField shape lists : Except (Fault α) Unit) :=
  .ite (fun _ => mismatch_failsWithin hkinds _) fun _ => checkAxes_failsWithin hkinds 0 shape lists

variable [Scalar α] {weights : NdArray α} {check : SumCheck α}

theorem deliver_failsWithin (out : Option (Container α)) (values : NdArray α) :
    FailsWithin kinds (deliver out values) := by
  cases out with
  | none => exact .of_ok values
  | some c =>
    exact .ite (fun _ => mismatch_failsWithin hkinds _) fun _ =>
      .ite (fun _ => .of_ok _) fun _ => mismatch_failsWithin hkinds _

variable (hrun : FailsWithin kinds (check.run weights.rows))
include hrun

theorem checkRed_failsWithin {ps : List (Position α)}
    (hwords : weights.shape = [2 ^ ps.length] → (∃ p ∈ ps, ¬ FitsWord field.shape p.idx) →
      .overflow ∈ kinds) :
    FailsWithin kinds (checkRed weights field ps check) := by
  refine .ite (fun _ => mismatch_failsWithin hkinds _) fun hshape => ?_
  rw [not_not] at hshape
  rw [NdArray.rows_of_shape hshape] at hrun
  refine .bind (.ite (fun _ => .of_ok ()) fun hbeyond => .of_error ?_) fun _ _ =>
    .bind (checkField_failsWithin hkinds _ _) fun _ _ => hrun
  rw [List.forall_mem_map] at hbeyond
  exact hwords (Corner.count_eq _ ▸ hshape) (by simpa using hbeyond)

theorem checkBlue_failsWithin (cs : List (Column α)) :
    FailsWithin kinds (checkBlue weights field cs check) := by
  rw [checkBlue]
  simp only
  split
  · exact mismatch_failsWithin hkinds _
  · exact .ite (fun _ => mismatch_failsWithin hkinds _) fun _ =>
      .bind (checkField_failsWithin hkinds _ _) fun _ _ => hrun

theorem checkGreen_failsWithin (cs : List (Column α)) :
    FailsWithin kinds (checkGreen weights field cs check) :=
  .ite (fun _ => mismatch_failsWithin hkinds _) fun _ =>
    .bind (checkField_failsWithin hkinds _ _) fun _ _ => hrun

variable (hs : ∀ ix, NdArray.Inside field.shape ix → s.read field ix = field.read ix)
include hs

theorem red_failsWithin {ps : List (Position α)}
    (hwords : weights.shape = [2 ^ ps.length] → (∃ p ∈ ps, ¬ FitsWord field.shape p.idx) →
      .overflow ∈ kinds) :
    FailsWithin kinds (red s weights field ps check) := by
  refine .ite (fun _ => mismatch_failsWithin hkinds _) fun hempty => ?_
  refine .bind (checkRed_failsWithin hkinds hrun hwords) fun _ hchecks => ?_
  have hne : ps ≠ [] := fun h => hempty (List.isEmpty_iff.2 h)
  have hred := exists_red hs hne hchecks
  rw [red, if_neg hempty, hchecks] at hred
  exact .of_exists_ok hred

theorem blue_failsWithin (cs : List (Column α)) (out : Option (Container α)) :
    FailsWithin kinds (blue s weights field cs out check) := by
  rw [blue_out]
  refine .bind ?_ fun values _ => deliver_failsWithin hkinds out values
  refine .ite (fun _ => mismatch_failsWithin hkinds _) fun hempty => ?_
  refine .bind (checkBlue_failsWithin hkinds hrun cs) fun _ hchecks => ?_
  have hne : cs ≠ [] := fun h => hempty (List.isEmpty_iff.2 h)
  obtain ⟨⟨n, hn, -⟩, -⟩ := (checkBlue_eq_ok_iff hne).1 hchecks
  obtain ⟨a, ha, -⟩ := exists_blue hs hne hchecks hn
  rw [blue, if_neg hempty, hchecks] at ha
  exact .of_exists_ok ⟨a, ha⟩

theorem green_failsWithin (cs : List (Column α)) (out : Option (Container α)) :
    FailsWithin kinds (green s weights field cs out check) := by
  rw [green_out]
  refine .bind ?_ fun values _ => deliver_failsWithin hkinds out values
  refine .ite (fun _ => mismatch_failsWithin hkinds _) fun hempty => ?_
  refine .bind (checkGreen_failsWithin hkinds hrun cs) fun _ hchecks => ?_
  have hne : cs ≠ [] := fun h => hempty (List.isEmpty_iff.2 h)
  obtain ⟨a, ha, -⟩ := exists_green hs hne hchecks
  rw [green, if_neg hempty, hchecks] at ha
  exact .of_exists_ok ⟨a, ha⟩

/-- Sampling fails for shapes, for an index that is no machine word, or as the spot check of the
weights fails, and for nothing else. -/
theorem sample_failsWithin_of_run (ps : List (Placement α)) (out : Option (Container α))
    (hwords : BeyondWords weights field ps out → .overflow ∈ kinds) :
    FailsWithin kinds (sample s weights field ps out check) := by
  induction ps using Placement.kind_cases with
  | nil => exact mismatch_failsWithin hkinds _
  | singles qs hne =>
    rw [sample_singles hne]
    refine .ite (fun _ => mismatch_failsWithin hkinds _) fun hout =>
      (red_failsWithin hkinds hrun hs fun hshape hbeyond => ?_).map _
    exact hwords ⟨by simpa using hout, qs, hne, rfl, hshape, hbeyond⟩
  | columns cs hne =>
    rw [sample_columns hne]
    exact .ite (fun _ => blue_failsWithin hkinds hrun hs cs out) fun _ =>
      .ite (fun _ => green_failsWithin hkinds hrun hs cs out) fun _ => mismatch_failsWithin hkinds _
  | mixed ps h h' =>
    rw [sample_mixed h h']
    exact mismatch_failsWithin hkinds _

end Faults

variable [Scalar α] {weights : NdArray α} {check : SumCheck α}

theorem run_failsWithin (rows : List (List α)) :
    Outcome.FailsWithin [.invalidWeights, .invalidArgument] (check.run rows) := by
  cases rows with
  | nil => exact .of_ok ()
  | cons row rows =>
    refine .ite (fun _ => ?_) fun _ => .of_ok ()
    refine .ite (fun _ => .of_error ?_) fun _ => .ite (fun _ => .of_ok ()) fun _ => .of_error ?_
    · simp [Fault.kind]
    · simp [Fault.kind]

section
variable (hs : ∀ ix, NdArray.Inside field.shape ix → s.read field ix = field.read ix)
include hs

/-- **Sampling fails for shapes, for weights, for an argument, or for an index**, and for nothing
else. -/
theorem sample_failsWithin (ps : List (Placement α)) (out : Option (Container α)) :
    Outcome.FailsWithin faultKinds (sample s weights field ps out check) :=
  sample_failsWithin_of_run (List.mem_cons_self ..) ((run_failsWithin _).mono (by decide)) hs ps out
    fun _ => by decide

/-- It fails for an index exactly if one of a single position is no machine word, and the weights
are of the right shape and there is no container. -/
theorem sample_overflow_iff (ps : List (Placement α)) (out : Option (Container α)) :
    Outcome.Refused .overflow (sample s weights field ps out check) ↔
      BeyondWords weights field ps out := by
  constructor
  · rintro ⟨f, hf, hkind⟩
    by_contra hfit
    have hwithin : Outcome.FailsWithin [.dimensionMismatch, .invalidWeights, .invalidArgument]
        (sample s weights field ps out check) :=
      sample_failsWithin_of_run (List.mem_cons_self ..) ((run_failsWithin _).mono (by decide)) hs ps
        out fun h => absurd h hfit
    have hmem := hwithin f hf
    rw [hkind] at hmem
    exact absurd hmem (by decide)
  · rintro ⟨rfl, qs, hne, rfl, hshape, hbeyond⟩
    have hwords : ¬ ∀ i ∈ qs.map Position.idx, FitsWord field.shape i := by
      rw [List.forall_mem_map]
      simpa using hbeyond
    rw [sample_singles hne, if_neg (by simp), red, if_neg (by simpa using hne), checkRed,
      if_neg (by rwa [not_not, Corner.count_eq]), checkWords, if_neg hwords]
    exact ⟨_, rfl, rfl⟩

end

/-! ## What is sampled -/

/-- The shapes that weights may have for positions of one kind: that of single positions, and
for columns that of a sequence or that of a grid. -/
def WeightsFit (weights : NdArray α) (ps : List (Placement α)) : Prop :=
  (∃ qs : List (Position α), ps = qs.map .one ∧ weights.shape = [2 ^ qs.length]) ∨
    ∃ cs : List (Column α), ps = cs.map .many ∧
      ((∃ m, (∀ c ∈ cs, c.length = m) ∧ weights.shape = [m, 2 ^ cs.length]) ∨
        weights.shape = cs.map Column.length ++ [2 ^ cs.length])

/-- **What can be sampled** if the weights are not summed up: there are positions, all of one kind
and with weights that fit, the field has a dimension for each, and both points of every bracket are
among those of its dimension. -/
structure Samplable (weights field : NdArray α) (ps : List (Placement α)) : Prop where
  some : ps ≠ []
  weights : WeightsFit weights ps
  brackets : List.Forall₂ (fun (n : Nat) p => ∀ i ∈ Placement.indices p, 0 ≤ i ∧ i + 1 < (n : Int))
    field.shape ps

omit [Scalar α] in
theorem brackets_iff {shape : List Nat} {ps : List (Placement α)} :
    List.Forall₂ (fun (n : Nat) p => ∀ i ∈ Placement.indices p, 0 ≤ i ∧ i + 1 < (n : Int)) shape ps ↔
      (checkField shape (ps.map Placement.indices) : Except (Fault α) Unit) = .ok () := by
  rw [checkField_eq_ok_iff, List.forall₂_map_right_iff]
  have hnext : ∀ (n : Nat) (i : Int), i + 1 < n ↔ i + 2 ≤ n := by omega
  simp only [hnext]

omit [Scalar α] in
theorem weightsFit_singles {qs : List (Position α)} (hne : qs ≠ []) :
    WeightsFit weights (qs.map .one) ↔ weights.shape = [Corner.count qs.length] := by
  rw [Corner.count_eq]
  constructor
  · rintro (⟨rs, hrs, h⟩ | ⟨cs, hcs, -⟩)
    · have hsingles := congrArg Placement.singles hrs
      rw [Placement.singles_map_one, Placement.singles_map_one] at hsingles
      rwa [Option.some.inj hsingles]
    · have hcolumns := congrArg Placement.columns hcs
      rw [Placement.columns_map_one hne, Placement.columns_map_many] at hcolumns
      cases hcolumns
  · exact fun h => .inl ⟨qs, rfl, h⟩

omit [Scalar α] in
theorem weightsFit_columns {cs : List (Column α)} (hne : cs ≠ []) :
    WeightsFit weights (cs.map .many) ↔
      (∃ n, (∀ c ∈ cs, c.length = n) ∧ weights.shape = [n, Corner.count cs.length]) ∨
        weights.shape = cs.map Column.length ++ [Corner.count cs.length] := by
  rw [Corner.count_eq]
  constructor
  · rintro (⟨qs, hqs, -⟩ | ⟨ds, hds, h⟩)
    · have hsingles := congrArg Placement.singles hqs
      rw [Placement.singles_map_many hne, Placement.singles_map_one] at hsingles
      cases hsingles
    · have hcolumns := congrArg Placement.columns hds
      rw [Placement.columns_map_many, Placement.columns_map_many] at hcolumns
      rwa [Option.some.inj hcolumns]
  · exact fun h => .inr ⟨cs, rfl, h⟩

omit [Scalar α] in
/-- Weights of two dimensions fit as those of a sequence; a grid of one axis is no different. -/
theorem weightsFit_of_rank_eq_two {cs : List (Column α)} (hne : cs ≠ []) (hrank : weights.rank = 2) :
    WeightsFit weights (cs.map .many) ↔
      ∃ n, (∀ c ∈ cs, c.length = n) ∧ weights.shape = [n, Corner.count cs.length] := by
  rw [weightsFit_columns hne]
  refine ⟨?_, .inl⟩
  rintro (h | h)
  · exact h
  · have hone : cs.length = 1 := by
      rw [NdArray.rank, h, List.length_append, List.length_map, List.length_singleton] at hrank
      omega
    obtain ⟨c, rfl⟩ := List.length_eq_one_iff.1 hone
    exact ⟨c.length, by simp, h⟩

omit [Scalar α] in
/-- Weights of another number of dimensions fit as those of a grid. -/
theorem weightsFit_of_rank_ne_two {cs : List (Column α)} (hne : cs ≠ []) (hrank : weights.rank ≠ 2) :
    WeightsFit weights (cs.map .many) ↔
      weights.shape = cs.map Column.length ++ [Corner.count cs.length] := by
  rw [weightsFit_columns hne]
  refine ⟨?_, .inr⟩
  rintro (⟨n, -, h⟩ | h)
  · rw [NdArray.rank, h] at hrank
    exact absurd rfl hrank
  · exact h

section Sampled
variable (hs : ∀ ix, NdArray.Inside field.shape ix → s.read field ix = field.read ix)
include hs

theorem exists_red_iff {ps : List (Position α)} (hne : ps ≠ []) :
    (∃ value, red s weights field ps check = .ok value) ↔
      checkRed weights field ps check = .ok () := by
  refine ⟨fun ⟨value, hvalue⟩ => ?_, exists_red hs hne⟩
  rw [red, Outcome.guard_eq_ok_iff] at hvalue
  obtain ⟨⟨⟩, hchecks, -⟩ := Outcome.bind_eq_ok_iff.1 hvalue.2
  exact hchecks

variable {cs : List (Column α)} (hne : cs ≠ [])
include hne

theorem exists_blue_iff :
    (∃ a, blue s weights field cs none check = .ok a) ↔
      checkBlue weights field cs check = .ok () := by
  constructor
  · rintro ⟨a, ha⟩
    rw [blue, Outcome.guard_eq_ok_iff] at ha
    obtain ⟨⟨⟩, hchecks, -⟩ := Outcome.bind_eq_ok_iff.1 ha.2
    exact hchecks
  · intro hchecks
    obtain ⟨⟨n, hn, -⟩, -⟩ := (checkBlue_eq_ok_iff hne).1 hchecks
    obtain ⟨a, ha, -⟩ := exists_blue hs hne hchecks hn
    exact ⟨a, ha⟩

theorem exists_green_iff :
    (∃ a, green s weights field cs none check = .ok a) ↔
      checkGreen weights field cs check = .ok () := by
  constructor
  · rintro ⟨a, ha⟩
    rw [green, Outcome.guard_eq_ok_iff] at ha
    obtain ⟨⟨⟩, hchecks, -⟩ := Outcome.bind_eq_ok_iff.1 ha.2
    exact hchecks
  · intro hchecks
    obtain ⟨a, ha, -⟩ := exists_green hs hne hchecks
    exact ⟨a, ha⟩

end Sampled

/-- Weights that are not summed up pass. -/
theorem run_of_disabled (h : check.enabled = false) (rows : List (List α)) :
    check.run rows = .ok () := by
  cases rows with
  | nil => rfl
  | cons row rows => rw [SumCheck.run, h, if_neg Bool.false_ne_true]

section Unchecked
variable (hs : ∀ ix, NdArray.Inside field.shape ix → s.read field ix = field.read ix)
  (hrun : check.run weights.rows = .ok ())
include hs hrun

theorem exists_sample_singles_iff {qs : List (Position α)} (hne : qs ≠ []) :
    (∃ a, sample s weights field (qs.map .one) none check = .ok a) ↔
      Samplable weights field (qs.map .one) := by
  have hsample : (∃ a, sample s weights field (qs.map .one) none check = .ok a) ↔
      ∃ value, red s weights field qs check = .ok value := by
    rw [sample_singles hne]
    exact Outcome.exists_map_ok_iff
  have hrow : weights.shape = [Corner.count qs.length] → check.run [weights.toList] = .ok () := by
    intro hshape
    rwa [NdArray.rows_of_shape hshape] at hrun
  rw [hsample, exists_red_iff hs hne, checkRed_eq_ok_iff, ← Placement.indices_map_one,
    ← brackets_iff]
  constructor
  · rintro ⟨hshape, hbrackets, -⟩
    exact ⟨by simpa using hne, (weightsFit_singles hne).2 hshape, hbrackets⟩
  · intro h
    have hshape := (weightsFit_singles hne).1 h.weights
    exact ⟨hshape, h.brackets, hrow hshape⟩

theorem exists_sample_columns_iff {cs : List (Column α)} (hne : cs ≠ []) :
    (∃ a, sample s weights field (cs.map .many) none check = .ok a) ↔
      Samplable weights field (cs.map .many) := by
  have hsome : cs.map Placement.many ≠ [] := by simpa using hne
  rw [sample_columns hne]
  by_cases htwo : weights.rank = 2
  · rw [if_pos htwo, exists_blue_iff hs hne, checkBlue_eq_ok_iff hne, hrun,
      ← Placement.indices_map_many, ← brackets_iff, ← weightsFit_of_rank_eq_two hne htwo]
    exact ⟨fun h => ⟨hsome, h.1, h.2.1⟩, fun h => ⟨h.weights, h.brackets, rfl⟩⟩
  · rw [if_neg htwo]
    have hfit := weightsFit_of_rank_ne_two hne htwo
    by_cases haxes : weights.rank = cs.length + 1
    · rw [if_pos haxes, exists_green_iff hs hne, checkGreen_eq_ok_iff, hrun,
        ← Placement.indices_map_many, ← brackets_iff, ← hfit]
      exact ⟨fun h => ⟨hsome, h.1, h.2.1⟩, fun h => ⟨h.weights, h.brackets, rfl⟩⟩
    · rw [if_neg haxes]
      refine ⟨fun h => absurd h (Outcome.not_exists_ok _), fun h => absurd ?_ haxes⟩
      rw [NdArray.rank, hfit.1 h.weights, List.length_append, List.length_map,
        List.length_singleton]

/-- What is sampled if the weights pass the spot check and there is no container. -/
theorem exists_sample_iff (ps : List (Placement α)) :
    (∃ a, sample s weights field ps none check = .ok a) ↔ Samplable weights field ps := by
  induction ps using Placement.kind_cases with
  | nil =>
    rw [sample_nil]
    exact ⟨fun h => absurd h (Outcome.not_exists_ok _), fun h => absurd rfl h.some⟩
  | singles qs hne => exact exists_sample_singles_iff hs hrun hne
  | columns cs hne => exact exists_sample_columns_iff hs hrun hne
  | mixed ps hsingles hcolumns =>
    rw [sample_mixed hsingles hcolumns]
    refine ⟨fun h => absurd h (Outcome.not_exists_ok _), fun h => ?_⟩
    rcases h.weights with ⟨qs, rfl, -⟩ | ⟨cs, rfl, -⟩
    · rw [Placement.singles_map_one] at hsingles
      cases hsingles
    · rw [Placement.columns_map_many] at hcolumns
      cases hcolumns

end Unchecked

end Sample

namespace Backend

variable {α : Type} [Scalar α]

/-- **Sampling never reads outside the field**, whatever the weights, the field, the positions, the
container and the check are.  It is refused for shapes, for weights or for an argument, or else
because the index of a single position does not fit a machine word, which in a field of a size that a
machine can hold is an index outside the signed numbers of sixty-four bits; and for nothing else.  Of
the field it reads the corners of cells, and those inside only: whatever a machine gives elsewhere,
sampling with it is the same as long as it gives the entries there.  And if the weights are not summed
up and there is no container, it succeeds for just the arguments that fit together. -/
theorem sample_reads_inside (b : Backend) (weights field : NdArray α) (ps : List (Placement α))
    (out : Option (Container α)) (check : SumCheck α) :
    (∀ f, b.sample weights field ps out check = .error f →
      f.kind = .dimensionMismatch ∨ f.kind = .invalidWeights ∨ f.kind = .invalidArgument ∨
        f.kind = .overflow) ∧
    (Outcome.Refused .overflow (b.sample weights field ps out check) ↔
      Sample.BeyondWords weights field ps out) ∧
    ((∀ n ∈ field.shape, n ≤ 2 ^ 63) → ∀ i,
      Sample.FitsWord field.shape i ↔ -2 ^ 63 ≤ i ∧ i < 2 ^ 63) ∧
    (∀ read : NdArray α → List Int → Except (Fault α) α,
      (∀ ix x, Sample.IsCorner (ps.map Placement.indices) ix → NdArray.Inside field.shape ix →
        field.get? (ix.map Int.toNat) = some x → read field ix = .ok x) →
      Sample.sample { b.sampler with read := read } weights field ps out check =
        b.sample weights field ps out check) ∧
    ((∃ a, b.sample weights field ps none { check with enabled := false } = .ok a) ↔
      Sample.Samplable weights field ps) := by
  have hread : ∀ ix, NdArray.Inside field.shape ix → b.sampler.read field ix = field.read ix :=
    fun ix hix => b.read_of_inside field hix
  refine ⟨fun f hf => ?_, Sample.sample_overflow_iff hread ps out,
    fun hextents i => Sample.fitsWord_iff hextents, fun read hcorners => ?_, ?_⟩
  · have hkind := Sample.sample_failsWithin hread ps out f hf
    simpa [Sample.faultKinds] using hkind
  · have halike : Sampler.AlikeOn { b.sampler with read := read } b.sampler field
        (ps.map Placement.indices) := by
      refine ⟨rfl, rfl, fun ix hcorner hinside => ?_⟩
      obtain ⟨x, hentry, hx⟩ := field.exists_read hinside
      rw [hread ix hinside, hx]
      exact hcorners ix x hcorner hinside hentry
    exact Sample.sample_congr halike out
  · exact Sample.exists_sample_iff hread (Sample.run_of_disabled rfl _) ps

/-- The index of a single position may be too large for a machine.  Then the fault is about that, and
not about shapes, weights or an argument. -/
theorem sample_large_index :
    let large : Placement ℚ := .one ⟨9223372036854775808, 1, 0⟩
    reference.sample (NdArray.vector [0, 1]) (NdArray.vector [1, 2]) [large] none
      ⟨true, SumCheck.defaultTolerance⟩ = .error (@Fault.overflow ℚ .indexWord) := by
  intro large
  rfl

end Backend
end Regrid
