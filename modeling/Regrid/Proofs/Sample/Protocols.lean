import Regrid.Proofs.Arrays
import Regrid.Proofs.Sample.Cells
import Regrid.Proofs.Sample.Checks
import Regrid.Proofs.Sample.Dispatch

/-!
# The three protocols as one

Whatever the protocol, a value is the value in the cell of one list of positions, a
position per axis.  Red samples one such list; blue samples the lists that stand side
by side in the columns, and green those of the mesh of the columns.  The weights of
blue and green are made for just these lists, in the same order (`Weights.blueRows_eq`,
`Weights.greenRows_eq`).  On a single axis blue and green are the same (`blue_eq_green`).

So in exact arithmetic, with weights that belong to the positions, all checks pass as
soon as the brackets are among the points of the field, and sampling is evaluation in
cells (`Sample.sample_red`, `Sample.sample_blue`, `Sample.sample_green`).
-/
namespace Regrid

namespace Sample

/-! ## Columns -/

section Columns
variable {α : Type}

theorem shaped_eq_ok {shape : List Nat} {values : List α} (h : values.length = volume shape) :
    ∃ a, shaped shape values = .ok a ∧ a.shape = shape ∧ a.toList = values := by
  have hsize : values.toArray.size = volume shape := by rw [List.size_toArray, h]
  refine ⟨⟨shape, values.toArray, hsize⟩, ?_, rfl, by simp [NdArray.toList]⟩
  rw [shaped, NdArray.ofData?, dif_pos hsize]
  rfl

variable [Scalar α] {s : Sampler α} {w field : NdArray α} {out : Option (Container α)}
  {check : SumCheck α} {cs : List (Column α)}

/-- Columns with the weights of a sequence are sampled as a sequence. -/
theorem sample_sequence (hne : cs ≠ []) {n : Nat} (hshape : w.shape = [n, Corner.count cs.length]) :
    sample s w field (cs.map .many) out check = blue s w field cs out check := by
  have htwo : w.rank = 2 := by rw [NdArray.rank, hshape]; rfl
  rw [sample_columns hne, if_pos htwo]

/-- **On a single axis a sequence and a grid are the same**, once the checks have passed. -/
theorem blue_eq_green {c : Column α} (h : checkGreen w field [c] check = .ok ()) :
    blue s w field [c] none check = green s w field [c] none check := by
  obtain ⟨hshape, hfield, hrun⟩ := checkGreen_eq_ok_iff.1 h
  have hne : [c] ≠ [] := List.cons_ne_nil c []
  have hblue : checkBlue w field [c] check = .ok () :=
    (checkBlue_eq_ok_iff hne).2 ⟨⟨c.length, by simp, hshape⟩, hfield, hrun⟩
  have hcount : w.rows.length = c.length := by
    rw [NdArray.length_rows, NdArray.lead, hshape]
    exact volume_singleton c.length
  rw [blue, green, if_neg (by simp), if_neg (by simp), h, hblue, List.map_singleton, mesh_singleton,
    Outcome.ok_bind, Outcome.ok_bind]
  refine Outcome.bind_congr fun values hvalues => ?_
  -- There is a value for each position, so the values fill the only axis of the grid.
  have hlen : values.length = c.length := by
    rw [← (Outcome.mapM_eq_ok_iff.1 hvalues).length_eq, List.length_zip, hcount]
    simp [Weights.sideBySide, Column.length]
  have hfill : values.length = volume [c.length] := hlen.trans (volume_singleton _).symm
  obtain ⟨a, ha, hashape, halist⟩ := shaped_eq_ok hfill
  have heq : a = NdArray.vector values :=
    NdArray.ext_toList (by rw [hashape, NdArray.shape_vector, hlen])
      (by rw [halist, NdArray.toList_vector])
  rw [List.map_singleton, ha, heq]
  rfl

/-- Columns with the weights of a grid are sampled as a grid; on a single axis the weights are
taken for those of a sequence. -/
theorem sample_grid (hne : cs ≠ []) (hchecks : checkGreen w field cs check = .ok ()) :
    sample s w field (cs.map .many) none check = green s w field cs none check := by
  have hrank : w.rank = cs.length + 1 := by
    rw [NdArray.rank, (checkGreen_eq_ok_iff.1 hchecks).1, List.length_append, List.length_map]
    rfl
  rw [sample_columns hne]
  by_cases htwo : w.rank = 2
  · obtain ⟨c, rfl⟩ := List.length_eq_one_iff.1 (show cs.length = 1 by omega)
    rw [if_pos htwo, blue_eq_green hchecks]
  · rw [if_neg htwo, if_pos hrank]

end Columns

/-! ## Sound positions -/

variable {K : Type} [Field K]

/-- A position is sound on an axis of `n` points: both points of its bracket are
among them, and the distances make one. -/
def Sound (n : Nat) (p : Position K) : Prop := Among n p ∧ p.complement + p.fraction = 1

/-- Columns are sound on a field: there is one for each axis, and each of its positions is
sound there. -/
def SoundColumns (shape : List Nat) (cs : List (Column K)) : Prop :=
  List.Forall₂ (fun n c => ∀ p ∈ c.toList, Sound n p) shape cs

theorem sum_of_sound {shape : List Nat} {ps : List (Position K)} (h : List.Forall₂ Sound shape ps) :
    ∀ p ∈ ps, p.complement + p.fraction = 1 := by
  induction h with
  | nil => simp
  | cons head _ ih => exact List.forall_mem_cons.2 ⟨head.2, ih⟩

/-- Positions taken from sound columns are sound. -/
theorem sound_of_mem {shape : List Nat} {cs : List (Column K)} {ps : List (Position K)}
    (h : SoundColumns shape cs)
    (hmem : List.Forall₂ (· ∈ ·) ps (cs.map Column.toList)) : List.Forall₂ Sound shape ps :=
  Choices.forall₂_of_mem (List.forall₂_map_right_iff.2 h) hmem

variable [LinearOrder K] [FloorRing K] [Elementary K]

/-- Sound positions pass, where the tolerance is positive. -/
theorem passing_of_sound {field : NdArray K} {check : SumCheck K} (hcheck : 0 < check.tolerance)
    {lists : List (List (Position K))}
    (h : List.Forall₂ (fun n ps => ∀ p ∈ ps, Sound n p) field.shape lists) :
    Passing field check lists where
  brackets := by
    rw [checkField_eq_ok_iff, List.forall₂_map_right_iff]
    refine h.imp fun n ps hps i hi => ?_
    obtain ⟨p, hp, rfl⟩ := List.mem_map.1 hi
    exact (hps p hp).1
  weights pss hpss := by
    refine SumCheck.run_eq_ok hcheck fun row hrow => ?_
    obtain ⟨ps, hps, rfl⟩ := List.mem_map.1 hrow
    exact Weights.sum_cornerRow (sum_of_sound (Choices.forall₂_of_mem h (hpss ps hps)))

theorem SoundColumns.passing {field : NdArray K} {check : SumCheck K} {cs : List (Column K)}
    (h : SoundColumns field.shape cs) (hcheck : 0 < check.tolerance) :
    Passing field check (cs.map Column.toList) :=
  passing_of_sound hcheck (List.forall₂_map_right_iff.2 h)

theorem rows_of_sound {s : Sampler K} (hs : s.Exact) {field : NdArray K}
    {pss : List (List (Position K))} (h : ∀ ps ∈ pss, List.Forall₂ Sound field.shape ps)
    {axes : Nat} (haxes : field.rank = axes) :
    rows s field axes (pss.map (List.map Position.idx)) (pss.map Weights.cornerRow) =
      .ok (pss.map fun ps => Cell.value ps field.entry) := by
  rw [← haxes]
  exact rows_eq_ok hs fun ps hps => (h ps hps).imp fun _ _ hp => hp.1

variable {s : Sampler K} {field : NdArray K} {check : SumCheck K}

/-! ### One position per axis -/

theorem red_eq_ok (hs : s.Exact) (hcheck : 0 < check.tolerance) {ps : List (Position K)}
    (hne : ps ≠ []) (h : List.Forall₂ Sound field.shape ps) :
    red s (NdArray.vector (Weights.cornerRow ps)) field ps check =
      .ok (Cell.value ps field.entry) := by
  have hsound : List.Forall₂ (fun n qs => ∀ q ∈ qs, Sound n q) field.shape (ps.map fun p => [p]) :=
    List.forall₂_map_right_iff.2 (h.imp fun n p hp => by simpa using hp)
  have hchecks := (passing_of_sound hcheck hsound).checkRed
  rw [red, if_neg (by simpa using hne), hchecks, NdArray.toList_vector]
  exact single_eq_ok hs (h.imp fun _ _ hq => hq.1)

/-- **One position per axis** is sampled as the value in its cell. -/
theorem sample_red (hs : s.Exact) (hcheck : 0 < check.tolerance) {ps : List (Position K)}
    (hne : ps ≠ []) (h : List.Forall₂ Sound field.shape ps) :
    ∃ w, Weights.red ps none = .ok w ∧ sample s w field (ps.map .one) none check =
      .ok (NdArray.scalar (Cell.value ps field.entry)) := by
  have hvalue := red_eq_ok hs hcheck hne h
  obtain ⟨p, qs, rfl⟩ := List.exists_cons_of_ne_nil hne
  refine ⟨_, Weights.red_none p qs, ?_⟩
  rw [Weights.redRow_eq_cornerRow, sample_singles hne, hvalue]
  rfl

/-! ### Columns of positions -/

theorem blue_eq_ok (hs : s.Exact) (hcheck : 0 < check.tolerance) {cs : List (Column K)} {n : Nat}
    (hne : cs ≠ []) (hlen : ∀ c ∈ cs, c.length = n)
    (h : SoundColumns field.shape cs)
    {w : NdArray K} (hshape : w.shape = [n, Corner.count cs.length])
    (hrows : w.rows = (Weights.sideBySide (cs.map Column.toList)).map Weights.cornerRow) :
    blue s w field cs none check = .ok (NdArray.vector
      ((Weights.sideBySide (cs.map Column.toList)).map fun ps => Cell.value ps field.entry)) := by
  have hsound : ∀ ps ∈ Weights.sideBySide (cs.map Column.toList),
      List.Forall₂ Sound field.shape ps := fun ps hps =>
    sound_of_mem h (Weights.mem_sideBySide (by simpa using hne) hps)
  have hchecks := (h.passing hcheck).checkBlue hne hlen hshape hrows
  have hidx : Weights.sideBySide (cs.map Column.idx) =
      (Weights.sideBySide (cs.map Column.toList)).map (List.map Position.idx) := by
    rw [← Weights.sideBySide_map, List.map_map]
    exact congrArg _ (List.map_congr_left fun c _ => c.map_idx_toList.symm)
  rw [blue, if_neg (by simpa using hne), hchecks, hidx, hrows]
  simp [rows_of_sound hs hsound h.length_eq, deliver]

/-- **A sequence of positions** is sampled as the values in their cells. -/
theorem sample_blue (hs : s.Exact) (hcheck : 0 < check.tolerance) {cs : List (Column K)} {n : Nat}
    (hne : cs ≠ []) (hlen : ∀ c ∈ cs, c.length = n)
    (h : SoundColumns field.shape cs) :
    ∃ w, Weights.blue cs none = .ok w ∧ sample s w field (cs.map .many) none check =
      .ok (NdArray.vector
        ((Weights.sideBySide (cs.map Column.toList)).map fun ps => Cell.value ps field.entry)) := by
  obtain ⟨w, hw, hshape, hrows⟩ := Weights.exists_of_sequence hne hlen
  refine ⟨w, hw, ?_⟩
  rw [sample_sequence hne hshape, blue_eq_ok hs hcheck hne hlen h hshape hrows]

theorem green_eq_ok (hs : s.Exact) (hcheck : 0 < check.tolerance) {cs : List (Column K)}
    (hne : cs ≠ [])
    (h : SoundColumns field.shape cs)
    {w : NdArray K} (hshape : w.shape = cs.map Column.length ++ [Corner.count cs.length])
    (hrows : w.rows = (mesh (cs.map Column.toList)).map Weights.cornerRow) :
    ∃ a, green s w field cs none check = .ok a ∧ a.shape = cs.map Column.length ∧
      a.toList = (mesh (cs.map Column.toList)).map fun ps => Cell.value ps field.entry := by
  have hsound : ∀ ps ∈ mesh (cs.map Column.toList), List.Forall₂ Sound field.shape ps :=
    fun ps hps => sound_of_mem h (mem_mesh.1 hps)
  have hchecks := (h.passing hcheck).checkGreen hshape hrows
  have hidx : mesh (cs.map Column.idx) =
      (mesh (cs.map Column.toList)).map (List.map Position.idx) := by
    rw [← mesh_map, List.map_map]
    exact congrArg _ (List.map_congr_left fun c _ => c.map_idx_toList.symm)
  have hsize : ((mesh (cs.map Column.toList)).map fun ps => Cell.value ps field.entry).length =
      volume (cs.map Column.length) := by
    rw [List.length_map, length_mesh, List.map_map]
    exact congrArg volume (List.map_congr_left fun c _ => c.length_toList)
  obtain ⟨a, ha, hashape, halist⟩ := shaped_eq_ok hsize
  refine ⟨a, ?_, hashape, halist⟩
  rw [green, if_neg (by simpa using hne), hchecks, hidx, hrows]
  simp [rows_of_sound hs hsound h.length_eq, ha, deliver]

/-- **A grid of positions** is sampled as the values in the cells of its points. -/
theorem sample_green (hs : s.Exact) (hcheck : 0 < check.tolerance) {cs : List (Column K)}
    (hne : cs ≠ [])
    (h : SoundColumns field.shape cs) :
    ∃ w a, Weights.green cs none = .ok w ∧ sample s w field (cs.map .many) none check = .ok a ∧
      a.shape = cs.map Column.length ∧
      a.toList = (mesh (cs.map Column.toList)).map fun ps => Cell.value ps field.entry := by
  obtain ⟨w, hw, hshape, hrows⟩ := Weights.exists_of_grid hne
  obtain ⟨a, ha, hashape, halist⟩ := green_eq_ok hs hcheck hne h hshape hrows
  refine ⟨w, a, hw, ?_, hashape, halist⟩
  rw [sample_grid hne ((h.passing hcheck).checkGreen hshape hrows), ha]

end Sample
end Regrid
