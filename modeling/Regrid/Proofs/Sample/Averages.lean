import Regrid.Proofs.Sample.Protocols

/-!
# Averages over the corners of cells

A position inside its bracket divides the way between the two points, and the interpolation there
is an average: it lies between what belongs to the points, and it follows them
(`Position.Inside.between_lerp`, `Position.Inside.lerp_le_lerp`).  Axis by axis this becomes a
statement about cells: the weights of a cell are parts of one (`Weights.isConvex_cornerRow`), and the
value in it lies between the least and the greatest at its corners (`Cell.between_value`), and follows
the field (`Cell.value_le_value`).

In this sense the three protocols average (`Sample.Averages`), whatever sampler reads the corners.
-/
namespace Regrid

variable {K : Type} [Field K] [LinearOrder K]

/-! ## One axis -/

namespace Position
namespace Inside

variable [IsStrictOrderedRing K] {p : Position K} (h : p.Inside)
include h

/-- A factor of a weight is a part of one. -/
theorem factor_mem (bit : Nat) : 0 ≤ p.factor bit ∧ p.factor bit ≤ 1 := by
  by_cases hbit : bit = 0
  · rw [factor, if_pos hbit]
    exact ⟨h.complement, h.le_one.2⟩
  · rw [factor, if_neg hbit]
    exact ⟨h.fraction, h.le_one.1⟩

/-- **The interpolation follows** what belongs to the points. -/
theorem lerp_le_lerp {f g : Int → K} (hlower : f p.idx ≤ g p.idx)
    (hupper : f (p.idx + 1) ≤ g (p.idx + 1)) : p.lerp f ≤ p.lerp g :=
  add_le_add (mul_le_mul_of_nonneg_left hlower h.complement)
    (mul_le_mul_of_nonneg_left hupper h.fraction)

/-- **The interpolation lies between** what belongs to the points. -/
theorem between_lerp (f : Int → K) : Between [f p.idx, f (p.idx + 1)] (p.lerp f) := by
  have hconst : ∀ c : K, p.lerp (fun _ => c) = c := fun c => by
    rw [lerp, ← add_mul, h.whole, one_mul]
  rcases le_total (f p.idx) (f (p.idx + 1)) with hle | hle
  · constructor
    · refine ⟨f p.idx, by simp, ?_⟩
      calc f p.idx = p.lerp fun _ => f p.idx := (hconst _).symm
        _ ≤ p.lerp f := h.lerp_le_lerp le_rfl hle
    · refine ⟨f (p.idx + 1), by simp, ?_⟩
      calc p.lerp f ≤ p.lerp fun _ => f (p.idx + 1) := h.lerp_le_lerp hle le_rfl
        _ = f (p.idx + 1) := hconst _
  · constructor
    · refine ⟨f (p.idx + 1), by simp, ?_⟩
      calc f (p.idx + 1) = p.lerp fun _ => f (p.idx + 1) := (hconst _).symm
        _ ≤ p.lerp f := h.lerp_le_lerp hle le_rfl
    · refine ⟨f p.idx, by simp, ?_⟩
      calc p.lerp f ≤ p.lerp fun _ => f p.idx := h.lerp_le_lerp le_rfl hle
        _ = f p.idx := hconst _

end Inside
end Position

/-! ## Cells -/

namespace Cell

omit [Field K] [LinearOrder K] in
/-- The corners of a cell, in the order of the table of corner bits. -/
def corners (ps : List (Position K)) : List (List Int) :=
  Sample.corners (Corner.offsets ps.length) (ps.map Position.idx)

variable {p : Position K} {ps : List (Position K)} {f g : List Int → K}

omit [Field K] [LinearOrder K] in
/-- A corner is one of the two points of the first bracket, and a corner along the later axes. -/
theorem mem_corners_cons {ix : List Int} :
    ix ∈ corners (p :: ps) ↔ ∃ i js, (i = p.idx ∨ i = p.idx + 1) ∧ js ∈ corners ps ∧ ix = i :: js := by
  have hcorners : corners (p :: ps) =
      (corners ps).map (p.idx :: ·) ++ (corners ps).map ((p.idx + 1) :: ·) := by
    rw [corners, corners, List.length_cons, Corner.offsets_succ, Sample.corners, Sample.corners,
      List.map_append, List.map_map, List.map_map, List.map_map, List.map_map]
    simp [Function.comp_def]
  rw [hcorners, List.mem_append, List.mem_map, List.mem_map]
  constructor
  · rintro (⟨js, hjs, rfl⟩ | ⟨js, hjs, rfl⟩)
    · exact ⟨p.idx, js, .inl rfl, hjs, rfl⟩
    · exact ⟨p.idx + 1, js, .inr rfl, hjs, rfl⟩
  · rintro ⟨i, js, rfl | rfl, hjs, rfl⟩
    · exact .inl ⟨js, hjs, rfl⟩
    · exact .inr ⟨js, hjs, rfl⟩

variable [IsStrictOrderedRing K] (h : ∀ p ∈ ps, p.Inside)
include h

/-- **The value in a cell follows** what belongs to its corners. -/
theorem value_le_value (hfg : ∀ ix ∈ corners ps, f ix ≤ g ix) : value ps f ≤ value ps g := by
  induction ps generalizing f g with
  | nil => exact hfg [] (List.mem_singleton_self _)
  | cons p ps ih =>
    obtain ⟨hp, hps⟩ := List.forall_mem_cons.1 h
    have hlater : ∀ i, i = p.idx ∨ i = p.idx + 1 →
        value ps (fun ix => f (i :: ix)) ≤ value ps fun ix => g (i :: ix) := fun i hi =>
      ih hps fun js hjs => hfg (i :: js) (mem_corners_cons.2 ⟨i, js, hi, hjs, rfl⟩)
    exact hp.lerp_le_lerp (hlater _ (.inl rfl)) (hlater _ (.inr rfl))

/-- **The value in a cell lies between** what belongs to its corners. -/
theorem between_value (f : List Int → K) : Between ((corners ps).map f) (value ps f) := by
  induction ps generalizing f with
  | nil =>
    have hmem : f [] ∈ (corners ([] : List (Position K))).map f := List.mem_singleton_self _
    exact ⟨⟨_, hmem, le_rfl⟩, _, hmem, le_rfl⟩
  | cons p ps ih =>
    obtain ⟨hp, hps⟩ := List.forall_mem_cons.1 h
    -- At one of the two points the value along the later axes is no greater, and at one no less; and
    -- there the same holds of a corner.
    have hmem : ∀ i, i = p.idx ∨ i = p.idx + 1 → ∀ y ∈ (corners ps).map (fun ix => f (i :: ix)),
        y ∈ (corners (p :: ps)).map f := by
      intro i hi y hy
      obtain ⟨js, hjs, rfl⟩ := List.mem_map.1 hy
      exact List.mem_map_of_mem (mem_corners_cons.2 ⟨i, js, hi, hjs, rfl⟩)
    have hpoint : ∀ y ∈ [value ps fun ix => f (p.idx :: ix), value ps fun ix => f ((p.idx + 1) :: ix)],
        ∃ i, (i = p.idx ∨ i = p.idx + 1) ∧ y = value ps fun ix => f (i :: ix) := by
      intro y hy
      rcases List.mem_pair.1 hy with rfl | rfl
      · exact ⟨_, .inl rfl, rfl⟩
      · exact ⟨_, .inr rfl, rfl⟩
    obtain ⟨⟨y, hy, hle⟩, z, hz, hge⟩ := hp.between_lerp fun i => value ps fun ix => f (i :: ix)
    constructor
    · obtain ⟨i, hi, rfl⟩ := hpoint y hy
      obtain ⟨⟨u, hu, hui⟩, -⟩ := ih hps fun ix => f (i :: ix)
      exact ⟨u, hmem i hi u hu, hui.trans hle⟩
    · obtain ⟨i, hi, rfl⟩ := hpoint z hz
      obtain ⟨-, u, hu, hiu⟩ := ih hps fun ix => f (i :: ix)
      exact ⟨u, hmem i hi u hu, hge.trans hiu⟩

end Cell

/-! ## Weights -/

namespace Weights

/-- **The weights of an average** over the corners of a cell on `n` axes. -/
structure IsConvex (n : Nat) (row : List K) : Prop where
  length : row.length = 2 ^ n
  parts : ∀ w ∈ row, 0 ≤ w ∧ w ≤ 1
  sum : row.sum = 1

variable [IsStrictOrderedRing K] [FloorRing K] [Elementary K]

/-- The weight of a corner is a part of one. -/
theorem cornerWeight_mem {ps : List (Position K)} (h : ∀ p ∈ ps, p.Inside) (bits : List Nat) :
    0 ≤ cornerWeight ps bits ∧ cornerWeight ps bits ≤ 1 := by
  rw [cornerWeight, product_eq_prod]
  induction ps generalizing bits with
  | nil => exact ⟨zero_le_one, le_rfl⟩
  | cons p ps ih =>
    cases bits with
    | nil => exact ⟨zero_le_one, le_rfl⟩
    | cons bit bits =>
      obtain ⟨hp, hps⟩ := List.forall_mem_cons.1 h
      obtain ⟨hfirst0, hfirst1⟩ := hp.factor_mem bit
      obtain ⟨hlater0, hlater1⟩ := ih hps bits
      rw [List.zipWith_cons_cons, List.prod_cons]
      exact ⟨mul_nonneg hfirst0 hlater0, mul_le_one₀ hfirst1 hlater0 hlater1⟩

/-- **The weights of a cell** are those of an average. -/
theorem isConvex_cornerRow {ps : List (Position K)} (h : ∀ p ∈ ps, p.Inside) :
    IsConvex ps.length (cornerRow ps) where
  length := by rw [cornerRow, List.length_map, Corner.length_offsets, Corner.count_eq]
  parts w hw := by
    obtain ⟨bits, -, rfl⟩ := List.mem_map.1 hw
    exact cornerWeight_mem h bits
  sum := sum_cornerRow fun p hp => (h p hp).whole

end Weights

/-! ## Sampling -/

section Containers
variable {α : Type} [Scalar α] {out : Option (Container α)} {values : NdArray α}

omit [Scalar α] in
/-- A container keeps values of its own shape as they are, if it is one for numbers in double
precision. -/
def Container.Keeps (c : Container α) (shape : List Nat) : Prop :=
  c.contents.shape = shape ∧ c.element = .double

theorem Sample.deliver_of_keeps (h : ∀ c ∈ out, c.Keeps values.shape) :
    deliver out values = .ok values := by
  cases out with
  | none => rfl
  | some c =>
    obtain ⟨hshape, helement⟩ := h c rfl
    refine (Container.contentsAfter_eq_ok_iff ..).2 ⟨hshape, ?_, ?_⟩
    · rw [helement]
      rfl
    · rw [helement, Container.rounded_double]

end Containers

namespace NdArray

omit [LinearOrder K] in
/-- What is read at the corners of a cell whose brackets are among the points. -/
theorem mapM_read_corners {field : NdArray K} {ps : List (Position K)}
    (h : List.Forall₂ Sample.Among field.shape ps) :
    (Cell.corners ps).mapM field.read = .ok ((Cell.corners ps).map field.entry) := by
  rw [Outcome.mapM_eq_ok_iff, List.forall₂_map_right_iff, List.forall₂_same]
  intro ix hix
  rw [Cell.corners, ← List.length_map (f := Position.idx)] at hix
  exact field.read_eq_entry (Sample.inside_of_mem_corners (List.forall₂_map_right_iff.2 h) ix hix)

/-- Where one field is nowhere greater than another, its entries are not. -/
theorem entry_le_entry {f g : NdArray K} (hshape : f.shape = g.shape)
    (h : ∀ ix x y, f.get? ix = some x → g.get? ix = some y → x ≤ y) (ix : List Int) :
    f.entry ix ≤ g.entry ix := by
  have hsome : (f.get? (ix.map Int.toNat)).isSome = (g.get? (ix.map Int.toNat)).isSome := by
    rw [Bool.eq_iff_iff, get?_isSome_iff, get?_isSome_iff, hshape]
  rw [entry, entry]
  cases hf : f.get? (ix.map Int.toNat) with
  | none =>
    rw [hf, Option.isSome_none, eq_comm, Option.isSome_eq_false_iff, Option.isNone_iff_eq_none] at hsome
    rw [hsome]
  | some x =>
    rw [hf, Option.isSome_some, eq_comm, Option.isSome_iff_exists] at hsome
    obtain ⟨y, hy⟩ := hsome
    rw [hy]
    exact h _ x y hf hy

end NdArray

namespace Sample

/-- **Sampling averages** a field of a shape, with the weights `w`, in the cells of the positions
`pss`. -/
structure Averages (shape : List Nat) (pss : List (List (Position K))) (w : NdArray K)
    (sample : NdArray K → Except (Fault K) (NdArray K)) : Prop where
  /-- There is a row of weights for each cell. -/
  rows : w.rows.length = pss.length ∧ ∀ row ∈ w.rows, Weights.IsConvex shape.length row
  /-- There is a value for each cell, and it lies between what the field has at the corners. -/
  between : ∀ field, field.shape = shape → ∃ values, sample field = .ok values ∧
    List.Forall₂ (fun ps v => ∃ ys, (Cell.corners ps).mapM field.read = .ok ys ∧ Between ys v)
      pss values.toList
  /-- A field that is nowhere less has values that are nowhere less. -/
  monotone : ∀ f g, f.shape = shape → g.shape = shape →
    (∀ ix x y, f.get? ix = some x → g.get? ix = some y → x ≤ y) →
    ∀ a b, sample f = .ok a → sample g = .ok b → List.Forall₂ (· ≤ ·) a.toList b.toList

variable [IsStrictOrderedRing K] [FloorRing K] [Elementary K]
variable {shape : List Nat} {pss : List (List (Position K))} {w : NdArray K}
  {sample : NdArray K → Except (Fault K) (NdArray K)}

/-- The values in cells of positions inside their brackets are averages. -/
theorem averages_of_values (hinside : ∀ ps ∈ pss, ∀ p ∈ ps, p.Inside)
    (hamong : ∀ ps ∈ pss, List.Forall₂ Among shape ps) (hrows : w.rows = pss.map Weights.cornerRow)
    (hsample : ∀ field, field.shape = shape → ∃ values, sample field = .ok values ∧
      values.toList = pss.map fun ps => Cell.value ps field.entry) :
    Averages shape pss w sample where
  rows := by
    rw [hrows, List.length_map]
    refine ⟨rfl, fun row hrow => ?_⟩
    obtain ⟨ps, hps, rfl⟩ := List.mem_map.1 hrow
    rw [(hamong ps hps).length_eq]
    exact Weights.isConvex_cornerRow (hinside ps hps)
  between field hfield := by
    obtain ⟨values, hvalues, hlist⟩ := hsample field hfield
    refine ⟨values, hvalues, ?_⟩
    rw [hlist, List.forall₂_map_right_iff, List.forall₂_same]
    intro ps hps
    exact ⟨_, NdArray.mapM_read_corners (hfield ▸ hamong ps hps),
      Cell.between_value (hinside ps hps) field.entry⟩
  monotone f g hf hg hfg a b ha hb := by
    obtain ⟨a', ha', hlist⟩ := hsample f hf
    obtain ⟨b', hb', hlist'⟩ := hsample g hg
    rw [ha] at ha'
    rw [hb] at hb'
    cases ha'
    cases hb'
    rw [hlist, hlist', List.forall₂_map_left_iff, List.forall₂_map_right_iff, List.forall₂_same]
    intro ps hps
    exact Cell.value_le_value (hinside ps hps) fun ix _ =>
      NdArray.entry_le_entry (hf.trans hg.symm) hfg ix

omit [IsStrictOrderedRing K] [FloorRing K] [Elementary K] in
/-- What samples the same fields in the same way averages them, too. -/
theorem Averages.congr (h : Averages shape pss w sample)
    {sample' : NdArray K → Except (Fault K) (NdArray K)}
    (heq : ∀ field, field.shape = shape → sample' field = sample field) :
    Averages shape pss w sample' where
  rows := h.rows
  between field hfield := by
    rw [heq field hfield]
    exact h.between field hfield
  monotone f g hf hg := by
    rw [heq f hf, heq g hg]
    exact h.monotone f g hf hg

/-! ### The three protocols -/

omit [LinearOrder K] [IsStrictOrderedRing K] [FloorRing K] [Elementary K] in
theorem among_of_sound {ps : List (Position K)} (h : List.Forall₂ Sound shape ps) :
    List.Forall₂ Among shape ps :=
  h.imp fun _ _ hp => hp.1

variable {s : Sampler K} (hs : s.Exact) {check : SumCheck K} (hcheck : 0 < check.tolerance)
include hs hcheck

/-- One position per axis is sampled as an average. -/
theorem averages_red {ps : List (Position K)} (hne : ps ≠ []) (hsound : List.Forall₂ Sound shape ps)
    (hinside : ∀ p ∈ ps, p.Inside) (hw : Weights.red ps none = .ok w) :
    Averages shape [ps] w fun field => Sample.sample s w field (ps.map .one) none check := by
  refine averages_of_values (List.forall_mem_singleton.2 hinside)
    (List.forall_mem_singleton.2 (among_of_sound hsound)) ?_ ?_
  · obtain ⟨p, qs, rfl⟩ := List.exists_cons_of_ne_nil hne
    rw [Weights.red_none p qs] at hw
    cases hw
    rw [NdArray.rows_vector, Weights.redRow_eq_cornerRow, List.map_singleton]
  · rintro field rfl
    obtain ⟨w', hw', hsample⟩ := sample_red hs hcheck hne hsound
    rw [hw] at hw'
    cases hw'
    exact ⟨_, hsample, rfl⟩

variable {cs : List (Column K)} (hne : cs ≠ []) (hsound : SoundColumns shape cs)
  (hinside : ∀ c ∈ cs, ∀ p ∈ c.toList, p.Inside) {out : Option (Container K)}
include hne hsound hinside

/-- A sequence of positions is sampled in averages. -/
theorem averages_blue {n : Nat} (hlen : ∀ c ∈ cs, c.length = n) (hw : Weights.blue cs none = .ok w)
    (hout : ∀ c ∈ out, c.Keeps [n]) :
    Averages shape (Weights.sideBySide (cs.map Column.toList)) w fun field =>
      Sample.sample s w field (cs.map .many) out check := by
  have hmem : ∀ ps ∈ Weights.sideBySide (cs.map Column.toList),
      List.Forall₂ (· ∈ ·) ps (cs.map Column.toList) := fun ps hps =>
    Weights.mem_sideBySide (by simpa using hne) hps
  refine averages_of_values (fun ps hps => ?_) (fun ps hps => ?_) ?_ ?_
  · exact Choices.forall_mem_of_mem (hmem ps hps) (List.forall_mem_map.2 hinside)
  · exact among_of_sound (sound_of_mem hsound (hmem ps hps))
  · obtain ⟨w', hw', -, hrows⟩ := Weights.exists_of_sequence hne hlen
    rw [hw] at hw'
    cases hw'
    exact hrows
  · rintro field rfl
    obtain ⟨w', hw', hsample⟩ := sample_blue hs hcheck hne hlen hsound
    rw [hw] at hw'
    cases hw'
    have hlength : (Weights.sideBySide (cs.map Column.toList)).length = n := by
      refine Weights.length_sideBySide (by simpa using hne) (List.forall_mem_map.2 fun c hc => ?_)
      rw [Column.length_toList, hlen c hc]
    refine ⟨_, ?_, NdArray.toList_vector _⟩
    rw [sample_many_out, hsample, Outcome.ok_bind, deliver_of_keeps]
    rwa [NdArray.shape_vector, List.length_map, hlength]

/-- A grid of positions is sampled in averages. -/
theorem averages_green (hw : Weights.green cs none = .ok w)
    (hout : ∀ c ∈ out, c.Keeps (cs.map Column.length)) :
    Averages shape (mesh (cs.map Column.toList)) w fun field =>
      Sample.sample s w field (cs.map .many) out check := by
  refine averages_of_values (fun ps hps => ?_) (fun ps hps => ?_) ?_ ?_
  · exact Choices.forall_mem_of_mem (mem_mesh.1 hps) (List.forall_mem_map.2 hinside)
  · exact among_of_sound (sound_of_mem hsound (mem_mesh.1 hps))
  · obtain ⟨w', hw', -, hrows⟩ := Weights.exists_of_grid hne
    rw [hw] at hw'
    cases hw'
    exact hrows
  · rintro field rfl
    obtain ⟨w', a, hw', hsample, hshape, hvalues⟩ := sample_green hs hcheck hne hsound
    rw [hw] at hw'
    cases hw'
    refine ⟨a, ?_, hvalues⟩
    rw [sample_many_out, hsample, Outcome.ok_bind, deliver_of_keeps]
    rwa [hshape]

end Sample
end Regrid
