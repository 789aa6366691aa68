import Regrid.Proofs.Grid.Admission

/-!
# Units

Grid and queries may be given in other units, with another origin and another sign
(`rescale`).  If the sign changes the grid follows the opposite direction, and what came before
comes before in this direction (`Direction.before_rescale`); so a bracket holds a query as it did,
the nearest brackets are the same, and the fractions are (`Locate.NearestPath.rescale`).  Both limits
and the estimate of the bracket to start from go along (`Locate.startFor_rescale`), and a location ends
as it did, on grid points as well as between them (`Backend.locate_rescale`).

For pressures a change of units is a shift of all logarithms (`Locate.placePressure_scale`).
-/
namespace Regrid

variable {K : Type} [Field K]

/-- **A value in other units**, counted from another origin. -/
def rescale (a b x : K) : K := a * x + b

/-- Differences lose the origin. -/
theorem rescale_sub_rescale (a b x y : K) : rescale a b x - rescale a b y = a * (x - y) := by
  rw [rescale, rescale]
  ring

/-- Quotients of differences lose the units. -/
theorem rescale_div_rescale {a : K} (ha : a ≠ 0) (b x y z : K) :
    (rescale a b x - rescale a b y) / (rescale a b z - rescale a b y) = (x - y) / (z - y) := by
  rw [rescale_sub_rescale, rescale_sub_rescale, mul_div_mul_left _ _ ha]

variable [LinearOrder K]

/-- The direction in other units: the opposite one if the sign changes. -/
def Direction.rescaled (a : K) (d : Direction) : Direction := if 0 < a then d else d.opposite

/-- The sign changes back. -/
theorem Direction.rescaled_rescaled (a : K) (d : Direction) : (d.rescaled a).rescaled a = d := by
  by_cases hpos : 0 < a
  · rw [rescaled, rescaled, if_pos hpos, if_pos hpos]
  · rw [rescaled, rescaled, if_neg hpos, if_neg hpos]
    cases d <;> rfl

variable [IsStrictOrderedRing K] {a : K}

/-- **What comes before** comes before in the direction in other units. -/
theorem Direction.before_rescale (ha : a ≠ 0) (b : K) (d : Direction) (x y : K) :
    (d.rescaled a).Before (rescale a b x) (rescale a b y) ↔ d.Before x y := by
  rcases ha.lt_or_gt with hneg | hpos
  · have hlt : ∀ x y : K, rescale a b y < rescale a b x ↔ x < y := fun x y => by
      rw [rescale, rescale, add_lt_add_iff_right, mul_lt_mul_left_of_neg hneg]
    rw [rescaled, if_neg hneg.not_gt, opposite_before]
    cases d with
    | ascending => exact hlt x y
    | descending => exact hlt y x
  · have hlt : ∀ x y : K, rescale a b x < rescale a b y ↔ x < y := fun x y => by
      rw [rescale, rescale, add_lt_add_iff_right, mul_lt_mul_iff_right₀ hpos]
    rw [rescaled, if_pos hpos]
    cases d with
    | ascending => exact hlt x y
    | descending => exact hlt y x

/-! ## Grids -/

namespace Grid

variable {d : Direction} {grid : List K} {x extpolfac : K} {i j : Int}

theorem ordered_rescale (ha : a ≠ 0) (b : K) (d : Direction) (grid : List K) :
    Ordered (d.rescaled a) (grid.map (rescale a b)) ↔ Ordered d grid := by
  rw [Ordered, Ordered, List.pairwise_map]
  simp only [Direction.before_rescale ha]

/-- A bracket holds a query as it did. -/
theorem holds_rescale (ha : a ≠ 0) (b : K) :
    Holds (d.rescaled a) (grid.map (rescale a b)) j (rescale a b x) ↔ Holds d grid j x := by
  have hpoints : ∀ i : Int, 0 ≤ i → i < grid.length →
      point (grid.map (rescale a b)) i = rescale a b (point grid i) := fun i h0 hi => point_map h0 hi _
  constructor
  · rintro ⟨hnonneg, hlast, hfront, hback⟩
    rw [List.length_map] at hlast hback
    rw [hpoints j hnonneg (by omega), Direction.before_rescale ha] at hfront
    rw [hpoints (j + 1) (by omega) (by omega), Direction.before_rescale ha] at hback
    exact ⟨hnonneg, hlast, hfront, hback⟩
  · rintro ⟨hnonneg, hlast, hfront, hback⟩
    refine ⟨hnonneg, by rwa [List.length_map], ?_, ?_⟩
    · rwa [hpoints j hnonneg (by omega), Direction.before_rescale ha]
    · rwa [List.length_map, hpoints (j + 1) (by omega) (by omega), Direction.before_rescale ha]

/-- **The nearest bracket** is the same. -/
theorem Nearest.rescale (ha : a ≠ 0) (b : K) (h : Nearest d grid x i j) :
    Nearest (d.rescaled a) (grid.map (rescale a b)) (rescale a b x) i j where
  holds := (holds_rescale ha b).2 h.holds
  closer k hk := h.closer k ((holds_rescale ha b).1 hk)

omit [LinearOrder K] [IsStrictOrderedRing K] in
theorem fractionAt_rescale (ha : a ≠ 0) (b : K) (h0 : 0 ≤ j) (hj : j + 2 ≤ grid.length) (x : K) :
    fractionAt (grid.map (rescale a b)) j (rescale a b x) = fractionAt grid j x := by
  rw [fractionAt, point_map h0 (by omega), point_map (by omega) (by omega), rescale_div_rescale ha]
  rfl

/-! ### The envelope -/

omit [LinearOrder K] [IsStrictOrderedRing K] in
theorem firstLimit_rescale (hlen : 2 ≤ grid.length) (a b extpolfac : K) :
    firstLimit (grid.map (rescale a b)) extpolfac = rescale a b (firstLimit grid extpolfac) := by
  rw [firstLimit, point_map le_rfl (by omega), point_map zero_le_one (by omega), rescale_sub_rescale,
    firstLimit, rescale, rescale]
  ring

omit [LinearOrder K] [IsStrictOrderedRing K] in
theorem lastLimit_rescale (hlen : 2 ≤ grid.length) (a b extpolfac : K) :
    lastLimit (grid.map (rescale a b)) extpolfac = rescale a b (lastLimit grid extpolfac) := by
  rw [lastLimit, List.length_map, point_map (by omega) (by omega), point_map (by omega) (by omega),
    rescale_sub_rescale, lastLimit, rescale, rescale]
  ring

theorem inEnvelope_rescale (ha : a ≠ 0) (b : K) (hlen : 2 ≤ grid.length) :
    InEnvelope (d.rescaled a) (grid.map (rescale a b)) extpolfac (rescale a b x) ↔
      InEnvelope d grid extpolfac x := by
  rw [InEnvelope, firstLimit_rescale hlen, lastLimit_rescale hlen, Direction.before_rescale ha,
    Direction.before_rescale ha]
  rfl

end Grid

/-! ## Scans -/

namespace Locate

variable {d : Direction} {grid new : List K} {start : Int} {found : List (Int × K)}

/-- **A path along the nearest brackets** is one in other units. -/
theorem NearestPath.rescale (ha : a ≠ 0) (b : K) (h : NearestPath d grid start new found) :
    NearestPath (d.rescaled a) (grid.map (rescale a b)) start (new.map (rescale a b)) found := by
  induction h with
  | done i => exact .done i
  | @step i j x xs found nearest _ ih =>
    rw [List.map_cons, ← Grid.fractionAt_rescale ha b nearest.holds.nonneg nearest.holds.last]
    exact .step (nearest.rescale ha b) ih

variable [FloorRing K] [Elementary K]

omit [IsStrictOrderedRing K] [Elementary K] in
/-- **The estimate is the same**, a half rounded to the even bracket included. -/
theorem startFor_rescale (ha : a ≠ 0) (b : K) (hlen : 2 ≤ grid.length) (extpolfac : K) (new : List K) :
    startFor (grid.map (rescale a b)) extpolfac (new.map (rescale a b)) =
      startFor grid extpolfac new := by
  cases new with
  | nil => rfl
  | cons x xs =>
    rw [List.map_cons, startFor, startFor, Grid.firstLimit_rescale hlen, Grid.lastLimit_rescale hlen,
      rescale_div_rescale ha, List.length_map]

end Locate

/-! ## Locations -/

variable [FloorRing K] [Elementary K]

namespace Backend

variable {d : Direction} {old new : List K} {extpolfac : K}

/-- A query beyond the envelope is refused as such. -/
theorem refused_of_outside (b : Backend) (hord : Grid.Ordered d old) (hlen : 2 ≤ old.length)
    (he : 0 ≤ extpolfac) (t : TieBreak) (hnew : ¬ ∀ x ∈ new, Grid.InEnvelope d old extpolfac x) :
    Outcome.Refused .outOfRange
      (b.locate (NdArray.vector old) (NdArray.vector new) extpolfac (some t)) := by
  obtain ⟨low, high, hlimits, -, hwithin⟩ := Grid.exists_limits hord hlen extpolfac
  cases hcheck : Grid.checkWithin new low high extpolfac with
  | ok u => exact absurd ((hwithin new).1 hcheck) hnew
  | error f =>
    obtain ⟨cause, rfl⟩ := Grid.outOfRange_of_checkWithin hcheck
    exact ⟨_, (b.locate_failAlike hord hlen he t hlimits new _).2 hcheck, rfl⟩

/-- A grid that is not one is refused as such. -/
theorem refused_of_disordered (b : Backend) (he : 0 ≤ extpolfac) (t : TieBreak)
    (hold : ¬ (2 ≤ old.length ∧ ∃ d, Grid.Ordered d old)) :
    Outcome.Refused .malformedGrid
      (b.locate (NdArray.vector old) (NdArray.vector new) extpolfac (some t)) := by
  have hreference : Outcome.Refused .malformedGrid (Grid.checkReference Grid.linearPoints "" old) := by
    cases hcheck : Grid.checkReference Grid.linearPoints "" old with
    | ok d =>
      obtain ⟨hlen, hord⟩ := Grid.checkReference_linear_iff.1 hcheck
      exact absurd ⟨hlen, d, hord⟩ hold
    | error f =>
      have hkind := Grid.checkReference_failsWithin le_rfl "" old f hcheck
      exact ⟨f, rfl, List.mem_singleton.1 hkind⟩
  rw [locate_eq, Locate.prepare, if_neg (by simpa using he)]
  simp only [Grid.ofArray_vector, Outcome.ok_bind]
  exact (hreference.bind _).bind _

/-- Rows in other units are located alike. -/
theorem locate_rescale_vector (b : Backend) (ha : a ≠ 0) (s : K) (he : 0 ≤ extpolfac) (t : TieBreak)
    (old new : List K) :
    Outcome.EndAlike
      (b.locate (NdArray.vector (old.map (rescale a s))) (NdArray.vector (new.map (rescale a s)))
        extpolfac (some t))
      (b.locate (NdArray.vector old) (NdArray.vector new) extpolfac (some t)) := by
  by_cases hold : 2 ≤ old.length ∧ ∃ d, Grid.Ordered d old
  · obtain ⟨hlen, d, hord⟩ := hold
    have hlen' : 2 ≤ (old.map (rescale a s)).length := by rwa [List.length_map]
    have hord' := (Grid.ordered_rescale ha s d old).2 hord
    have henvelope : (∀ x ∈ new.map (rescale a s),
        Grid.InEnvelope (d.rescaled a) (old.map (rescale a s)) extpolfac x) ↔
          ∀ x ∈ new, Grid.InEnvelope d old extpolfac x := by
      simp only [List.forall_mem_map, Grid.inEnvelope_rescale ha s hlen]
    by_cases hnew : ∀ x ∈ new, Grid.InEnvelope d old extpolfac x
    · obtain ⟨found, hlocate, hpath⟩ := b.exists_found hord hlen he t hnew
      obtain ⟨found', hlocate', hpath'⟩ := b.exists_found hord' hlen' he t (henvelope.2 hnew)
      rw [Locate.startFor_rescale ha s hlen] at hpath'
      rw [hlocate, hlocate', hpath'.unique (hpath.rescale ha s), List.length_map]
      exact .refl _
    · exact (b.refused_of_outside hord' hlen' he t (mt henvelope.1 hnew)).endAlike
        (b.refused_of_outside hord hlen he t hnew)
  · refine (b.refused_of_disordered he t ?_).endAlike (b.refused_of_disordered he t hold)
    rintro ⟨hlen, d, hord⟩
    refine hold ⟨by rwa [List.length_map] at hlen, d.rescaled a, ?_⟩
    rwa [← Grid.ordered_rescale ha s, Direction.rescaled_rescaled]

omit [IsStrictOrderedRing K] in
/-- Arrays are located as the rows of their entries, if they are rows or single numbers. -/
theorem locate_eq_rows (b : Backend) (oldGrid newGrid : NdArray K) (he : 0 ≤ extpolfac) (t : TieBreak) :
    b.locate oldGrid newGrid extpolfac (some t) =
      Grid.ofArray "old_grid" oldGrid >>= fun old => Grid.ofArray "new_grid" newGrid >>= fun new =>
        b.locate (NdArray.vector old) (NdArray.vector new) extpolfac (some t) := by
  have hguard : ¬ (Scalar.lt extpolfac Scalar.zero = true) := by simpa using he
  simp only [locate_eq, Locate.prepare, if_neg hguard, Grid.ofArray_vector, Outcome.ok_bind, bind_assoc]

end Backend

omit [Field K] [LinearOrder K] [IsStrictOrderedRing K] [FloorRing K] [Elementary K] in
theorem Grid.ofArray_map (name : String) (grid : NdArray K) (f : K → K) :
    ofArray name (grid.map f) = (ofArray name grid).map (List.map f) := by
  unfold ofArray
  rw [NdArray.shape_map]
  split
  · exact congrArg Except.ok (NdArray.toList_map f grid)
  · exact congrArg Except.ok (NdArray.toList_map f grid)
  · rfl

/-- **A location in other units ends as it did**: with the same positions, or refused for the same
kind of fault. -/
theorem Backend.locate_rescale (b : Backend) (ha : a ≠ 0) (s : K) (oldGrid newGrid : NdArray K)
    (extpolfac : K) (t : TieBreak) :
    Outcome.EndAlike
      (b.locate (oldGrid.map (rescale a s)) (newGrid.map (rescale a s)) extpolfac (some t))
      (b.locate oldGrid newGrid extpolfac (some t)) := by
  by_cases he : extpolfac < 0
  · have hrefused : ∀ oldGrid newGrid : NdArray K,
        b.locate oldGrid newGrid extpolfac (some t) =
          .error (.invalidArgument .negativeExtrapolation) := by
      intro oldGrid newGrid
      rw [locate_eq, Locate.prepare, if_pos (by simpa using he)]
      rfl
    rw [hrefused, hrefused]
    exact .refl _
  · have he := not_lt.1 he
    rw [b.locate_eq_rows _ _ he, b.locate_eq_rows _ _ he, Grid.ofArray_map, Grid.ofArray_map]
    cases Grid.ofArray "old_grid" oldGrid with
    | error f => exact .refl _
    | ok old =>
      cases Grid.ofArray "new_grid" newGrid with
      | error f => exact .refl _
      | ok new => exact b.locate_rescale_vector ha s he t old new

/-! ## Pressures -/

namespace Locate

/-- A single value in other units has the position that it had. -/
theorem place_rescale (ha : a ≠ 0) (s : K) (oldGrid newGrid : NdArray K) (extpolfac : K)
    (t : TieBreak) :
    Outcome.EndAlike (place (oldGrid.map (rescale a s)) (newGrid.map (rescale a s)) extpolfac (some t))
      (place oldGrid newGrid extpolfac (some t)) := by
  have halike := fun newGrid => Backend.reference.locate_rescale ha s oldGrid newGrid extpolfac t
  unfold place
  by_cases hrank : newGrid.rank = 0
  · rw [if_pos hrank, if_pos (show (newGrid.map (rescale a s)).rank = 0 from hrank)]
    exact (halike (wrapped newGrid)).bind fun _ _ => .refl _
  · rw [if_neg hrank, if_neg (show (newGrid.map (rescale a s)).rank ≠ 0 from hrank)]
    exact (halike newGrid).bind fun _ _ => .refl _

variable {c : K}

theorem isNotPositive_mul (hc : 0 < c) (p : K) : isNotPositive (c * p) = isNotPositive p := by
  rw [isNotPositive, isNotPositive, Exact.le_eq, Exact.le_eq, Exact.zero_eq, decide_eq_decide,
    ← not_lt, ← not_lt, mul_pos_iff_of_pos_left hc]

omit [IsStrictOrderedRing K] in
theorem isNotPositive_eq_false_iff {p : K} : isNotPositive p = false ↔ 0 < p := by
  rw [isNotPositive, Exact.le_eq, Exact.zero_eq, decide_eq_false_iff_not, not_le]

/-- The first pressure that is not positive stays the first. -/
theorem firstWith_isNotPositive_mul (hc : 0 < c) (ps : List K) :
    Grid.firstWith isNotPositive (ps.map fun p => c * p) =
      (Grid.firstWith isNotPositive ps).map fun entry => (c * entry.1, entry.2) := by
  rw [Grid.firstWith, Grid.firstWith, List.zipIdx_map, List.find?_map]
  simp only [Function.comp_def, Prod.map_fst, isNotPositive_mul hc]
  rfl

omit [Field K] [LinearOrder K] [IsStrictOrderedRing K] [FloorRing K] [Elementary K] in
theorem numberAt_asRow_map (pressures : NdArray K) (f : K → K) (place : Nat) :
    (asRow (pressures.map f)).numberAt place = ((asRow pressures).numberAt place).map f := by
  have hrow : asRow (pressures.map f) = (asRow pressures).map f := by
    by_cases hrank : pressures.rank = 0
    · rw [asRow, asRow, if_pos hrank, if_pos (show (pressures.map f).rank = 0 from hrank),
        NdArray.toList_map, NdArray.map_vector]
    · rw [asRow, asRow, if_neg hrank, if_neg (show (pressures.map f).rank ≠ 0 from hrank)]
  rw [hrow, NdArray.numberAt, NdArray.numberAt, NdArray.shape_map]
  split
  · rfl
  · rfl
  · rw [NdArray.map, Array.getElem?_map]
    cases (asRow pressures).data[place]? <;> rfl

/-- Pressures pass as they did. -/
theorem checkPressures_scale (hc : 0 < c) (pressures : NdArray K) :
    Outcome.EndAlike (checkPressures (pressures.map fun p => c * p)) (checkPressures pressures) := by
  unfold checkPressures
  rw [NdArray.toList_map, firstWith_isNotPositive_mul hc]
  cases Grid.firstWith isNotPositive pressures.toList with
  | none => exact .refl _
  | some entry =>
    simp only [Option.map_some, numberAt_asRow_map]
    cases (asRow pressures).numberAt entry.2 with
    | error f => exact .refl _
    | ok value => exact .of_kind_eq rfl

omit [IsStrictOrderedRing K] in
theorem positive_of_checkPressures {pressures : NdArray K} (h : checkPressures pressures = .ok ()) :
    ∀ p ∈ pressures.toList, 0 < p := by
  intro p hp
  unfold checkPressures at h
  split at h
  · obtain ⟨value, -, hvalue⟩ := Outcome.bind_eq_ok_iff.1 h
    cases hvalue
  · next hnone => exact isNotPositive_eq_false_iff.1 (Grid.firstWith_eq_none_iff.1 hnone p hp)

/-- **Pressures in other units** have the positions that they had, if all of their logarithms are
shifted alike. -/
theorem placePressure_scale (hc : 0 < c) {shift : K} {oldGrid newGrid : NdArray K}
    (hlog : ∀ p, p ∈ oldGrid.toList ∨ p ∈ newGrid.toList → 0 < p →
      Elementary.log (c * p) = Elementary.log p + shift) (extpolfac : K) (t : TieBreak) :
    Outcome.EndAlike
      (placePressure (oldGrid.map fun p => c * p) (newGrid.map fun p => c * p) extpolfac (some t))
      (placePressure oldGrid newGrid extpolfac (some t)) := by
  have hshift : ∀ ps : List K, (∀ p ∈ ps, p ∈ oldGrid.toList ∨ p ∈ newGrid.toList) →
      (∀ p ∈ ps, 0 < p) → (ps.map fun p => c * p).map Scalar.log =
        (ps.map Scalar.log).map (rescale 1 shift) := by
    intro ps hmem hpositive
    rw [List.map_map, List.map_map]
    refine List.map_congr_left fun p hp => ?_
    rw [Function.comp_apply, Function.comp_apply, Exact.log_eq, Exact.log_eq, rescale, one_mul]
    exact hlog p (hmem p hp) (hpositive p hp)
  unfold placePressure
  rw [Grid.ofArray_map]
  cases hold : Grid.ofArray "old_pgrid" oldGrid with
  | error f => exact .refl _
  | ok old =>
    obtain ⟨-, rfl⟩ := Grid.ofArray_eq_ok_iff.1 hold
    have hany : (oldGrid.toList.map fun p => c * p).any isNotPositive =
        oldGrid.toList.any isNotPositive := by
      rw [List.any_map]
      exact congrArg _ (funext (isNotPositive_mul hc))
    simp only [Except.map, Outcome.ok_bind, hany]
    by_cases hbad : oldGrid.toList.any isNotPositive = true
    · rw [if_pos hbad, if_pos hbad]
      exact .refl _
    · rw [if_neg hbad, if_neg hbad]
      have hpositive : ∀ p ∈ oldGrid.toList, 0 < p := by
        rw [Bool.not_eq_true, List.any_eq_false] at hbad
        exact fun p hp => isNotPositive_eq_false_iff.1 (Bool.eq_false_iff.2 (hbad p hp))
      have hchecks := checkPressures_scale hc newGrid
      refine hchecks.bind fun _ hcheck => ?_
      have hnew := positive_of_checkPressures (hchecks.eq_ok_iff.1 hcheck)
      have hqueries : (newGrid.map fun p => c * p).map Scalar.log =
          (newGrid.map Scalar.log).map (rescale 1 shift) := by
        refine NdArray.ext_toList rfl ?_
        rw [NdArray.toList_map, NdArray.toList_map, NdArray.toList_map, NdArray.toList_map]
        exact hshift _ (fun p hp => .inr hp) hnew
      rw [hshift _ (fun p hp => .inl hp) hpositive, ← NdArray.map_vector, hqueries]
      exact place_rescale one_ne_zero shift _ _ extpolfac t

/-- **Units do not matter.**  In other units, with another origin and a factor of either sign, a grid
is in order as it was, or in the opposite order if the factor is negative, and values are located at
the same positions, many of them by every backend or a single one, under every tie-break, or refused
for the same kind of fault.  The same is true of pressures that are multiplied by a positive factor,
if this shifts the logarithms of all of them alike. -/
theorem units_do_not_matter :
    (∀ a b : K, a ≠ 0 →
      (∀ (d : Direction) (grid : List K),
        Grid.Ordered (d.rescaled a) (grid.map (rescale a b)) ↔ Grid.Ordered d grid) ∧
      ∀ (oldGrid newGrid : NdArray K) (extpolfac : K) (t : TieBreak),
        (∀ backend : Backend, Outcome.EndAlike
          (backend.locate (oldGrid.map (rescale a b)) (newGrid.map (rescale a b)) extpolfac (some t))
          (backend.locate oldGrid newGrid extpolfac (some t))) ∧
        Outcome.EndAlike
          (place (oldGrid.map (rescale a b)) (newGrid.map (rescale a b)) extpolfac (some t))
          (place oldGrid newGrid extpolfac (some t))) ∧
    ∀ c shift : K, 0 < c → ∀ oldGrid newGrid : NdArray K,
      (∀ p, p ∈ oldGrid.toList ∨ p ∈ newGrid.toList → 0 < p →
        Elementary.log (c * p) = Elementary.log p + shift) →
      ∀ (extpolfac : K) (t : TieBreak), Outcome.EndAlike
        (placePressure (oldGrid.map fun p => c * p) (newGrid.map fun p => c * p) extpolfac (some t))
        (placePressure oldGrid newGrid extpolfac (some t)) := by
  refine ⟨fun a b ha => ⟨Grid.ordered_rescale ha b, ?_⟩, ?_⟩
  · intro oldGrid newGrid extpolfac t
    constructor
    · exact fun backend => backend.locate_rescale ha b oldGrid newGrid extpolfac t
    · exact place_rescale ha b oldGrid newGrid extpolfac t
  · intro c shift hc oldGrid newGrid hlog extpolfac t
    exact placePressure_scale hc hlog extpolfac t

/-- A descending grid that is turned over, with queries on two of its points; and pressures in pascal
instead of hectopascal. -/
theorem units_do_not_matter_turned_over :
    (∃ c, Backend.compiled.locate ((NdArray.vector [3, 1, 0, -2]).map (rescale (-2) 1))
        ((NdArray.vector [0, 4, 1]).map (rescale (-2) 1)) (1 / 2 : ℚ) (some .keep) = .ok c ∧
      Backend.compiled.locate (NdArray.vector [3, 1, 0, -2]) (NdArray.vector [0, 4, 1]) (1 / 2 : ℚ)
        (some .keep) = .ok c) ∧
    Outcome.EndAlike
      (placePressure ((NdArray.vector [1000, 500]).map fun p => 100 * p)
        ((NdArray.scalar 850).map fun p => 100 * p) (1 / 2 : ℝ) (some .keep))
      (placePressure (NdArray.vector [1000, 500]) (NdArray.scalar 850) (1 / 2 : ℝ) (some .keep)) := by
  constructor
  · obtain ⟨-, hlocate⟩ := (units_do_not_matter (K := ℚ)).1 (-2) 1 (by decide +kernel)
    obtain ⟨halike, -⟩ := hlocate (NdArray.vector [3, 1, 0, -2]) (NdArray.vector [0, 4, 1]) (1 / 2) .keep
    obtain ⟨c, hc⟩ := Outcome.exists_of_isOk (x := Backend.compiled.locate (NdArray.vector [3, 1, 0, -2])
      (NdArray.vector [0, 4, 1]) (1 / 2 : ℚ) (some .keep)) (by decide +kernel)
    exact ⟨c, (halike .compiled).eq_ok_iff.2 hc, hc⟩
  · refine (units_do_not_matter (K := ℝ)).2 100 (Real.log 100) (by norm_num) _ _ ?_ (1 / 2) .keep
    intro p _ hp
    show Real.log (100 * p) = Real.log p + Real.log 100
    rw [Real.log_mul (by norm_num) hp.ne', add_comm]

end Locate
end Regrid
