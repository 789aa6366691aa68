import Regrid.Proofs.Extended
import Regrid.Proofs.Kinds
import Regrid.Proofs.Locate.Mirror

/-!
# Grids and queries with infinities

A grid may hold infinities, or entries that are no numbers, and so may the queries.  A grid is a
reference grid exactly if its entries are finite and strictly increasing, or finite and strictly
decreasing, and at least two (`Grid.IsReference`, `Extended.exists_checkReference_iff`); all else is
refused as malformed (`Grid.checkReference_failsWithin`).  The limits of such a grid are finite, in
either direction those of the grid read upward (`Grid.range`, `Extended.limits_of_reference`), and a
query is between them exactly if it is a number in the range (`Extended.isOutside_eq_false_iff`).
-/
namespace Regrid

/-! ## Reference grids and their range -/

namespace Grid

variable {K : Type} [Field K] [LinearOrder K]

/-- **A reference grid and its points**: two numbers at least, strictly increasing or strictly
decreasing. -/
structure IsReference (grid : List (Extended K)) (points : List K) : Prop where
  finite : grid = points.map .finite
  two : 2 ≤ points.length
  sorted : points.Pairwise (· < ·) ∨ points.Pairwise (· > ·)

/-- The points from the least one on. -/
def upward (points : List K) : List K :=
  if Ordered .ascending points then points else points.reverse

/-- **The range of the queries**: from the least point, less `extpolfac` times the spacing there, to
the greatest point and `extpolfac` times the spacing there. -/
def range (points : List K) (extpolfac : K) : Set K :=
  Set.Icc (firstLimit (upward points) extpolfac) (lastLimit (upward points) extpolfac)

variable {points : List K}

omit [Field K] in
theorem upward_of_ascending (h : Ordered .ascending points) : upward points = points := if_pos h

omit [Field K] in
theorem upward_of_descending (h : Ordered .descending points) (hlen : 2 ≤ points.length) :
    upward points = points.reverse := by
  refine if_neg fun hup => ?_
  match points with
  | [] => simp at hlen
  | [x] => simp at hlen
  | x :: y :: rest =>
    have hxy : x < y := (List.pairwise_cons.1 hup).1 y (List.mem_cons_self ..)
    have hyx : y < x := (List.pairwise_cons.1 h).1 y (List.mem_cons_self ..)
    exact lt_asymm hxy hyx

omit [Field K] in
theorem length_upward (points : List K) : (upward points).length = points.length := by
  unfold upward
  split
  · rfl
  · exact List.length_reverse

namespace IsReference

variable {grid : List (Extended K)} (h : IsReference grid points)
include h

omit [Field K] in
theorem length_eq : grid.length = points.length := by
  rw [h.finite, List.length_map]

omit [Field K] in
/-- A grid has one list of points. -/
theorem unique {points' : List K} (h' : IsReference grid points') : points = points' :=
  List.map_injective_iff.2 Extended.finite_injective (h.finite.symm.trans h'.finite)

omit [Field K] in
theorem exists_ordered : ∃ d, Ordered d points := by
  rcases h.sorted with hup | hdown
  · exact ⟨.ascending, hup⟩
  · exact ⟨.descending, hdown⟩

omit [Field K] in
theorem ordered_upward : Ordered .ascending (upward points) := by
  rcases h.sorted with hup | hdown
  · rw [upward_of_ascending hup]
    exact hup
  · rw [upward_of_descending hdown h.two]
    exact Ordered.reverse (d := .descending) hdown

/-- Ranges are not empty. -/
theorem firstLimit_lt_lastLimit [IsStrictOrderedRing K] {extpolfac : K} (he : 0 ≤ extpolfac) :
    firstLimit (upward points) extpolfac < lastLimit (upward points) extpolfac :=
  firstLimit_before_lastLimit h.ordered_upward (by rw [length_upward]; exact h.two) he

end IsReference

section Checks
variable {α : Type} [Scalar α]

/-- A grid with too few points is malformed. -/
theorem checkReference_of_lt {least : Int} {grid : List α} (h : (grid.length : Int) < least)
    (which : String) : checkReference least which grid =
      .error (.malformedGrid (purpose which) (.tooShort least grid.length)) := if_pos h

/-- How many points are needed does not matter where there are enough. -/
theorem checkReference_congr {least least' : Int} {grid : List α} (h : least ≤ grid.length)
    (h' : least' ≤ grid.length) (which : String) :
    checkReference least which grid = checkReference least' which grid := by
  unfold checkReference
  rw [if_neg (not_lt.2 h), if_neg (not_lt.2 h')]

/-- **A grid is refused as malformed**, if it is. -/
theorem checkReference_failsWithin {least : Int} (hleast : 2 ≤ least)
    (which : String) (grid : List α) :
    Outcome.FailsWithin [.malformedGrid] (checkReference least which grid) := by
  have hmalformed : ∀ {β : Type} (which : Option String) (cause : GridFault α),
      Outcome.FailsWithin [.malformedGrid] (.error (.malformedGrid which cause) :
        Except (Fault α) β) := fun _ _ => .of_error (List.mem_cons_self ..)
  unfold checkReference
  split
  · exact hmalformed _ _
  · next hlen =>
    refine .ite (fun _ => hmalformed _ _) fun _ => ?_
    match grid with
    | [] => exact absurd hleast (by simp at hlen; omega)
    | [x] => exact absurd hleast (by simpa using hlen)
    | x :: y :: rest => exact .ite (fun _ => .of_ok _) fun _ => hmalformed _ _

end Checks

end Grid

/-! ## Finite grids -/

namespace Extended

variable {K : Type} [Field K] [LinearOrder K] [FloorRing K] [Elementary K]

theorem diffs_map_finite (xs : List K) :
    Scalar.diffs (xs.map finite) = (Scalar.diffs xs).map finite := by
  rw [Scalar.diffs, Scalar.diffs, ← List.map_tail, List.zipWith_map, List.map_zipWith]
  simp only [finite_sub]

theorem follows_map_finite (d : Direction) (points : List K) :
    Grid.follows d (points.map finite) = Grid.follows d points := by
  cases d with
  | ascending =>
    simp only [Grid.follows, Grid.isIncreasing, diffs_map_finite, List.all_map, zero_eq,
      Function.comp_def, lt_finite, Exact.zero_eq, Exact.lt_eq]
  | descending =>
    simp only [Grid.follows, Grid.isDecreasing, diffs_map_finite, List.all_map, zero_eq,
      Function.comp_def, lt_finite, Exact.zero_eq, Exact.lt_eq]

/-- A finite grid passes as the grid of its points does. -/
theorem checkReference_map_finite {least : Int} {which : String} {d : Direction} {points : List K} :
    Grid.checkReference least which (points.map finite) = .ok d ↔
      Grid.checkReference least which points = .ok d := by
  have hfinite : (points.map finite).all Scalar.isFinite = true := by
    rw [List.all_map, List.all_eq_true]
    exact fun _ _ => rfl
  unfold Grid.checkReference
  rw [List.length_map, if_neg (not_not.2 hfinite), if_neg (c := ¬ points.all _ = true) (by simp)]
  split
  · exact ⟨nofun, nofun⟩
  · match points with
    | [] => exact ⟨nofun, nofun⟩
    | [x] => exact ⟨nofun, nofun⟩
    | x :: y :: rest =>
      have hfollows : ∀ told, Grid.follows told (finite x :: finite y :: rest.map finite) =
          Grid.follows told (x :: y :: rest) := fun told => follows_map_finite told (x :: y :: rest)
      simp only [List.map_cons, le_finite, Exact.le_eq, hfollows]
      generalize (if decide (x ≤ y) = true then Direction.ascending else .descending) = told
      by_cases htold : Grid.follows told (x :: y :: rest) = true
      · rw [if_pos htold, if_pos htold, Except.ok.injEq, Except.ok.injEq]
      · rw [if_neg htold, if_neg htold]
        exact ⟨nofun, nofun⟩

variable {grid : List (Extended K)}

/-- **A grid passes exactly if it is a reference grid** with enough points. -/
theorem exists_checkReference_iff [IsStrictOrderedRing K] (least : Int) (which : String) :
    (∃ d, Grid.checkReference least which grid = .ok d) ↔
      ∃ points : List K, Grid.IsReference grid points ∧ least ≤ points.length := by
  constructor
  · rintro ⟨d, hd⟩
    obtain ⟨points, rfl⟩ := exists_map_finite (isFinite_of_checkReference hd)
    obtain ⟨hlen, htwo, hord⟩ := Grid.checkReference_eq_ok_iff.1 (checkReference_map_finite.1 hd)
    refine ⟨points, ⟨rfl, htwo, ?_⟩, hlen⟩
    cases d with
    | ascending => exact .inl hord
    | descending => exact .inr hord
  · rintro ⟨points, h, hlen⟩
    obtain ⟨d, hord⟩ := h.exists_ordered
    refine ⟨d, ?_⟩
    rw [h.finite, checkReference_map_finite]
    exact Grid.checkReference_eq_ok_iff.2 ⟨hlen, h.two, hord⟩

/-- What is no reference grid is malformed. -/
theorem checkReference_malformed [IsStrictOrderedRing K]
    (hgrid : ¬ ∃ points, Grid.IsReference grid points) {least : Int} (hleast : 2 ≤ least)
    (which : String) : Outcome.Refused .malformedGrid (Grid.checkReference least which grid) := by
  cases hreference : Grid.checkReference least which grid with
  | ok d =>
    obtain ⟨points, h, -⟩ := (exists_checkReference_iff least which).1 ⟨d, hreference⟩
    exact absurd ⟨points, h⟩ hgrid
  | error f =>
    exact ⟨f, rfl, List.mem_singleton.1 (Grid.checkReference_failsWithin hleast which grid f
      hreference)⟩

/-! ## Limits and queries -/

theorem limits_map_finite {points : List K} {extpolfac low high : K}
    (h : Grid.limits points extpolfac = .ok (low, high)) :
    Grid.limits (points.map finite) (finite extpolfac) = .ok (finite low, finite high) := by
  unfold Grid.limits at h ⊢
  rw [← List.map_reverse]
  split at h
  · next x₀ x₁ _ z₀ z₁ _ hrev =>
    rw [hrev]
    simp only [List.map_cons, le_finite, finite_sub, finite_mul, finite_add]
    rw [Exact.le_eq] at h
    split at h
    · next hle =>
      cases h
      rw [if_pos hle]
    · next hle =>
      cases h
      rw [if_neg hle]
  · cases h

/-- **The limits of a reference grid** are the ends of its range. -/
theorem limits_of_reference {points : List K} (h : Grid.IsReference grid points) (extpolfac : K) :
    Grid.limits grid (finite extpolfac) =
      .ok (finite (Grid.firstLimit (Grid.upward points) extpolfac),
        finite (Grid.lastLimit (Grid.upward points) extpolfac)) := by
  rw [h.finite]
  refine limits_map_finite ?_
  rcases h.sorted with hup | hdown
  · rw [Grid.upward_of_ascending hup, Grid.limits_of_ordered (d := .ascending) hup h.two]
  · rw [Grid.upward_of_descending hdown h.two, Grid.firstLimit_reverse h.two,
      Grid.lastLimit_reverse h.two, Grid.limits_of_ordered (d := .descending) hdown h.two]

/-- A number of a set: neither infinite nor no number at all. -/
def IsIn (numbers : Set K) (x : Extended K) : Prop := ∃ q ∈ numbers, x = finite q

/-- **Between finite limits** are the numbers between them, and nothing else. -/
theorem isOutside_eq_false_iff {low high : K} {x : Extended K} :
    Grid.isOutside (finite low) (finite high) x = false ↔ IsIn (Set.Icc low high) x := by
  constructor
  · intro h
    obtain ⟨q, rfl⟩ := isFinite_iff.1 (isFinite_of_inside rfl rfl h)
    refine ⟨q, ?_, rfl⟩
    simpa [Grid.isOutside, Scalar.isNaN, lt_finite] using h
  · rintro ⟨q, ⟨hlow, hhigh⟩, rfl⟩
    simp [Grid.isOutside, Scalar.isNaN, lt_finite, hlow, hhigh]

/-- Queries between finite limits pass. -/
theorem checkWithin_eq_ok {low high : K} {new : List (Extended K)}
    (h : ∀ x ∈ new, IsIn (Set.Icc low high) x) (extpolfac : Extended K) :
    Grid.checkWithin new (finite low) (finite high) extpolfac = .ok () := by
  have hnone : Grid.firstWith (Grid.isOutside (finite low) (finite high)) new = none :=
    Grid.firstWith_eq_none_iff.2 fun x hx => isOutside_eq_false_iff.2 (h x hx)
  rw [Grid.checkWithin, hnone]

/-- The first query that is not between the limits is named. -/
theorem checkWithin_eq_error {low high : K} {new : List (Extended K)}
    (h : ¬ ∀ x ∈ new, IsIn (Set.Icc low high) x) (extpolfac : Extended K) :
    ∃ value position, new[position]? = some value ∧ ¬ IsIn (Set.Icc low high) value ∧
      (∀ x ∈ new.take position, IsIn (Set.Icc low high) x) ∧
      Grid.checkWithin new (finite low) (finite high) extpolfac =
        .error (.outOfRange (.outsideEnvelope value position (finite low) (finite high)
          extpolfac)) := by
  cases hfirst : Grid.firstWith (Grid.isOutside (finite low) (finite high)) new with
  | none =>
    exact absurd (fun x hx => isOutside_eq_false_iff.1 (Grid.firstWith_eq_none_iff.1 hfirst x hx)) h
  | some entry =>
    obtain ⟨value, position⟩ := entry
    obtain ⟨hvalue, hout, hbefore⟩ := Grid.getElem?_of_firstWith_eq_some hfirst
    refine ⟨value, position, hvalue, fun hin => ?_,
      fun x hx => isOutside_eq_false_iff.1 (hbefore x hx), by rw [Grid.checkWithin, hfirst]⟩
    rw [isOutside_eq_false_iff.2 hin] at hout
    cases hout

end Extended
end Regrid
