import Regrid.Proofs.Arrays
import Regrid.Proofs.Grid.Order

/-!
# Which grids and queries are accepted

The checks in front of a scan look at the differences of neighbours and at the
numbers of the limits.  Said of the points: a grid passes as a reference exactly when
it is long enough and strictly ordered in the direction that is told
(`checkReference_eq_ok_iff`; two points are enough for linear interpolation,
`checkReference_linear_iff`), its limits are the ends of its envelope
(`limits_of_ordered`), and the queries pass exactly when all of them are within the
envelope (`checkWithin_eq_ok_iff`).
-/
namespace Regrid
namespace Grid

/-- The points of an array are its entries, if it is a row or a single number. -/
theorem ofArray_eq_ok_iff {α : Type} {name : String} {a : NdArray α} {xs : List α} :
    ofArray name a = .ok xs ↔ a.rank ≤ 1 ∧ a.toList = xs := by
  rw [NdArray.rank_le_one_iff]
  unfold ofArray
  split
  · next h => simp [h]
  · next h => simp [h]
  · next h₀ h₁ =>
    refine ⟨nofun, ?_⟩
    rintro ⟨h | ⟨n, h⟩, -⟩
    · exact absurd h h₀
    · exact absurd h (h₁ n)

variable {K : Type} [Field K] [LinearOrder K] [IsStrictOrderedRing K] [FloorRing K] [Elementary K]
variable {d : Direction} {grid : List K}

/-! ## Reference grids -/

/-- The differences of neighbours decide the order of all points. -/
theorem follows_iff (d : Direction) (grid : List K) : follows d grid = true ↔ Ordered d grid := by
  rw [Ordered, ← List.isChain_iff_pairwise]
  induction grid with
  | nil => cases d <;> simp [follows, isIncreasing, isDecreasing, Scalar.diffs]
  | cons x rest ih =>
    cases rest with
    | nil => cases d <;> simp [follows, isIncreasing, isDecreasing, Scalar.diffs]
    | cons y rest =>
      rw [List.isChain_cons_cons, ← ih]
      cases d <;> simp [follows, isIncreasing, isDecreasing, Scalar.diffs, Direction.Before]

/-- **A reference grid passes** exactly when it has enough points, two at least, and
its points are strictly ordered in the direction that is told. -/
theorem checkReference_eq_ok_iff {least : Int} {which : String} :
    checkReference least which grid = .ok d ↔
      least ≤ grid.length ∧ 2 ≤ grid.length ∧ Ordered d grid := by
  unfold checkReference
  split
  · next h => exact ⟨nofun, fun h' => absurd h'.1 (by omega)⟩
  · next h =>
    rw [if_neg (by simp)]
    match grid with
    | [] => simp
    | [x] => simp
    | x :: y :: rest =>
      -- The direction of an ordered grid is the one that its first two points tell.
      have hdir : Ordered d (x :: y :: rest) →
          (if Scalar.le x y then Direction.ascending else .descending) = d := by
        intro hord
        have hxy : d.Before x y := (List.pairwise_cons.1 hord).1 y (List.mem_cons_self ..)
        cases d with
        | ascending => simp [le_of_lt (α := K) hxy]
        | descending => simp [not_le_of_gt (α := K) hxy]
      simp only
      generalize (if Scalar.le x y = true then Direction.ascending else .descending) = told at hdir ⊢
      by_cases hf : follows told (x :: y :: rest) = true
      · rw [if_pos hf]
        rw [follows_iff] at hf
        constructor
        · intro he
          cases he
          exact ⟨not_lt.1 h, by simp, hf⟩
        · rintro ⟨-, -, hord⟩
          rw [hdir hord]
      · rw [if_neg hf]
        rw [follows_iff] at hf
        refine ⟨nofun, ?_⟩
        rintro ⟨-, -, hord⟩
        exact absurd (by rw [hdir hord]; exact hord) hf

/-- **A grid for linear interpolation** has two points at least, in strict order. -/
theorem checkReference_linear_iff {which : String} :
    checkReference linearPoints which grid = .ok d ↔ 2 ≤ grid.length ∧ Ordered d grid := by
  rw [checkReference_eq_ok_iff, linearPoints]
  constructor
  · rintro ⟨-, hlen, hord⟩
    exact ⟨hlen, hord⟩
  · rintro ⟨hlen, hord⟩
    exact ⟨by exact_mod_cast hlen, hlen, hord⟩

/-! ## The envelope -/

/-- The limit in front of the first point. -/
def firstLimit (grid : List K) (extpolfac : K) : K :=
  point grid 0 - extpolfac * (point grid 1 - point grid 0)

/-- The limit behind the last point. -/
def lastLimit (grid : List K) (extpolfac : K) : K :=
  point grid (grid.length - 1) +
    extpolfac * (point grid (grid.length - 1) - point grid (grid.length - 2))

/-- Within the envelope of a grid, the limits included. -/
def InEnvelope (d : Direction) (grid : List K) (extpolfac x : K) : Prop :=
  ¬ d.Before x (firstLimit grid extpolfac) ∧ ¬ d.Before (lastLimit grid extpolfac) x

instance (d : Direction) (grid : List K) (extpolfac x : K) :
    Decidable (InEnvelope d grid extpolfac x) := inferInstanceAs (Decidable (_ ∧ _))

omit [LinearOrder K] [IsStrictOrderedRing K] [FloorRing K] [Elementary K] in
/-- The last two points stand first in the reversed grid. -/
theorem reverse_eq_cons_cons (h : 2 ≤ grid.length) :
    ∃ rest, grid.reverse =
      point grid (grid.length - 1) :: point grid (grid.length - 2) :: rest := by
  obtain ⟨z₀, z₁, rest, hrev⟩ : ∃ z₀ z₁ rest, grid.reverse = z₀ :: z₁ :: rest := by
    match hr : grid.reverse with
    | [] => simp [List.reverse_eq_nil_iff.1 hr] at h
    | [z] =>
      have := congrArg List.length hr
      simp at this
      omega
    | z₀ :: z₁ :: rest => exact ⟨z₀, z₁, rest, rfl⟩
  have hgrid : grid = rest.reverse ++ [z₁, z₀] := by
    rw [← List.reverse_reverse grid, hrev]
    simp
  have hlen : grid.length = rest.length + 2 := by rw [hgrid]; simp
  have h₀ : point grid (grid.length - 1) = z₀ := by
    rw [hlen, show ((rest.length + 2 : Nat) : Int) - 1 = ((rest.length + 1 : Nat) : Int) by omega,
      point_natCast, hgrid]
    simp
  have h₁ : point grid (grid.length - 2) = z₁ := by
    rw [hlen, show ((rest.length + 2 : Nat) : Int) - 2 = ((rest.length : Nat) : Int) by omega,
      point_natCast, hgrid]
    simp
  exact ⟨rest, by rw [h₀, h₁, hrev]⟩

omit [IsStrictOrderedRing K] in
/-- **The limits of an ordered grid**, the smaller one first. -/
theorem limits_of_ordered (h : Ordered d grid) (hlen : 2 ≤ grid.length) (extpolfac : K) :
    limits grid extpolfac = .ok (match d with
      | .ascending => (firstLimit grid extpolfac, lastLimit grid extpolfac)
      | .descending => (lastLimit grid extpolfac, firstLimit grid extpolfac)) := by
  obtain ⟨rest', hrev⟩ := reverse_eq_cons_cons hlen
  unfold limits
  rw [hrev]
  match grid with
  | [] => simp at hlen
  | [x] => simp at hlen
  | x :: y :: rest =>
    have hxy : d.Before x y := (List.pairwise_cons.1 h).1 y (List.mem_cons_self ..)
    cases d with
    | ascending => exact if_pos (by simpa using le_of_lt (α := K) hxy)
    | descending => exact if_neg (by simpa using not_le_of_gt (α := K) hxy)

section Search
variable {α : Type} {p : α → Bool} {xs : List α}

theorem firstWith_eq_none_iff : firstWith p xs = none ↔ ∀ x ∈ xs, p x = false := by
  simp only [firstWith, List.find?_eq_none, Bool.not_eq_true, Prod.forall]
  constructor
  · intro h x hx
    obtain ⟨i, hi, rfl⟩ := List.mem_iff_getElem.1 hx
    exact h _ i (List.mem_zipIdx_iff_getElem?.2 (by simp))
  · intro h x i hmem
    exact h x (List.fst_mem_of_mem_zipIdx hmem)

/-- The first entry with a property is at its place, and those before it do not have it. -/
theorem getElem?_of_firstWith_eq_some {x : α} {i : Nat} (h : firstWith p xs = some (x, i)) :
    xs[i]? = some x ∧ p x = true ∧ ∀ y ∈ xs.take i, p y = false := by
  obtain ⟨hp, j, hj, hentry, hbefore⟩ := List.find?_eq_some_iff_getElem.1 h
  rw [List.getElem_zipIdx, Prod.mk.injEq, zero_add] at hentry
  obtain ⟨rfl, rfl⟩ := hentry
  refine ⟨List.getElem?_eq_getElem _, hp, fun y hy => ?_⟩
  obtain ⟨k, hk, rfl⟩ := List.mem_take_iff_getElem.1 hy
  have hbefore := hbefore k (by omega)
  rwa [List.getElem_zipIdx, Bool.not_eq_true'] at hbefore

theorem mem_of_firstWith_eq_some {x : α} {i : Nat} (h : firstWith p xs = some (x, i)) :
    x ∈ xs ∧ p x = true := by
  obtain ⟨hx, hp, -⟩ := getElem?_of_firstWith_eq_some h
  exact ⟨List.mem_of_getElem? hx, hp⟩

end Search

omit [IsStrictOrderedRing K] in
/-- **Queries pass** exactly when all of them are within the envelope. -/
theorem checkWithin_eq_ok_iff {new : List K} {low high extpolfac : K} :
    checkWithin new low high extpolfac = .ok () ↔ ∀ x ∈ new, ¬ x < low ∧ ¬ high < x := by
  unfold checkWithin
  split
  · next x i h =>
    obtain ⟨hmem, hout⟩ := mem_of_firstWith_eq_some h
    simp only [isOutside, Exact.isNaN_eq, Exact.lt_eq, Bool.false_or, Bool.or_eq_true,
      decide_eq_true_eq] at hout
    exact ⟨nofun, fun hall => absurd hout (not_or.2 (hall x hmem))⟩
  · next h =>
    rw [firstWith_eq_none_iff] at h
    simpa [isOutside] using h

omit [IsStrictOrderedRing K] in
/-- A query is refused because it is out of range. -/
theorem outOfRange_of_checkWithin {new : List K} {low high extpolfac : K} {f : Fault K}
    (h : checkWithin new low high extpolfac = .error f) : ∃ cause, f = .outOfRange cause := by
  unfold checkWithin at h
  split at h
  · cases h
    exact ⟨_, rfl⟩
  · cases h

/-! ## Limits as fractions of the end brackets -/

omit [FloorRing K] [Elementary K] in
/-- A query is not before the envelope if it is not too far in front of the first
bracket. -/
theorem not_before_firstLimit_iff (h : Ordered d grid) (hlen : 2 ≤ grid.length) (extpolfac x : K) :
    ¬ d.Before x (firstLimit grid extpolfac) ↔
      -extpolfac ≤ (x - point grid 0) / (point grid 1 - point grid 0) := by
  have hbracket : d.Before (point grid 0) (point grid 1) :=
    h.before le_rfl zero_lt_one (by omega)
  have heq : firstLimit grid extpolfac =
      point grid 0 + -extpolfac * (point grid 1 - point grid 0) := by
    rw [firstLimit]
    ring
  rw [heq, Direction.before_at_iff' hbracket, not_lt]

omit [FloorRing K] [Elementary K] in
/-- A query is not behind the envelope if it is not too far behind the last bracket. -/
theorem not_lastLimit_before_iff (h : Ordered d grid) (hlen : 2 ≤ grid.length) (extpolfac x : K) :
    ¬ d.Before (lastLimit grid extpolfac) x ↔
      (x - point grid (grid.length - 2)) /
        (point grid (grid.length - 1) - point grid (grid.length - 2)) ≤ 1 + extpolfac := by
  have hbracket : d.Before (point grid (grid.length - 2)) (point grid (grid.length - 1)) :=
    h.before (by omega) (by omega) (by omega)
  have heq : lastLimit grid extpolfac = point grid (grid.length - 2) +
      (1 + extpolfac) * (point grid (grid.length - 1) - point grid (grid.length - 2)) := by
    rw [lastLimit]
    ring
  rw [heq, Direction.before_at_iff hbracket, not_lt]

omit [FloorRing K] [Elementary K] in
/-- The first point is not before the envelope. -/
theorem not_first_before_firstLimit (h : Ordered d grid) (hlen : 2 ≤ grid.length) {extpolfac : K}
    (he : 0 ≤ extpolfac) : ¬ d.Before (point grid 0) (firstLimit grid extpolfac) := by
  rw [not_before_firstLimit_iff h hlen, sub_self, zero_div]
  exact neg_nonpos.2 he

omit [FloorRing K] [Elementary K] in
/-- The last point is not behind the envelope. -/
theorem not_lastLimit_before_last (h : Ordered d grid) (hlen : 2 ≤ grid.length) {extpolfac : K}
    (he : 0 ≤ extpolfac) :
    ¬ d.Before (lastLimit grid extpolfac) (point grid (grid.length - 1)) := by
  have hlast : point grid (grid.length - 1) - point grid (grid.length - 2) ≠ 0 :=
    sub_ne_zero.2 (h.before (by omega) (by omega) (by omega)).ne.symm
  rw [not_lastLimit_before_iff h hlen, div_self hlast]
  exact le_add_of_nonneg_right he

omit [FloorRing K] [Elementary K] in
/-- Envelopes are not empty. -/
theorem firstLimit_before_lastLimit (h : Ordered d grid) (hlen : 2 ≤ grid.length) {extpolfac : K}
    (he : 0 ≤ extpolfac) : d.Before (firstLimit grid extpolfac) (lastLimit grid extpolfac) := by
  have hends : d.Before (point grid 0) (point grid (grid.length - 1)) :=
    h.before le_rfl (by omega) (by omega)
  have hfirst := not_first_before_firstLimit h hlen he
  have hlast := not_lastLimit_before_last h hlen he
  exact (Direction.Before.not_trans hfirst hends).trans_not hlast

/-- What the checks of an ordered grid say of the queries, in either direction. -/
theorem exists_limits (h : Ordered d grid) (hlen : 2 ≤ grid.length) (extpolfac : K) :
    ∃ low high, limits grid extpolfac = .ok (low, high) ∧ (0 ≤ extpolfac → low < high) ∧
      ∀ new : List K, checkWithin new low high extpolfac = .ok () ↔
        ∀ x ∈ new, InEnvelope d grid extpolfac x := by
  have hspan : 0 ≤ extpolfac → d.Before (firstLimit grid extpolfac) (lastLimit grid extpolfac) :=
    firstLimit_before_lastLimit h hlen
  rw [limits_of_ordered h hlen]
  cases d with
  | ascending => exact ⟨_, _, rfl, hspan, fun _ => checkWithin_eq_ok_iff⟩
  | descending =>
    refine ⟨_, _, rfl, hspan, fun _ => checkWithin_eq_ok_iff.trans ?_⟩
    exact forall₂_congr fun x _ => And.comm

end Grid
end Regrid
