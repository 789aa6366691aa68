import Regrid.Locate
import Regrid.Proofs.Exact
import Regrid.Proofs.Outcome

/-!
# Ordered grids

In exact arithmetic a reference grid is accepted exactly when its points follow one
another strictly in one direction (`Grid.checkReference_eq_ok_iff`).  What is said
below is said for both directions at once, by `Direction.Before`: it is a strict
linear order, and along a bracket it is the order of fractions (`before_at_iff`).

A query is within the envelope of a grid when it is neither before the first limit
nor behind the last one (`Grid.InEnvelope`); of the two limits that a grid has, which
is the smaller number depends on the direction and matters no further
(`Grid.checkWithin_eq_ok_iff`).
-/
namespace Regrid

/-- Between the least and the greatest of some numbers. -/
def Between {K : Type} [LE K] (ys : List K) (v : K) : Prop := (∃ y ∈ ys, y ≤ v) ∧ ∃ z ∈ ys, v ≤ z

/-! ## The order of a direction -/

namespace Direction

section Order
variable {K : Type} [LinearOrder K]

/-- **The order of a direction**: `x` comes strictly before `y`. -/
def Before : Direction → K → K → Prop
  | ascending, x, y => x < y
  | descending, x, y => y < x

instance (d : Direction) (x y : K) : Decidable (d.Before x y) :=
  match d with
  | ascending => inferInstanceAs (Decidable (x < y))
  | descending => inferInstanceAs (Decidable (y < x))

variable {d : Direction} {x y z : K}

theorem before_irrefl (d : Direction) (x : K) : ¬ d.Before x x := by
  cases d <;> exact lt_irrefl x

theorem Before.trans (h : d.Before x y) (h' : d.Before y z) : d.Before x z := by
  cases d with
  | ascending => exact lt_trans (α := K) h h'
  | descending => exact lt_trans (α := K) h' h

theorem Before.asymm (h : d.Before x y) : ¬ d.Before y x :=
  fun h' => before_irrefl d x (h.trans h')

theorem Before.ne (h : d.Before x y) : x ≠ y := by
  rintro rfl
  exact before_irrefl d x h

/-- What is neither before nor behind is the same. -/
theorem eq_of_not_before (h : ¬ d.Before x y) (h' : ¬ d.Before y x) : x = y := by
  cases d with
  | ascending => exact le_antisymm (not_lt.1 h') (not_lt.1 h)
  | descending => exact le_antisymm (not_lt.1 h) (not_lt.1 h')

theorem Before.trans_not (h : d.Before x y) (h' : ¬ d.Before z y) : d.Before x z := by
  by_cases hzy : z = y
  · exact hzy ▸ h
  · by_cases hyz : d.Before y z
    · exact h.trans hyz
    · exact absurd (eq_of_not_before h' hyz) hzy

theorem Before.not_trans (h : ¬ d.Before y x) (h' : d.Before y z) : d.Before x z := by
  by_cases hyx : y = x
  · exact hyx ▸ h'
  · by_cases hxy : d.Before x y
    · exact hxy.trans h'
    · exact absurd (eq_of_not_before h hxy) hyx

instance (d : Direction) : Trans (@Before K _ d) d.Before d.Before := ⟨Before.trans⟩

end Order

variable {K : Type} [Field K] [LinearOrder K] [IsStrictOrderedRing K] {d : Direction}

/-- **Along a bracket the order is that of the fractions.** -/
theorem before_at_iff {l u : K} (h : d.Before l u) (t x : K) :
    d.Before (l + t * (u - l)) x ↔ t < (x - l) / (u - l) := by
  cases d with
  | ascending =>
    have hw : 0 < u - l := sub_pos.2 h
    rw [lt_div_iff₀ hw]
    exact ⟨fun h => by change _ < _ at h; linarith, fun h => by change _ < _; linarith⟩
  | descending =>
    have hw : u - l < 0 := sub_neg.2 h
    rw [lt_div_iff_of_neg hw]
    exact ⟨fun h => by change _ < _ at h; linarith, fun h => by change _ < _; linarith⟩

theorem before_at_iff' {l u : K} (h : d.Before l u) (t x : K) :
    d.Before x (l + t * (u - l)) ↔ (x - l) / (u - l) < t := by
  cases d with
  | ascending =>
    have hw : 0 < u - l := sub_pos.2 h
    rw [div_lt_iff₀ hw]
    exact ⟨fun h => by change _ < _ at h; linarith, fun h => by change _ < _; linarith⟩
  | descending =>
    have hw : u - l < 0 := sub_neg.2 h
    rw [div_lt_iff_of_neg hw]
    exact ⟨fun h => by change _ < _ at h; linarith, fun h => by change _ < _; linarith⟩

variable [FloorRing K] [Elementary K]

@[simp] theorem precedes_eq (d : Direction) (x y : K) :
    Locate.precedes d x y = decide (d.Before x y) := by
  rw [Bool.eq_iff_iff, decide_eq_true_iff]
  cases d with
  | ascending => simp [Locate.precedes, Locate.sign, Before]
  | descending => simp [Locate.precedes, Locate.sign, Before]

@[simp] theorem succeeds_eq (d : Direction) (x y : K) :
    Locate.succeeds d x y = decide (d.Before y x) := precedes_eq d y x

end Direction

/-! ## Points -/

namespace Grid

variable {K : Type} [Field K] [LinearOrder K]

/-- The point of a grid at an index; nought where there is none. -/
def point (grid : List K) (i : Int) : K := grid.getD i.toNat 0

omit [LinearOrder K] in
theorem point_natCast (grid : List K) (i : Nat) : point grid i = grid.getD i 0 := by
  simp [point]

omit [LinearOrder K] in
theorem getElem?_eq_point {grid : List K} {i : Nat} (h : i < grid.length) :
    grid[i]? = some (point grid i) := by
  rw [point_natCast, List.getD_eq_getElem _ _ h, List.getElem?_eq_getElem h]

omit [LinearOrder K] in
theorem point_mem {grid : List K} {i : Int} (h0 : 0 ≤ i) (hi : i < grid.length) :
    point grid i ∈ grid := by
  have hget : grid[i.toNat]? = some (point grid i.toNat) := getElem?_eq_point (by omega)
  rw [Int.toNat_of_nonneg h0] at hget
  exact List.mem_of_getElem? hget

omit [LinearOrder K] in
theorem point_map {grid : List K} {i : Int} (h0 : 0 ≤ i) (hi : i < grid.length) (f : K → K) :
    point (grid.map f) i = f (point grid i) := by
  rw [point, point, List.getD_eq_getElem _ _ (by rw [List.length_map]; omega),
    List.getD_eq_getElem _ _ (by omega), List.getElem_map]

/-- The points of a grid follow one another strictly in a direction. -/
def Ordered (d : Direction) (grid : List K) : Prop := grid.Pairwise d.Before

instance (d : Direction) (grid : List K) : Decidable (Ordered d grid) :=
  inferInstanceAs (Decidable (grid.Pairwise d.Before))

variable {d : Direction} {grid : List K}

/-- A point with a smaller index comes first. -/
theorem Ordered.before (h : Ordered d grid) {i j : Int} (h0 : 0 ≤ i) (hij : i < j)
    (hj : j < grid.length) : d.Before (point grid i) (point grid j) := by
  rw [point, point, List.getD_eq_getElem _ _ (by omega), List.getD_eq_getElem _ _ (by omega)]
  exact List.pairwise_iff_getElem.1 h _ _ _ _ (by omega)

theorem Ordered.not_before (h : Ordered d grid) {i j : Int} (h0 : 0 ≤ i) (hij : i ≤ j)
    (hj : j < grid.length) : ¬ d.Before (point grid j) (point grid i) := by
  rcases hij.lt_or_eq with hlt | rfl
  · exact (h.before h0 hlt hj).asymm
  · exact Direction.before_irrefl d _

/-- The logarithms of positive points are in order exactly when the points are. -/
theorem ordered_log_iff [Elementary K] (hpositive : ∀ x ∈ grid, 0 < x) :
    Ordered d (grid.map Elementary.log) ↔ Ordered d grid := by
  unfold Ordered
  rw [List.pairwise_map]
  refine List.Pairwise.iff_of_mem fun {x y} hx hy => ?_
  have hx := hpositive x hx
  have hy := hpositive y hy
  cases d with
  | ascending => exact Elementary.strictMonoOn_log.lt_iff_lt hx hy
  | descending => exact Elementary.strictMonoOn_log.lt_iff_lt hy hx

/-- The points of a bracket differ. -/
theorem Ordered.width_ne (h : Ordered d grid) {i : Int} (h0 : 0 ≤ i) (hi : i + 2 ≤ grid.length) :
    point grid (i + 1) - point grid i ≠ 0 :=
  sub_ne_zero.2 (h.before h0 (lt_add_one i) (by omega)).ne.symm

end Grid
end Regrid
