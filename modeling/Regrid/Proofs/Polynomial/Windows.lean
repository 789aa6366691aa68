import Regrid.Polynomial
import Regrid.Proofs.Grid.Acceptance
import Regrid.Proofs.Locate.Fits
import Regrid.Proofs.Polynomial.Lagrange

/-!
# Local polynomials

A stencil chooses its window by the index of a position, and one stencil by the fraction as well.
Whichever it chooses, the window is inside the grid, no point short, and it holds the bracket
(`Stencil.first_bounds`).  So there is a polynomial around every position (`Stencil.around`), and it
has its value at every query, however far from the bracket (`Polynomial.exists_interpolate`).  Where
the ordinates are those of one polynomial of less degree than the stencil has points, it is that one
(`Stencil.around_map_eval`).

A query on a grid point may be located in two brackets, and the windows around them may differ.  Both
hold the point, and there both polynomials have its ordinate (`Stencil.eval_around_point`).  Every
other query has one position only, so the value at a query depends on nothing else
(`Stencil.eval_around_eq`).
-/
open scoped Polynomial

namespace Regrid

/-! ## Places of windows -/

namespace Stencil

variable {α : Type} [Scalar α] (s : Stencil) {n : Int} {p : Position α}

/-- **The window of a stencil** lies inside a grid with enough points, and holds the bracket. -/
theorem first_bounds (hn : s.size ≤ n) (h0 : 0 ≤ p.idx) (hlast : p.idx + 2 ≤ n) :
    0 ≤ s.first n p ∧ s.first n p + s.size ≤ n ∧ s.first n p ≤ p.idx ∧
      p.idx + 2 ≤ s.first n p + s.size := by
  cases s with
  | adaptive3 =>
    by_cases hlower : ((Scalar.le p.fraction Scalar.half && decide (0 < p.idx)) ||
        p.idx == n - 2) = true
    · -- There is a point below the bracket: the last bracket of three points is not the first.
      have hpos : 0 < p.idx := by
        rcases Bool.or_eq_true_iff.1 hlower with hnearer | hend
        · exact of_decide_eq_true (Bool.and_eq_true_iff.1 hnearer).2
        · have hend : p.idx = n - 2 := beq_iff_eq.1 hend
          simp only [size] at hn
          omega
      rw [first, if_pos hlower]
      simp only [size]
      omega
    · have hend : p.idx ≠ n - 2 := by
        intro hend
        exact hlower (Bool.or_eq_true_iff.2 (.inr (beq_iff_eq.2 hend)))
      rw [first, if_neg hlower]
      simp only [size]
      omega
  | fixed3 =>
    simp only [first, size] at hn ⊢
    omega
  | cubic4 =>
    simp only [first, size] at hn ⊢
    omega

/-- There is a window for every bracket of a grid with enough points. -/
theorem window_eq_ok (hn : s.size ≤ n) (h0 : 0 ≤ p.idx) (hlast : p.idx + 2 ≤ n) :
    window (some s) n p = .ok (s.first n p) := by
  simp only [window]
  rw [if_neg (by omega), if_neg (not_not.2 ⟨h0, by omega⟩)]

/-- A stencil with more points than the grid is refused. -/
theorem window_of_short (h : n < s.size) :
    window (some s) n p = .error (.dimensionMismatch (.stencilPoints s n)) := if_pos h

/-- A bracket that is none of the grid is refused. -/
theorem window_of_outside (hn : s.size ≤ n) (h : ¬ (0 ≤ p.idx ∧ p.idx ≤ n - 2)) :
    window (some s) n p = .error (.outOfRange (.noBracket p.idx (n - 2))) := by
  rw [window, if_neg (not_lt.2 hn), if_pos h]

/-- No stencil has fewer points than polynomial interpolation asks for. -/
theorem leastPoints_eq : Polynomial.leastPoints (some s) = s.size := by
  cases s <;> rfl

theorem three_le_size : 3 ≤ s.size := by
  cases s <;> decide

end Stencil

namespace Polynomial

variable {β : Type} {xs : List β} {start : Int} {count : Nat}

/-- A window inside a row is a full stretch of it. -/
theorem length_stretch (h0 : 0 ≤ start) (hend : start + count ≤ xs.length) :
    (stretch start count xs).length = count := by
  rw [stretch, List.length_take, List.length_drop]
  omega

theorem stretch_sublist : (stretch start count xs).Sublist xs :=
  (List.take_sublist ..).trans (List.drop_sublist ..)

end Polynomial

/-! ## Polynomials of windows -/

section Windows
variable {K : Type} [Field K] {xs ys : List K} {i count : Nat}

/-- A window goes through each of its points. -/
theorem eval_window_point (hxs : xs.Nodup) (h : i + count ≤ xs.length) {j : Nat} (hij : i ≤ j)
    (hj : j < i + count) : (window xs ys i count).eval (xs.getD j 0) = ys.getD j 0 :=
  Lagrange.eval_interpolate_at_node (ys.getD · 0) (injOn_window hxs h)
    (Finset.mem_Ico.2 ⟨hij, hj⟩)

/-- The window of a polynomial of less degree than the window has points is the polynomial. -/
theorem window_map_eval (hxs : xs.Nodup) (h : i + count ≤ xs.length) {p : K[X]}
    (hp : p.degree < count) : window xs (xs.map (p.eval ·)) i count = p := by
  have hinj := injOn_window hxs h
  have hcard : (Finset.Ico i (i + count)).card = count := by
    rw [Nat.card_Ico, Nat.add_sub_cancel_left]
  refine (Lagrange.eq_interpolate_of_eval_eq _ hinj (by rwa [hcard]) fun j hj => ?_).symm
  have hj' : j < xs.length := lt_of_lt_of_le (Finset.mem_Ico.1 hj).2 h
  rw [List.getD_eq_getElem _ _ hj', List.getD_eq_getElem _ _ (by rwa [List.length_map]),
    List.getElem_map]

end Windows

/-! ## Polynomials around positions -/

section Exact
variable {K : Type} [Field K] [LinearOrder K] [FloorRing K] [Elementary K] {d : Direction}

omit [Field K] [FloorRing K] [Elementary K] in
/-- The points of an ordered grid differ. -/
theorem Grid.Ordered.nodup {grid : List K} (hord : Ordered d grid) : grid.Nodup :=
  hord.imp fun h => h.ne

namespace Stencil

/-- **The polynomial of a stencil** around a position in a grid. -/
noncomputable def around (s : Stencil) (grid values : List K) (p : Position K) : K[X] :=
  Regrid.window grid values (s.first grid.length p).toNat s.size

variable {s : Stencil} {grid values : List K} {x : K} {p q : Position K}

/-- Around a position in a polynomial of less degree than the stencil has points, the polynomial. -/
theorem around_map_eval (hord : Grid.Ordered d grid) (hn : s.size ≤ grid.length) (h0 : 0 ≤ p.idx)
    (hlast : p.idx + 2 ≤ grid.length) {f : K[X]} (hf : f.degree < s.size) :
    s.around grid (grid.map (f.eval ·)) p = f := by
  obtain ⟨hfirst, hfull, -, -⟩ := s.first_bounds (Int.ofNat_le.2 hn) h0 hlast
  exact window_map_eval hord.nodup (by omega) hf

/-- At the points of the bracket, their ordinates. -/
theorem eval_around_bracket (hord : Grid.Ordered d grid) (hn : s.size ≤ grid.length)
    (h0 : 0 ≤ p.idx) (hlast : p.idx + 2 ≤ grid.length) {j : Nat} (hj : p.idx = j ∨ p.idx + 1 = j) :
    (s.around grid values p).eval (Grid.point grid j) = values.getD j 0 := by
  obtain ⟨hfirst, hfull, hlower, hupper⟩ := s.first_bounds (Int.ofNat_le.2 hn) h0 hlast
  rw [Grid.point_natCast]
  exact eval_window_point hord.nodup (by omega) (by omega) (by omega)

variable [IsStrictOrderedRing K]

/-- **The value at a query** does not depend on the bracket in which it is located. -/
theorem eval_around_eq (hord : Grid.Ordered d grid) (hn : s.size ≤ grid.length)
    (hp : Grid.Fits grid x p) (hq : Grid.Fits grid x q) :
    (s.around grid values p).eval x = (s.around grid values q).eval x := by
  -- Two positions are those of a tie, and the query is the grid point between the brackets.
  have htie : ∀ {p q : Position K}, Grid.Fits grid x p → Grid.Fits grid x q → q.idx = p.idx + 1 →
      q.fraction = 0 → (s.around grid values p).eval x = (s.around grid values q).eval x := by
    intro p q hp hq hidx hq0
    obtain ⟨j, hj⟩ := Int.eq_ofNat_of_zero_le hq.nonneg
    have hx : x = Grid.point grid j := by rw [← hq.reproduces, hq0, zero_mul, add_zero, hj]
    rw [hx, eval_around_bracket hord hn hp.nonneg hp.last (.inr (by omega)),
      eval_around_bracket hord hn hq.nonneg hq.last (.inl hj)]
  rcases Grid.Fits.eq_or_tie hord hp hq with rfl | ⟨hidx, -, hq0⟩ | ⟨hidx, -, hp0⟩
  · rfl
  · exact htie hp hq hidx hq0
  · exact (htie hq hp hidx hp0).symm

/-- **At a grid point**, its ordinate, in whichever bracket the point is located. -/
theorem eval_around_point (hord : Grid.Ordered d grid) (hn : s.size ≤ grid.length) {j : Nat}
    (hj : j < grid.length) (hp : Grid.Fits grid (Grid.point grid j) p) :
    (s.around grid values p).eval (Grid.point grid j) = values.getD j 0 := by
  by_cases hend : j + 2 ≤ grid.length
  · have hlower : Grid.Fits grid (Grid.point grid j) ⟨j, 0, 1⟩ := Grid.fits_lower (by omega) (by omega)
    rw [eval_around_eq hord hn hp hlower]
    exact eval_around_bracket hord hn hlower.nonneg hlower.last (.inl rfl)
  · -- The last point has no bracket above it.
    have hthree := s.three_le_size
    obtain ⟨i, rfl⟩ : ∃ i, j = i + 1 := ⟨j - 1, by omega⟩
    have hupper : Grid.Fits grid (Grid.point grid (i + 1 : Nat)) ⟨i, 1, 0⟩ := by
      rw [Nat.cast_succ]
      exact Grid.fits_upper (by omega) (by omega)
    rw [eval_around_eq hord hn hp hupper]
    exact eval_around_bracket hord hn hupper.nonneg hupper.last (.inr (Nat.cast_succ i).symm)

end Stencil

/-! ## Estimates -/

variable [IsStrictOrderedRing K]

/-- Every backend evaluates the polynomial of a window. -/
theorem Backend.exists_polynomial_stretch {xs ys : List K} (hxs : xs.Nodup)
    (hlen : ys.length = xs.length) {start : Int} (h0 : 0 ≤ start) {count : Nat} (hpos : 0 < count)
    (hend : start + count ≤ xs.length) (x : K) :
    ∃ e, (∀ b : Backend, b.polynomial (Polynomial.stretch start count xs)
        (Polynomial.stretch start count ys) x = .ok e) ∧
      e.value = (window xs ys start.toNat count).eval x := by
  have hthrough := through_window (i := start.toNat) hxs hlen (show start.toNat + count ≤ _ by omega)
  have hne : Polynomial.stretch start count xs ≠ [] := by
    rw [← List.length_pos_iff, Polynomial.length_stretch h0 hend]
    exact hpos
  obtain ⟨e, he, hinterpolates⟩ := exists_polynomialOf (x := x) hne hthrough.length_eq
    (hxs.sublist Polynomial.stretch_sublist)
  obtain ⟨p, -, honly, hvalue⟩ := hinterpolates.value
  refine ⟨e, fun b => ?_, ?_⟩
  · rw [← polynomialOf_vector]
    exact he b
  · rw [hvalue, honly _ hthrough]

/-- **The polynomial of a stencil has its value** at every query. -/
theorem Polynomial.exists_interpolate {s : Stencil} {grid : List K} (hord : Grid.Ordered d grid)
    (hn : s.size ≤ grid.length) {y : NdArray K} (hy : y.shape = [grid.length]) {p : Position K}
    (h0 : 0 ≤ p.idx) (hlast : p.idx + 2 ≤ grid.length) (x : K) :
    ∃ e, interpolate (NdArray.vector grid) y x p (some s) = .ok e ∧
      e.value = (s.around grid y.toList p).eval x := by
  have hthree := s.three_le_size
  have hlen : y.toList.length = grid.length := by
    rw [NdArray.length_toList, hy, volume_singleton]
  have hreference : Grid.checkReference (leastPoints (some s)) "" grid = .ok d :=
    Grid.checkReference_eq_ok_iff.2 ⟨by rw [s.leastPoints_eq]; omega, by omega, hord⟩
  obtain ⟨hfirst, hfull, -, -⟩ := s.first_bounds (Int.ofNat_le.2 hn) h0 hlast
  obtain ⟨e, he, hvalue⟩ := Backend.exists_polynomial_stretch hord.nodup hlen hfirst
    (show 0 < s.size by omega) hfull x
  refine ⟨e, ?_, hvalue⟩
  rw [interpolate, Grid.ofArray_vector, Outcome.ok_bind, if_neg (not_not.2 hy), hreference,
    s.window_eq_ok (Int.ofNat_le.2 hn) h0 hlast]
  exact he .reference

end Exact
end Regrid
