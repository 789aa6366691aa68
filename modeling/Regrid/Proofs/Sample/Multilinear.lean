import Regrid.Proofs.Sample.Cells

/-!
# Multilinear fields in a cell

A polynomial that has degree at most one in a variable is affine in it, the other
variables held fixed (`evalAt_lerp`).  If it has degree at most one in each of them, the
interpolation in a cell gives it back: axis by axis the interpolation between two points
of a grid becomes the polynomial at the coordinate between them, until none of the
coordinates belongs to a corner any longer (`Cell.value_eq_evalAt`).
-/
namespace Regrid

variable {K : Type} [Field K]

/-! ## One variable -/

/-- The polynomial at a point: the `k`-th coordinate is the value of variable `k`. -/
noncomputable def evalAt (P : MvPolynomial ℕ K) (zs : List K) : K :=
  MvPolynomial.eval (fun k => zs.getD k 0) P

/-- The power of one variable stands alone in a monomial. -/
theorem prod_update_pow (x : ℕ → K) (n : ℕ) (z : K) (d : ℕ →₀ ℕ) :
    ∏ i ∈ d.support, Function.update x n z i ^ d i =
      z ^ d n * ∏ i ∈ d.support.erase n, x i ^ d i := by
  have hothers : ∏ i ∈ d.support.erase n, Function.update x n z i ^ d i =
      ∏ i ∈ d.support.erase n, x i ^ d i := by
    refine Finset.prod_congr rfl fun i hi => ?_
    rw [Function.update_of_ne (Finset.ne_of_mem_erase hi)]
  by_cases hn : n ∈ d.support
  · rw [← Finset.mul_prod_erase _ _ hn, hothers, Function.update_self]
  · rw [Finset.erase_eq_of_notMem hn] at hothers ⊢
    rw [hothers, Finsupp.notMem_support_iff.1 hn, pow_zero, one_mul]

/-- A polynomial of degree at most one in a variable is affine in it. -/
theorem eval_update_lerp {P : MvPolynomial ℕ K} {n : ℕ} (h : P.degreeOf n ≤ 1) (x : ℕ → K)
    (l u t : K) :
    MvPolynomial.eval (Function.update x n (l + t * (u - l))) P =
      (1 - t) * MvPolynomial.eval (Function.update x n l) P +
        t * MvPolynomial.eval (Function.update x n u) P := by
  simp only [MvPolynomial.eval_eq, prod_update_pow]
  rw [Finset.mul_sum, Finset.mul_sum, ← Finset.sum_add_distrib]
  refine Finset.sum_congr rfl fun d hd => ?_
  have hdegree : d n ≤ 1 := (MvPolynomial.monomial_le_degreeOf n hd).trans h
  rcases Nat.le_one_iff_eq_zero_or_eq_one.1 hdegree with h0 | h1
  · rw [h0]
    ring
  · rw [h1]
    ring

/-- The coordinate behind some others is the value of one variable. -/
theorem getD_append_cons_eq_update (pre zs : List K) (z : K) :
    (fun k => (pre ++ z :: zs).getD k 0) =
      Function.update (fun k => (pre ++ 0 :: zs).getD k 0) pre.length z := by
  funext k
  by_cases hk : k = pre.length
  · subst k
    simp
  · rw [Function.update_of_ne hk]
    by_cases hlt : k < pre.length
    · rw [List.getD_append _ _ _ _ hlt, List.getD_append _ _ _ _ hlt]
    · obtain ⟨j, rfl⟩ : ∃ j, k = pre.length + (j + 1) := ⟨k - pre.length - 1, by omega⟩
      rw [List.getD_append_right _ _ _ _ (Nat.le_add_right ..),
        List.getD_append_right _ _ _ _ (Nat.le_add_right ..), Nat.add_sub_cancel_left]
      rfl

/-- **Between two values of one coordinate** the polynomial is interpolated. -/
theorem evalAt_lerp {P : MvPolynomial ℕ K} (pre zs : List K) (h : P.degreeOf pre.length ≤ 1)
    (l u t : K) :
    evalAt P (pre ++ (l + t * (u - l)) :: zs) =
      (1 - t) * evalAt P (pre ++ l :: zs) + t * evalAt P (pre ++ u :: zs) := by
  unfold evalAt
  rw [getD_append_cons_eq_update pre zs l, getD_append_cons_eq_update pre zs u,
    getD_append_cons_eq_update pre zs (l + t * (u - l))]
  exact eval_update_lerp h _ l u t

/-! ## All variables -/

/-- **In a cell a multilinear polynomial is given back** from its values at the grid
points. -/
theorem Cell.value_eq_evalAt [LinearOrder K] {P : MvPolynomial ℕ K} (hP : ∀ k, P.degreeOf k ≤ 1)
    {grids : List (List K)} {zs : List K} {ps : List (Position K)} (h : Fits grids zs ps)
    (pre : List K) {f : List Int → K}
    (hf : ∀ ix ws, Sample.entries? grids (ix.map Int.toNat) = some ws → f ix = evalAt P (pre ++ ws)) :
    value ps f = evalAt P (pre ++ zs) := by
  -- The coordinates of the axes that are done are added to those in front.
  induction h generalizing pre f with
  | nil => exact hf [] [] rfl
  | @cons grid grids z zs p ps head _ ih =>
    have hpoint : ∀ i : Int, 0 ≤ i → i < grid.length →
        value ps (fun ix => f (i :: ix)) = evalAt P (pre ++ Grid.point grid i :: zs) := by
      intro i h0 hi
      rw [List.append_cons]
      refine ih (pre ++ [Grid.point grid i]) fun ix ws hws => ?_
      rw [List.append_assoc, List.singleton_append]
      refine hf (i :: ix) _ (Sample.entries?_cons_eq_some_iff.2 ⟨_, ws, ?_, hws, rfl⟩)
      rw [Grid.getElem?_eq_point (by omega), Int.toNat_of_nonneg h0]
    have hnonneg := head.nonneg
    have hlast := head.last
    rw [value, Position.lerp, hpoint p.idx hnonneg (by omega),
      hpoint (p.idx + 1) (by omega) (by omega), head.complement, ← head.reproduces,
      evalAt_lerp pre zs (hP _)]

end Regrid
