import Regrid.Proofs.Interpolator.Agreement
import Regrid.Proofs.Sample.Multilinear

/-!
# Multilinear fields are reproduced

A field tabulates a polynomial if its entries are the values of the polynomial at the
grid points, in the coordinates by which values are located (`Interpolator.Tabulates`).
If the polynomial has degree at most one in each variable, the interpolant of the field
is the polynomial (`Interpolates.eq_evalAt`): inside the grid, on its points, and as far
beyond its ends as values are accepted.  So it is what all three protocols return.
-/
namespace Regrid
namespace Interpolator

variable {K : Type} [Field K] [LinearOrder K] [FloorRing K] [Elementary K]

/-- **The field tabulates a polynomial**: at each multi-index stands the value at the grid
point of that multi-index. -/
def Tabulates (I : Interpolator K) (P : MvPolynomial ℕ K) : Prop :=
  ∀ ix zs, Sample.entries? (I.axes.map Axis.located) ix = some zs →
    I.field.get? ix = some (evalAt P zs)

variable {I : Interpolator K} {P : MvPolynomial ℕ K} {xs : List K} {v : K}

/-- **The interpolant is the polynomial.** -/
theorem Interpolates.eq_evalAt (hP : ∀ k, P.degreeOf k ≤ 1) (hfield : I.Tabulates P)
    (h : I.Interpolates xs v) : v = evalAt P (I.coordinates xs) := by
  obtain ⟨-, ps, hps, rfl⟩ := h
  refine Cell.value_eq_evalAt hP hps [] fun ix zs hzs => ?_
  rw [NdArray.entry, hfield _ _ hzs]
  rfl

/-! ## A field that tabulates a polynomial -/

/-- One plus the product of both coordinates, at the grid points of two axes. -/
def productField : NdArray ℚ := ⟨[3, 2], #[1, 1, 5 / 2, 1, 11 / 2, 1], rfl⟩

theorem degreeOf_one_add_mul_le (k : ℕ) :
    (1 + MvPolynomial.X 0 * MvPolynomial.X 1 : MvPolynomial ℕ ℚ).degreeOf k ≤ 1 := by
  refine (MvPolynomial.degreeOf_add_le _ _ _).trans (max_le (by simp) ?_)
  refine (MvPolynomial.degreeOf_mul_le _ _ _).trans ?_
  rw [MvPolynomial.degreeOf_X, MvPolynomial.degreeOf_X]
  split_ifs <;> omega

theorem tabulates_productField :
    (twoAxes productField).Tabulates (1 + MvPolynomial.X 0 * MvPolynomial.X 1) := by
  intro ix zs h
  cases ix with
  | nil => cases h
  | cons i is =>
    obtain ⟨y, ys, hy, hys, rfl⟩ := Sample.entries?_cons_eq_some_iff.1 h
    cases is with
    | nil => cases hys
    | cons j js =>
      obtain ⟨z, zs, hz, hzs, rfl⟩ := Sample.entries?_cons_eq_some_iff.1 hys
      cases js with
      | cons => cases hzs
      | nil =>
        cases hzs
        have hi : i < 3 := (List.getElem?_eq_some_iff.1 hy).1
        have hj : j < 2 := (List.getElem?_eq_some_iff.1 hz).1
        -- All six grid points.
        interval_cases i <;> interval_cases j <;> cases hy <;> cases hz <;>
          norm_num [evalAt, Elementary.log, twoAxes, productField, NdArray.get?, NdArray.place?]

/-! ## What the protocols return -/

variable [IsStrictOrderedRing K]

/-- Only accepted points in rows of one length have values along them. -/
theorem exists_along_iff_uniform (hI : I.WellFormed) {xss : List (List K)} :
    (∃ a, I.along (xss.map NdArray.vector) none = .ok a) ↔
      I.AcceptsAll xss ∧ ∃ m, ∀ xs ∈ xss, xs.length = m := by
  constructor
  · rintro ⟨a, ha⟩
    exact ⟨acceptsAll_of_along hI ha, exists_length_of_along hI ha⟩
  · rintro ⟨h, m, hlen⟩
    exact (exists_along_iff hI hlen).2 h

/-- **A multilinear field is reproduced.**  Let the field tabulate a polynomial of degree
at most one in each variable.

* At a point there is a value exactly when every axis accepts its coordinate, and the
  value is the polynomial at the point.
* Along a sequence there are values exactly when every axis accepts all its coordinates
  and the rows are equally long, and each value is the polynomial at the point there.
* Onto a grid there are values exactly when every axis accepts all its coordinates, and
  each value is the polynomial at the point of the grid. -/
theorem multilinear_reproduced (hI : I.Made) (hP : ∀ k, P.degreeOf k ≤ 1)
    (hfield : I.Tabulates P) :
    (∀ (xs : List K) (v : K), I.valueAt (xs.map NdArray.scalar) = .ok v ↔
      I.Accepts xs ∧ v = evalAt P (I.coordinates xs)) ∧
    (∀ cs : List (List K),
      ((∃ a, I.along (cs.map NdArray.vector) none = .ok a) ↔
        I.AcceptsAll cs ∧ ∃ m, ∀ c ∈ cs, c.length = m) ∧
      ∀ a, I.along (cs.map NdArray.vector) none = .ok a →
        ∃ m, (∀ c ∈ cs, c.length = m) ∧ a.shape = [m] ∧
          ∀ i < m, ∀ xs, List.Forall₂ (fun (row : List K) x => row[i]? = some x) cs xs →
            a.get? [i] = some (evalAt P (I.coordinates xs))) ∧
    (∀ hs : List (List K),
      ((∃ a, I.onto (hs.map NdArray.vector) none = .ok a) ↔ I.AcceptsAll hs) ∧
      ∀ a, I.onto (hs.map NdArray.vector) none = .ok a → a.shape = hs.map List.length ∧
        ∀ ix xs, Sample.entries? hs ix = some xs →
          a.get? ix = some (evalAt P (I.coordinates xs))) := by
  have hI := hI.wellFormed
  refine ⟨?_, ?_, ?_⟩
  · intro xs v
    rw [valueAt_eq_ok_iff hI]
    constructor
    · intro h
      exact ⟨h.1, h.eq_evalAt hP hfield⟩
    · rintro ⟨haccepts, rfl⟩
      obtain ⟨w, -, hw⟩ := exists_valueAt hI haccepts
      rwa [← hw.eq_evalAt hP hfield]
  · intro cs
    refine ⟨exists_along_iff_uniform hI, fun a ha => ?_⟩
    obtain ⟨m, hlen⟩ := exists_length_of_along hI ha
    refine ⟨m, hlen, (along_eq_ok hI hlen ha).1, fun i hi xs hxs => ?_⟩
    obtain ⟨v, hv, hvalue⟩ := exists_get?_along hI hlen ha hi hxs
    rw [hv, hvalue.eq_evalAt hP hfield]
  · intro hs
    refine ⟨exists_onto_iff hI, fun a ha => ⟨(onto_eq_ok hI ha).1, fun ix xs hxs => ?_⟩⟩
    obtain ⟨v, hv, hvalue⟩ := exists_get?_onto hI ha hxs
    rw [hv, hvalue.eq_evalAt hP hfield]

/-- Beyond the end of the ascending axis, and between the points of the logarithmic one. -/
theorem multilinear_reproduced_two_axes :
    (twoAxes productField).Made ∧
      (∀ k, (1 + MvPolynomial.X 0 * MvPolynomial.X 1 : MvPolynomial ℕ ℚ).degreeOf k ≤ 1) ∧
      (twoAxes productField).Tabulates (1 + MvPolynomial.X 0 * MvPolynomial.X 1) ∧
      (twoAxes productField).valueAt [NdArray.scalar (7 / 2), NdArray.scalar (3 / 2)] =
        .ok (47 / 12) := by
  have hmade : (twoAxes productField).Made := made_twoAxes rfl
  refine ⟨hmade, degreeOf_one_add_mul_le, tabulates_productField, ?_⟩
  obtain ⟨hat, -, -⟩ := multilinear_reproduced hmade degreeOf_one_add_mul_le tabulates_productField
  have hok : ((twoAxes productField).valueAt ([7 / 2, 3 / 2].map NdArray.scalar)).isOk = true := by
    decide +kernel
  cases hv : (twoAxes productField).valueAt ([7 / 2, 3 / 2].map NdArray.scalar) with
  | error f =>
    rw [hv] at hok
    cases hok
  | ok v =>
    obtain ⟨-, rfl⟩ := (hat [7 / 2, 3 / 2] v).1 hv
    refine hv.trans (congrArg Except.ok ?_)
    norm_num [evalAt, coordinates, twoAxes, Axis.coordinate, Elementary.log]

end Interpolator
end Regrid
