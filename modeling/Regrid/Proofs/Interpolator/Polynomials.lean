import Regrid.Proofs.Interpolator.GridPoints
import Regrid.Proofs.Interpolator.Independence
import Regrid.Proofs.Interpolator.Mirrored
import Regrid.Proofs.Polynomial.Windows

/-!
# Polynomials along an axis

With one axis and enough points for the stencil, an interpolator stands for one more function of
queries (`Interpolator.PolyInterpolates`): where the axis accepts a query, it is the value at the
coordinate of the polynomial around a position that fits it.  It does not matter around which
(`OneAxis.unique`), and so it is the position that a location of this query alone gives
(`OneAxis.exists_interpolate`).  A row of queries is answered exactly if the axis accepts all of them
(`OneAxis.exists_polyAlong_iff`), and then entry by entry with the values of the function
(`OneAxis.values_of_polyAlong`); else one of them is out of range (`OneAxis.polyAlong_refused`).

A field that tabulates a polynomial of less degree than the stencil has points is the polynomial, at
every query that is accepted (`polynomials_reproduced`).
-/
open scoped Polynomial

namespace Regrid
namespace Interpolator

/-! ## Rows of located queries -/

/-- The only axis is an axis. -/
theorem mem_of_axes_eq {α : Type} {I : Interpolator α} {a : Axis α} (haxes : I.axes = [a]) :
    a ∈ I.axes := by
  rw [haxes]
  exact List.mem_singleton_self a

/-- One polynomial for each query: around its position, and at its coordinate. -/
theorem polyAlong_eq {α : Type} [Scalar α] {I : Interpolator α} {a : Axis α} (haxes : I.axes = [a])
    (v : NdArray α) :
    I.polyAlong v =
      Grid.checkReference (Polynomial.leastPoints (some I.config.stencil))
          (I.config.stencil.name ++ " polynomial on axis 0") a.located >>= fun _ =>
        I.positions 0 a v >>= fun column =>
          ((column.toList.zip (v.toList.map a.coordinate)).mapM fun q =>
            I.polynomialAt a.located I.field.toList q.1 q.2) >>= fun values =>
              .ok (NdArray.vector values) := by
  have hlocated : (if a.logarithmic then v.toList.map Scalar.log else v.toList) =
      v.toList.map a.coordinate := by
    by_cases hlog : a.logarithmic = true
    · rw [if_pos hlog]
      exact List.map_congr_left fun x _ => (if_pos hlog).symm
    · rw [if_neg hlog]
      exact ((List.map_congr_left fun x _ => if_neg hlog).trans (List.map_id _)).symm
  rw [polyAlong, haxes]
  simp only [hlocated]
  rfl

variable {K : Type} [Field K] [LinearOrder K] [FloorRing K] [Elementary K]

/-! ## The function of the queries -/

/-- **The value at a query of the polynomial around it**, if the axis accepts the query. -/
def PolyInterpolates (I : Interpolator K) (a : Axis K) (x v : K) : Prop :=
  a.Accepts I.config.extpolfac x ∧ ∃ p, Grid.Fits a.located (a.coordinate x) p ∧
    v = (I.config.stencil.around a.located I.field.toList p).eval (a.coordinate x)

variable {I : Interpolator K} {a : Axis K} {x v w : K}

/-- **An interpolator for local polynomials**: it has one axis, with enough points for the
stencil. -/
structure OneAxis (I : Interpolator K) (a : Axis K) : Prop where
  wellFormed : I.WellFormed
  axes : I.axes = [a]
  enough : I.config.stencil.size ≤ a.points.length

namespace OneAxis

variable (h : I.OneAxis a)
include h

theorem mem_axes : a ∈ I.axes := mem_of_axes_eq h.axes

theorem exists_ordered : ∃ d, Grid.Ordered d a.located := (h.wellFormed.ordered a h.mem_axes).2

theorem size_le : I.config.stencil.size ≤ a.located.length := by
  rw [Axis.length_located]
  exact h.enough

theorem shape_field : I.field.shape = [a.located.length] := by
  rw [h.wellFormed.shape, h.axes, Axis.length_located]
  rfl

theorem length_field : I.field.toList.length = a.located.length := by
  rw [NdArray.length_toList, h.shape_field, volume_singleton]

variable [IsStrictOrderedRing K]

/-- **A query has one value only**, around whichever of its positions. -/
theorem unique (hv : I.PolyInterpolates a x v) (hw : I.PolyInterpolates a x w) : v = w := by
  obtain ⟨d, hord⟩ := h.exists_ordered
  obtain ⟨-, p, hp, rfl⟩ := hv
  obtain ⟨-, q, hq, rfl⟩ := hw
  exact Stencil.eval_around_eq hord h.size_le hp hq

/-- At a grid point, the entry of the field. -/
theorem getElem?_field_eq (hv : I.PolyInterpolates a x v) {j : Nat} (hx : a.points[j]? = some x) :
    I.field.toList[j]? = some v := by
  obtain ⟨d, hord⟩ := h.exists_ordered
  obtain ⟨-, p, hp, rfl⟩ := hv
  have hz : a.located[j]? = some (a.coordinate x) := by
    rw [Axis.located_eq_map, List.getElem?_map, hx, Option.map_some]
  have hj : j < a.located.length := (List.getElem?_eq_some_iff.1 hz).1
  have hpoint : Grid.point a.located j = a.coordinate x := by
    rw [Grid.getElem?_eq_point hj] at hz
    exact Option.some.inj hz
  rw [← hpoint] at hp ⊢
  rw [Stencil.eval_around_point hord h.size_le hj hp, List.getD_eq_getElem?_getD,
    List.getElem?_eq_getElem (by rwa [h.length_field])]
  rfl

omit [IsStrictOrderedRing K] in
/-- In a field that tabulates a polynomial of less degree than the stencil has points, the
polynomial. -/
theorem eq_eval {f : K[X]} (hf : f.degree < I.config.stencil.size)
    (hfield : I.field.toList = a.located.map (f.eval ·)) (hv : I.PolyInterpolates a x v) :
    v = f.eval (a.coordinate x) := by
  obtain ⟨d, hord⟩ := h.exists_ordered
  obtain ⟨-, p, hp, rfl⟩ := hv
  rw [hfield, Stencil.around_map_eval hord h.size_le hp.nonneg hp.last hf]

/-! ## The rows -/

/-- Only the queries are left to check. -/
theorem polyAlong_eq_positions (u : NdArray K) :
    I.polyAlong u = I.positions 0 a u >>= fun column =>
      ((column.toList.zip (u.toList.map a.coordinate)).mapM fun q =>
        I.polynomialAt a.located I.field.toList q.1 q.2) >>= fun values =>
          .ok (NdArray.vector values) := by
  obtain ⟨d, hord⟩ := h.exists_ordered
  have hn := h.size_le
  have hthree := I.config.stencil.three_le_size
  have hreference : ∀ which, Grid.checkReference
      (Polynomial.leastPoints (some I.config.stencil)) which a.located = .ok d := by
    intro which
    rw [Stencil.leastPoints_eq]
    exact Grid.checkReference_eq_ok_iff.2 ⟨by omega, by omega, hord⟩
  rw [polyAlong_eq h.axes, hreference, Outcome.ok_bind]

/-- A position that fits has a polynomial, which has its value. -/
theorem polynomialAt_eq_ok {z : K} {p : Position K} (hp : Grid.Fits a.located z p) :
    I.polynomialAt a.located I.field.toList p z =
      .ok ((I.config.stencil.around a.located I.field.toList p).eval z) := by
  obtain ⟨d, hord⟩ := h.exists_ordered
  have hn : (I.config.stencil.size : Int) ≤ a.located.length := Int.ofNat_le.2 h.size_le
  obtain ⟨hfirst, hfull, -, -⟩ := I.config.stencil.first_bounds hn hp.nonneg hp.last
  have hthree := I.config.stencil.three_le_size
  obtain ⟨e, he, hvalue⟩ := Backend.exists_polynomial_stretch hord.nodup h.length_field hfirst
    (show 0 < I.config.stencil.size by omega) hfull z
  rw [polynomialAt, I.config.stencil.window_eq_ok hn hp.nonneg hp.last]
  simp only [Outcome.ok_bind, he]
  rw [hvalue]
  rfl

/-- Positions that fit give the values at their queries. -/
theorem exists_values {xs : List K} {ps : List (Position K)}
    (haccepts : ∀ x ∈ xs, a.Accepts I.config.extpolfac x)
    (hfits : List.Forall₂ (fun x p => Grid.Fits a.located (a.coordinate x) p) xs ps) :
    ∃ values, ((ps.zip (xs.map a.coordinate)).mapM fun q =>
        I.polynomialAt a.located I.field.toList q.1 q.2) = .ok values ∧
      List.Forall₂ (I.PolyInterpolates a) xs values := by
  induction hfits with
  | nil => exact ⟨[], rfl, .nil⟩
  | @cons x p xs ps head _ ih =>
    obtain ⟨hx, hxs⟩ := List.forall_mem_cons.1 haccepts
    obtain ⟨values, hvalues, hall⟩ := ih hxs
    refine ⟨_, ?_, .cons ⟨hx, p, head, rfl⟩ hall⟩
    rw [List.map_cons, List.zip_cons_cons, List.mapM_cons, h.polynomialAt_eq_ok head, hvalues]
    rfl

/-- Accepted queries get the values at them, in their order. -/
theorem exists_polyAlong {u : NdArray K} (hu : u.rank ≤ 1)
    (haccepts : ∀ x ∈ u.toList, a.Accepts I.config.extpolfac x) :
    ∃ values, I.polyAlong u = .ok (NdArray.vector values) ∧
      List.Forall₂ (I.PolyInterpolates a) u.toList values := by
  obtain ⟨c, hc, hfits⟩ := exists_positions h.wellFormed h.mem_axes 0 haccepts
  obtain ⟨values, hvalues, hall⟩ := h.exists_values haccepts hfits
  refine ⟨values, ?_, hall⟩
  rw [h.polyAlong_eq_positions, positions_eq_vector 0 a hu, hc, Outcome.ok_bind, hvalues,
    Outcome.ok_bind]

/-- A query that is not accepted is out of range. -/
theorem polyAlong_refused {u : NdArray K} (hu : u.rank ≤ 1)
    (haccepts : ¬ ∀ x ∈ u.toList, a.Accepts I.config.extpolfac x) :
    Outcome.Refused .outOfRange (I.polyAlong u) := by
  rw [h.polyAlong_eq_positions, positions_eq_vector 0 a hu]
  exact (positions_refused h.wellFormed h.mem_axes 0 haccepts).bind _

/-- What a row is answered. -/
theorem values_of_polyAlong {u r : NdArray K} (hr : I.polyAlong u = .ok r) :
    u.rank ≤ 1 ∧ r.shape = [u.toList.length] ∧
      List.Forall₂ (I.PolyInterpolates a) u.toList r.toList := by
  have hu : u.rank ≤ 1 := by
    rw [h.polyAlong_eq_positions] at hr
    obtain ⟨c, hc, -⟩ := Outcome.bind_eq_ok_iff.1 hr
    exact rank_le_one_of_positions hc
  by_cases haccepts : ∀ x ∈ u.toList, a.Accepts I.config.extpolfac x
  · obtain ⟨values, hvalues, hall⟩ := h.exists_polyAlong hu haccepts
    rw [hr] at hvalues
    obtain rfl : r = NdArray.vector values := Except.ok.inj hvalues
    rw [NdArray.toList_vector, hall.length_eq]
    exact ⟨hu, rfl, hall⟩
  · exact absurd ⟨r, hr⟩ (h.polyAlong_refused hu haccepts).not_ok

/-- **A row is answered** exactly if the axis accepts all of its queries. -/
theorem exists_polyAlong_iff {u : NdArray K} (hu : u.rank ≤ 1) :
    (∃ r, I.polyAlong u = .ok r) ↔ ∀ x ∈ u.toList, a.Accepts I.config.extpolfac x := by
  constructor
  · rintro ⟨r, hr⟩
    obtain ⟨-, -, hall⟩ := h.values_of_polyAlong hr
    intro x hx
    obtain ⟨i, hi, rfl⟩ := List.mem_iff_getElem.1 hx
    exact ((List.forall₂_iff_get.1 hall).2 i hi (by rwa [← hall.length_eq])).1
  · intro haccepts
    obtain ⟨values, hvalues, -⟩ := h.exists_polyAlong hu haccepts
    exact ⟨_, hvalues⟩

/-- **The value at a query** is that at the position it gets when it is located on its own. -/
theorem exists_interpolate (hv : I.PolyInterpolates a x v) :
    ∃ c p e, I.locate 0 (NdArray.scalar x) false = .ok c ∧ c.get 0 = .ok p ∧
      Polynomial.interpolate (NdArray.vector a.located) I.field (a.coordinate x) p
        (some I.config.stencil) = .ok e ∧ v = e.value := by
  obtain ⟨d, hord⟩ := h.exists_ordered
  obtain ⟨c, hc, hfits⟩ := exists_positions h.wellFormed h.mem_axes 0
    (List.forall_mem_singleton.2 hv.1)
  obtain ⟨p, rest, hp, -, hps⟩ := List.forall₂_cons_left_iff.1 hfits
  obtain ⟨e, he, hvalue⟩ := Polynomial.exists_interpolate hord h.size_le h.shape_field hp.nonneg
    hp.last (a.coordinate x)
  refine ⟨c, p, e, ?_, get_zero_eq_ok (by rw [hps]; rfl), he, ?_⟩
  · have hfirst : I.axes[0]? = some a := by
      rw [h.axes]
      rfl
    have hscalar : I.positions 0 a (NdArray.scalar x) = .ok c :=
      (positions_eq_vector 0 a (v := NdArray.scalar x) (Nat.zero_le 1)).trans hc
    exact (locate_eq_positions hfirst (NdArray.scalar x)).trans (by rw [hscalar]; rfl)
  · rw [hvalue]
    exact h.unique hv ⟨hv.1, p, hp, rfl⟩

end OneAxis

variable [IsStrictOrderedRing K]

/-! ## Polynomials are reproduced -/

/-- **Polynomials are reproduced** if their degree is less than the number of points of the stencil.

* Take ordinates of a polynomial at the points of an ordered grid with enough points, and any
  position that has a bracket of the grid, whatever its distances are.  The interpolation gives the
  value of the polynomial at every query.
* Take an interpolator with one axis, whose field has the ordinates of a polynomial at the points that
  values are located among.  A row is answered exactly if its queries are accepted, beyond the ends of
  the axis as well, and then with the values of the polynomial at their coordinates. -/
theorem polynomials_reproduced {f : K[X]} :
    (∀ (s : Stencil) (d : Direction) (grid : List K), Grid.Ordered d grid →
      s.size ≤ grid.length → f.degree < s.size →
      ∀ p : Position K, 0 ≤ p.idx → p.idx ≤ grid.length - 2 → ∀ x,
        ∃ e, Polynomial.interpolate (NdArray.vector grid) (NdArray.vector (grid.map (f.eval ·))) x p
          (some s) = .ok e ∧ e.value = f.eval x) ∧
    ∀ (I : Interpolator K) (a : Axis K), I.Made → I.axes = [a] →
      I.config.stencil.size ≤ a.points.length → f.degree < I.config.stencil.size →
      I.field.toList = a.located.map (f.eval ·) →
      ∀ u r : NdArray K, u.rank ≤ 1 → (I.polyAlong u = .ok r ↔
        (∀ x ∈ u.toList, a.Accepts I.config.extpolfac x) ∧
          r = NdArray.vector (u.toList.map fun x => f.eval (a.coordinate x))) := by
  constructor
  · intro s d grid hord hn hf p h0 hidx x
    have hlast : p.idx + 2 ≤ grid.length := by omega
    have hshape : (NdArray.vector (grid.map (f.eval ·))).shape = [grid.length] := by
      rw [NdArray.shape_vector, List.length_map]
    obtain ⟨e, he, hvalue⟩ := Polynomial.exists_interpolate hord hn hshape h0 hlast x
    refine ⟨e, he, ?_⟩
    rw [hvalue, NdArray.toList_vector, Stencil.around_map_eval hord hn h0 hlast hf]
  · intro I a hI haxes hn hf hfield u r hu
    have h : I.OneAxis a := ⟨hI.wellFormed, haxes, hn⟩
    have hvalues : ∀ values, List.Forall₂ (I.PolyInterpolates a) u.toList values →
        values = u.toList.map fun x => f.eval (a.coordinate x) := by
      intro values hall
      have heq := List.forall₂_map_left_iff.2
        (hall.imp fun x v hv => (h.eq_eval hf hfield hv).symm)
      rw [List.forall₂_eq_eq_eq] at heq
      exact heq.symm
    constructor
    · intro hr
      refine ⟨(h.exists_polyAlong_iff hu).1 ⟨r, hr⟩, ?_⟩
      obtain ⟨-, hshape, hall⟩ := h.values_of_polyAlong hr
      refine NdArray.ext_toList ?_ ?_
      · rw [hshape, NdArray.shape_vector, List.length_map]
      · rw [NdArray.toList_vector, hvalues _ hall]
    · rintro ⟨haccepts, rfl⟩
      obtain ⟨values, hr, hall⟩ := h.exists_polyAlong hu haccepts
      rw [hr, hvalues values hall]

/-- Settings with a stencil and a logarithmic axis. -/
def logFirst (s : Stencil) : Settings ℚ :=
  { Settings.default with stencil := some s, logAxes := [.whole 0] }

/-- An interpolator with a descending logarithmic axis. -/
def oneAxis (s : Stencil) (field : NdArray ℚ) : Interpolator ℚ where
  axes := [⟨[4, 3, 2, 1], true⟩]
  field := field
  config := ⟨1 / 2, 1 / 1000, ⟨true, 1 / 1000000⟩, .keep, .reference, s, [⟨0, false⟩]⟩
  backend := .reference

theorem config_oneAxis (s : Stencil) (field : NdArray ℚ) :
    Config.make (logFirst s) = .ok (oneAxis s field).config := by
  norm_num [logFirst, Config.make, Settings.default, Config.isTolerance, Config.known,
    AxisNumber.axis, Grid.defaultExtpolfac, Scalar.half, Position.defaultTolerance,
    SumCheck.defaultTolerance, Scalar.reciprocal, oneAxis]

/-- Four points are the grid of a field of that shape, whatever else the configuration says. -/
theorem make_oneAxis {field : NdArray ℚ} (h : field.shape = [4]) {cfg : Config ℚ}
    (hlog : cfg.logAxes = [⟨0, false⟩]) {b : Backend}
    (hb : (Backend.build cfg.backend : Except (Fault ℚ) Backend) = .ok b) :
    make [NdArray.vector [4, 3, 2, 1]] field cfg =
      .ok ⟨[⟨[4, 3, 2, 1], true⟩], field, cfg, b⟩ := by
  have hlogarithmic : cfg.isLogarithmic 0 = true := by
    rw [Config.isLogarithmic, hlog]
    rfl
  refine make_eq_ok_iff_passes.2 ⟨⟨by decide, by decide, h, ?_, ?_⟩, hb, ?_, rfl, rfl⟩
  · intro k hk
    rw [Config.isLogarithmic, hlog, List.any_cons, List.any_nil, Bool.or_false] at hk
    have hk : 0 = k := beq_iff_eq.1 hk
    exact hk ▸ Nat.zero_lt_one
  · rw [List.map_singleton, NdArray.toList_vector, axesFrom, List.mapIdx_cons, hlogarithmic]
    refine List.forall_mem_singleton.2 ⟨fun _ => by decide +kernel, by decide, .descending, ?_⟩
    decide +kernel
  · rw [List.map_singleton, NdArray.toList_vector, axesFrom, List.mapIdx_cons, hlogarithmic]
    rfl

/-- A field of cubes, between the points and beyond the last one. -/
theorem polynomials_reproduced_cubes :
    let z : List ℚ := [15 / 4, 8 / 3, 3 / 2, 0]
    let I := oneAxis .cubic4 (NdArray.vector (z.map (· ^ 3)))
    (∃ e, Polynomial.interpolate (NdArray.vector z) I.field 5 ⟨0, 7, 1⟩ (some .cubic4) = .ok e ∧
      e.value = 125) ∧
    I.Made ∧ I.polyAlong (NdArray.vector [5 / 2, 3 / 4]) =
      .ok (NdArray.vector [(21 / 10) ^ 3, (- 7 / 12) ^ 3]) := by
  intro z I
  have hdegree : (Polynomial.X ^ 3 : ℚ[X]).degree < (Stencil.cubic4.size : Nat) := by
    rw [Polynomial.degree_X_pow]
    decide
  have hfield : z.map (· ^ 3) = z.map ((Polynomial.X ^ 3 : ℚ[X]).eval ·) := by
    simp only [Polynomial.eval_pow, Polynomial.eval_X]
  have hlocated : (⟨[4, 3, 2, 1], true⟩ : Axis ℚ).located = z := by decide +kernel
  have hmade : I.Made :=
    ⟨logFirst .cubic4, _, _, I.field, config_oneAxis .cubic4 I.field, make_oneAxis rfl rfl rfl⟩
  obtain ⟨hinterpolate, halong⟩ := polynomials_reproduced (f := (Polynomial.X ^ 3 : ℚ[X]))
  refine ⟨?_, hmade, ?_⟩
  · obtain ⟨e, he, hvalue⟩ := hinterpolate .cubic4 .descending z (by decide +kernel) (by decide)
      hdegree ⟨0, 7, 1⟩ (by decide) (by decide) 5
    rw [← hfield] at he
    refine ⟨e, he, ?_⟩
    rw [hvalue, Polynomial.eval_pow, Polynomial.eval_X]
    norm_num
  · refine (halong I ⟨[4, 3, 2, 1], true⟩ hmade rfl (by decide) hdegree ?_ _ _ (by decide)).2
      ⟨?_, ?_⟩
    · rw [hlocated, ← hfield]
      exact NdArray.toList_vector _
    · rw [NdArray.toList_vector]
      exact Axis.accepts_of_inEnvelope .descending (1 / 2) (by decide +kernel) (by decide)
        (by decide +kernel)
    · rw [NdArray.toList_vector]
      norm_num [Axis.coordinate, Elementary.log]

end Interpolator
end Regrid
