import Regrid.Proofs.Interpolator.Answered
import Regrid.Proofs.Interpolator.Polynomials

/-!
# Polynomials, query by query

A row of queries is answered with local polynomials one query at a time: what is answered to one of
them depends neither on the others and their order, nor on what moves brackets, since it is the value
around the position of a single location, and at a grid point it is the entry of the field
(`Interpolator.polyAlong_pointwise`).

The only thing that can go wrong is that a query is out of range.  This is so for infinite queries
too, and for those that are no numbers, whatever is in the field: a position that was found has a
window inside the grid, whose abscissas have gaps as soon as the query is finite
(`Extended.apart_finite`), and only finite queries have positions
(`Ready.exists_polyAlong`, `Ready.polyAlong_refused`).
-/
namespace Regrid

/-! ## Tables of finite abscissas -/

namespace Extended

variable {K : Type} [Field K] [LinearOrder K] [FloorRing K] [Elementary K]

/-- **Finite abscissas that differ have gaps** at a finite query. -/
theorem apart_finite {points : List K} (hpoints : points.Nodup) (z : K) {m : Nat} (hpos : 0 < m) :
    Neville.Apart (points.map finite) (finite z) m := by
  intro i near far hnear hfar
  rw [List.getElem?_map] at hnear hfar
  obtain ⟨x, hx, rfl⟩ := Option.map_eq_some_iff.1 hnear
  obtain ⟨y, hy, rfl⟩ := Option.map_eq_some_iff.1 hfar
  have hgap := Neville.apart_of_nodup (x := z) hpoints hpos i x y hx hy
  rw [Neville.gap_eq, Exact.eq_eq, Exact.zero_eq, decide_eq_false_iff_not] at hgap
  rw [Neville.gap, finite_sub, finite_sub, finite_sub, zero_eq, sub_sub_sub_cancel_right]
  exact decide_eq_false hgap

/-- Every backend has a polynomial through a window of finite points, at a finite query. -/
theorem exists_polynomial_stretch (b : Backend) {points : List K} (hpoints : points.Nodup)
    {ys : List (Extended K)} (hlen : ys.length = points.length) {start : Int} (h0 : 0 ≤ start)
    {count : Nat} (hpos : 0 < count) (hend : start + count ≤ points.length) (z : K) :
    ∃ e, b.polynomial (Polynomial.stretch start count (points.map finite))
      (Polynomial.stretch start count ys) (finite z) = .ok e := by
  have hstretch : Polynomial.stretch start count (points.map finite) =
      (Polynomial.stretch start count points).map finite := by
    rw [Polynomial.stretch, Polynomial.stretch, List.map_take, List.map_drop]
  have hlenx := Polynomial.length_stretch h0 hend
  have hleny : (Polynomial.stretch start count ys).length = count :=
    Polynomial.length_stretch h0 (by rwa [hlen])
  rw [hstretch]
  apply Backend.exists_polynomial
  · rw [← List.length_pos_iff, List.length_map, hlenx]
    exact hpos
  · rw [List.length_map, hlenx, hleny]
  · intro m hm _
    exact apart_finite (hpoints.sublist Polynomial.stretch_sublist) z hm

end Extended

namespace Interpolator

variable {K : Type} [Field K] [LinearOrder K] [IsStrictOrderedRing K] [FloorRing K] [Elementary K]

/-! ## Queries that are infinite or no numbers -/

namespace Ready

open Extended

variable {I : Interpolator (Extended K)} {factor tolerance : K} {a : Axis (Extended K)}
  (hI : I.Ready factor tolerance) (haxes : I.axes = [a])
  (hn : I.config.stencil.size ≤ a.points.length)
include hI haxes hn

omit [IsStrictOrderedRing K] in
/-- Around a sound position there is a polynomial, and it has a value at every finite query. -/
theorem exists_polynomialAt {p : Position (Extended K)} (hp : Extended.Sound a.points.length p)
    (z : K) : ∃ y, I.polynomialAt a.located I.field.toList p (finite z) = .ok y := by
  obtain ⟨points, hpoints⟩ := hI.reference a (mem_of_axes_eq haxes)
  obtain ⟨d, hord⟩ := hpoints.exists_ordered
  obtain ⟨q, ⟨hamong, -⟩, rfl⟩ := hp
  have hfield : I.field.toList.length = points.length := by
    rw [NdArray.length_toList, hI.shape, haxes, ← hpoints.length_eq, Axis.length_located]
    exact volume_singleton _
  rw [← Axis.length_located] at hn
  obtain ⟨h0, hlast⟩ : 0 ≤ q.finite.idx ∧ q.finite.idx + 2 ≤ (a.located.length : Int) := by
    rw [Axis.length_located]
    exact hamong
  have hthree := I.config.stencil.three_le_size
  obtain ⟨hfirst, hfull, -, -⟩ := I.config.stencil.first_bounds (Int.ofNat_le.2 hn) h0 hlast
  obtain ⟨e, he⟩ := exists_polynomial_stretch I.backend hord.nodup hfield hfirst
    (show 0 < I.config.stencil.size by omega) (by rwa [← hpoints.length_eq]) z
  rw [← hpoints.finite] at he
  refine ⟨e.value, ?_⟩
  rw [polynomialAt, I.config.stencil.window_eq_ok (Int.ofNat_le.2 hn) h0 hlast]
  simp only [Outcome.ok_bind, he]
  rfl

/-- Only the queries are left to check. -/
theorem polyAlong_eq_positions (u : NdArray (Extended K)) :
    I.polyAlong u = I.positions 0 a u >>= fun column =>
      ((column.toList.zip (u.toList.map a.coordinate)).mapM fun q =>
        I.polynomialAt a.located I.field.toList q.1 q.2) >>= fun values =>
          .ok (NdArray.vector values) := by
  obtain ⟨points, hpoints⟩ := hI.reference a (mem_of_axes_eq haxes)
  have hlen : Polynomial.leastPoints (some I.config.stencil) ≤ points.length := by
    rw [Stencil.leastPoints_eq, ← hpoints.length_eq, Axis.length_located]
    exact Int.ofNat_le.2 hn
  obtain ⟨d, hreference⟩ := (exists_checkReference_iff _ _).2 ⟨points, hpoints, hlen⟩
  rw [polyAlong_eq haxes, hreference, Outcome.ok_bind]

/-- **Admitted queries** are answered. -/
theorem exists_polyAlong {u : NdArray (Extended K)} (hu : u.rank ≤ 1)
    (hadmits : ∀ x ∈ u.toList, a.Admits I.config.extpolfac x) : ∃ r, I.polyAlong u = .ok r := by
  obtain ⟨c, hc, -, hsound⟩ := hI.exists_positions (mem_of_axes_eq haxes) 0 hadmits
  have hentries : ∀ q ∈ c.toList.zip (u.toList.map a.coordinate),
      ∃ y, I.polynomialAt a.located I.field.toList q.1 q.2 = .ok y := by
    intro q hq
    obtain ⟨hposition, hquery⟩ := List.of_mem_zip hq
    obtain ⟨x, hx, hcoordinate⟩ := List.mem_map.1 hquery
    obtain ⟨points, factor, -, -, z, -, hz⟩ := (hadmits x hx).inRange
    rw [← hcoordinate, hz]
    exact hI.exists_polynomialAt haxes hn (hsound q.1 hposition) z
  obtain ⟨values, hvalues, -⟩ := Outcome.exists_mapM hentries
  refine ⟨NdArray.vector values, ?_⟩
  rw [hI.polyAlong_eq_positions haxes hn, positions_eq_vector 0 a hu, hc, Outcome.ok_bind, hvalues,
    Outcome.ok_bind]

/-- **A query that is not admitted** is out of range. -/
theorem polyAlong_refused {u : NdArray (Extended K)} (hu : u.rank ≤ 1)
    (hadmits : ¬ ∀ x ∈ u.toList, a.Admits I.config.extpolfac x) :
    Outcome.Refused .outOfRange (I.polyAlong u) := by
  have ha := mem_of_axes_eq haxes
  rw [hI.polyAlong_eq_positions haxes hn, positions_eq_vector 0 a hu]
  exact (hI.positions_refused ha 0 hadmits).bind _

end Ready

/-! ## Query by query -/

/-- Interpolators with axis, field and stencil in common answer a query alike, in whatever rows and
places it is asked. -/
theorem OneAxis.getElem?_polyAlong_eq {I J : Interpolator K} {a : Axis K} (hI : I.OneAxis a)
    (hJ : J.OneAxis a) (hfield : J.field = I.field) (hstencil : J.config.stencil = I.config.stencil)
    {u r u' r' : NdArray K} (hr : I.polyAlong u = .ok r) (hr' : J.polyAlong u' = .ok r') {i j : Nat}
    {x : K} (hi : u.toList[i]? = some x) (hj : u'.toList[j]? = some x) :
    r.toList[i]? = r'.toList[j]? := by
  obtain ⟨-, -, hvalues⟩ := hI.values_of_polyAlong hr
  obtain ⟨-, -, hvalues'⟩ := hJ.values_of_polyAlong hr'
  obtain ⟨v, hv, hx⟩ := Choices.exists_getElem? hvalues hi
  obtain ⟨w, hw, haccepts, p, hp, hvalue⟩ := Choices.exists_getElem? hvalues' hj
  -- The value that the other one gives is a value of this one, so there is only one.
  have hx' : I.PolyInterpolates a x w := ⟨hx.1, p, hp, by rw [hvalue, hfield, hstencil]⟩
  rw [hv, hw, hI.unique hx hx']

/-- **Polynomials are evaluated query by query.**  Take settings, and others that differ at most in
the factor of extrapolation, the tie-break, the backend and whether weights are checked; and with each
of them an interpolator for the same grids and the same field, with one axis that has enough points
for the stencil.

* A row is answered with one value for each query: that of the interpolation at the position which the
  query gets when it is located on its own.
* A query is answered alike by both, in whatever rows and at whatever places it is asked.
* Grid points are accepted, and answered with the entry of the field.
* A row is answered exactly if all of its queries are accepted, and else refused because one is out of
  range.
* The same is so in exact arithmetic with infinities, whatever the field and the queries are. -/
theorem polyAlong_pointwise {settings : Settings K} {extpolfac : K} {tieBreak : Option TieBreak}
    {backend : Option BackendChoice} {checkWeights : Bool} {cfg cfg' : Config K}
    (hcfg : Config.make settings = .ok cfg)
    (hcfg' : Config.make { settings with extpolfac, tieBreak, backend, checkWeights } = .ok cfg')
    {grids : List (NdArray K)} {field : NdArray K} {I J : Interpolator K}
    (hI : make grids field cfg = .ok I) (hJ : make grids field cfg' = .ok J) {a : Axis K}
    (haxes : I.axes = [a]) (hn : cfg.stencil.size ≤ a.points.length) :
    (∀ u r, I.polyAlong u = .ok r → r.shape = [u.toList.length] ∧
      List.Forall₂ (fun x v => ∃ c p e, I.locate 0 (NdArray.scalar x) false = .ok c ∧
        c.get 0 = .ok p ∧
        Polynomial.interpolate (NdArray.vector a.located) field (a.coordinate x) p
          (some cfg.stencil) = .ok e ∧ v = e.value) u.toList r.toList) ∧
    (∀ u r u' r', I.polyAlong u = .ok r → J.polyAlong u' = .ok r' → ∀ (i j : Nat) x,
      u.toList[i]? = some x → u'.toList[j]? = some x → r.toList[i]? = r'.toList[j]?) ∧
    (∀ (j : Nat) x, a.points[j]? = some x → a.Accepts cfg.extpolfac x ∧
      ∀ u r (i : Nat), I.polyAlong u = .ok r → u.toList[i]? = some x →
        r.toList[i]? = field.toList[j]?) ∧
    (∀ u, u.rank ≤ 1 →
      ((∃ r, I.polyAlong u = .ok r) ↔ ∀ x ∈ u.toList, a.Accepts cfg.extpolfac x) ∧
      ((∃ r, I.polyAlong u = .ok r) ∨ Outcome.Refused .outOfRange (I.polyAlong u))) ∧
    ∀ (E : Interpolator (Extended K)) (b : Axis (Extended K)), E.Made → E.axes = [b] →
      E.config.stencil.size ≤ b.points.length → ∀ u, u.rank ≤ 1 →
        ((∃ r, E.polyAlong u = .ok r) ↔ ∀ x ∈ u.toList, b.Admits E.config.extpolfac x) ∧
        ((∃ r, E.polyAlong u = .ok r) ∨ Outcome.Refused .outOfRange (E.polyAlong u)) := by
  have hlog : cfg.logAxes = cfg'.logAxes := by
    have h := Config.logAxes_of_make hcfg
    rw [Config.logAxes_of_make hcfg'] at h
    exact (Except.ok.inj h).symm
  have hstencil : cfg'.stencil = cfg.stencil := by
    have h := (Config.make_eq_ok_iff.1 hcfg').stencil
    rw [(Config.make_eq_ok_iff.1 hcfg).stencil] at h
    exact (Option.some.inj h).symm
  obtain ⟨hcommon, hfields⟩ := axes_eq_of_make hI hJ hlog
  have hwI : I.WellFormed := Made.wellFormed ⟨settings, cfg, grids, field, hcfg, hI⟩
  have hwJ : J.WellFormed := Made.wellFormed ⟨_, cfg', grids, field, hcfg', hJ⟩
  obtain ⟨-, -, -, -, -, -, -, rfl, rfl⟩ := make_eq_ok_iff.1 hI
  obtain ⟨-, -, -, -, -, -, -, -, rfl⟩ := make_eq_ok_iff.1 hJ
  have hone : I.OneAxis a := ⟨hwI, haxes, hn⟩
  have hone' : J.OneAxis a := ⟨hwJ, hcommon ▸ haxes, hstencil ▸ hn⟩
  refine ⟨?_, ?_, ?_, ?_, ?_⟩
  · intro u r hr
    obtain ⟨-, hshape, hvalues⟩ := hone.values_of_polyAlong hr
    exact ⟨hshape, hvalues.imp fun x v hv => hone.exists_interpolate hv⟩
  · intro u r u' r' hr hr' i j x hi hj
    exact hone.getElem?_polyAlong_eq hone' hfields.symm hstencil hr hr' hi hj
  · intro j x hx
    refine ⟨hwI.accepts_of_mem hone.mem_axes (List.mem_of_getElem? hx), fun u r i hr hi => ?_⟩
    obtain ⟨-, -, hvalues⟩ := hone.values_of_polyAlong hr
    obtain ⟨v, hv, hvalue⟩ := Choices.exists_getElem? hvalues hi
    rw [hv, hone.getElem?_field_eq hvalue hx]
  · intro u hu
    refine ⟨hone.exists_polyAlong_iff hu, ?_⟩
    by_cases haccepts : ∀ x ∈ u.toList, a.Accepts I.config.extpolfac x
    · exact .inl ((hone.exists_polyAlong_iff hu).2 haccepts)
    · exact .inr (hone.polyAlong_refused hu haccepts)
  · intro E b hE hb hsize u hu
    obtain ⟨factor, tolerance, hready⟩ := hE.exists_ready
    by_cases hadmits : ∀ x ∈ u.toList, b.Admits E.config.extpolfac x
    · have hok := hready.exists_polyAlong hb hsize hu hadmits
      exact ⟨iff_of_true hok hadmits, .inl hok⟩
    · have hrefused := hready.polyAlong_refused hb hsize hu hadmits
      exact ⟨iff_of_false hrefused.not_ok hadmits, .inr hrefused⟩

/-- Two interpolators that locate an inner grid point in different brackets, and different rows. -/
theorem polyAlong_pointwise_log_axis :
    let field : NdArray ℚ := NdArray.vector [1, 2, 10, 5]
    let cfg : Config ℚ :=
      ⟨3 / 4, 1 / 1000, ⟨false, 1 / 1000000⟩, .lower, .fused, .fixed3, [⟨0, false⟩]⟩
    let I := oneAxis .fixed3 field
    let J : Interpolator ℚ := { I with config := cfg, backend := .fused }
    Config.make (logFirst .fixed3) = .ok I.config ∧
      Config.make { logFirst .fixed3 with
        extpolfac := 3 / 4, tieBreak := some .lower, backend := some .fused,
        checkWeights := false } = .ok cfg ∧
      (I.locate 0 (NdArray.scalar 2) false).toOption.map Column.idx = some [1] ∧
      (J.locate 0 (NdArray.scalar 2) false).toOption.map Column.idx = some [2] ∧
      ∃ r r', I.polyAlong (NdArray.vector [2, 5 / 2]) = .ok r ∧
        J.polyAlong (NdArray.vector [5 / 2, 3 / 4, 2]) = .ok r' ∧
        r.toList[1]? = r'.toList[0]? ∧ r.toList[0]? = r'.toList[2]? ∧ r.toList[0]? = some 10 := by
  intro field cfg I J
  have hcfg : Config.make (logFirst .fixed3) = .ok I.config := config_oneAxis .fixed3 field
  have hcfg' : Config.make { logFirst .fixed3 with
      extpolfac := 3 / 4, tieBreak := some .lower, backend := some .fused,
      checkWeights := false } = .ok cfg := by
    norm_num [logFirst, Config.make, Settings.default, Config.isTolerance, Config.known,
      AxisNumber.axis, Position.defaultTolerance, SumCheck.defaultTolerance, Scalar.reciprocal, cfg]
  have hI : make [NdArray.vector [4, 3, 2, 1]] field I.config = .ok I := make_oneAxis rfl rfl rfl
  have hJ : make [NdArray.vector [4, 3, 2, 1]] field cfg = .ok J := make_oneAxis rfl rfl rfl
  obtain ⟨-, halike, hpoints, -, -⟩ := polyAlong_pointwise hcfg hcfg' hI hJ rfl (by decide)
  obtain ⟨r, hr⟩ := Outcome.exists_of_isOk (x := I.polyAlong (NdArray.vector [2, 5 / 2]))
    (by decide +kernel)
  obtain ⟨r', hr'⟩ := Outcome.exists_of_isOk (x := J.polyAlong (NdArray.vector [5 / 2, 3 / 4, 2]))
    (by decide +kernel)
  refine ⟨hcfg, hcfg', by decide +kernel, by decide +kernel, r, r', hr, hr', ?_, ?_, ?_⟩
  · exact halike _ r _ r' hr hr' 1 0 (5 / 2) rfl rfl
  · exact halike _ r _ r' hr hr' 0 2 2 rfl rfl
  · exact (hpoints 2 2 rfl).2 _ r 0 hr rfl

end Interpolator
end Regrid
