import Regrid.Proofs.Interpolator.Regridded

/-!
# Refined interpolators

A field is sampled onto finer grids, one for each axis, that hold all grid points and reach
nowhere beyond the envelopes (`Axis.RefinedBy`).  These are points that the axes may be moved to
(`Axis.RefinedBy.movesTo`), so the values are a field that makes an interpolator, too
(`Interpolator.exists_make_refined`).  On finer grids every query is carried over, and so its
interpolant is the same function where both are defined (`Interpolator.coincide_refined`).
A field that is sampled twice, the first time onto finer grids, is as one that is sampled once.
-/
namespace Regrid

variable {K : Type} [Field K] [LinearOrder K] [FloorRing K] [Elementary K]

/-! ## Axes -/

namespace Axis

/-- **A grid that refines an axis**: in strict order, in either direction, with all points of
the axis among its own, and none that the axis does not accept. -/
structure RefinedBy (extpolfac : K) (a : Axis K) (fine : List K) : Prop where
  ordered_fine : ∃ d, Grid.Ordered d fine
  subset : a.points ⊆ fine
  accepts : ∀ x ∈ fine, a.Accepts extpolfac x

/-- **An axis on a grid that refines another axis**, located in the same way. -/
structure Refines (extpolfac : K) (a b : Axis K) : Prop extends RefinedBy extpolfac a b.points where
  logarithmic : a.logarithmic = b.logarithmic

variable {extpolfac : K} {a b : Axis K}

/-- A finer grid is finer in located space. -/
theorem Refines.located (h : a.Refines extpolfac b) (htwo : 2 ≤ a.points.length)
    (hord : ∃ d, Grid.Ordered d a.located) : Grid.Refines a.located b.located := by
  obtain ⟨d, hfine⟩ := h.ordered_fine
  have hpositive : b.logarithmic = true → ∀ x ∈ b.points, 0 < x := fun hlog x hx =>
    (h.accepts x hx).1 (h.logarithmic.trans hlog)
  refine ⟨hord, by rwa [length_located], ⟨d, ordered_located hfine hpositive⟩, ?_⟩
  have hcoordinate : b.coordinate = a.coordinate := by
    unfold coordinate
    rw [h.logarithmic]
  rw [located_eq_map, located_eq_map, hcoordinate]
  exact List.map_subset _ h.subset

theorem RefinedBy.refines {fine : List K} (h : a.RefinedBy extpolfac fine) :
    a.Refines extpolfac (a.withPoints fine) := ⟨h, rfl⟩

/-- **An axis may be moved to a finer grid.** -/
theorem RefinedBy.movesTo {fine : List K} (h : a.RefinedBy extpolfac fine)
    (htwo : 2 ≤ a.points.length) (hord : ∃ d, Grid.Ordered d a.located) :
    a.MovesTo extpolfac fine := by
  have hlen := (h.refines.located htwo hord).two_le
  rw [length_located] at hlen
  exact movesTo_of_ordered hlen h.ordered_fine h.accepts

end Axis

namespace Interpolator

variable [IsStrictOrderedRing K] {I J : Interpolator K} {hs : List (List K)}

/-! ## Making -/

section Making
variable {grids : List (NdArray K)} {field F : NdArray K} {cfg cfg' : Config K}

omit [IsStrictOrderedRing K] in
theorem refines_withPoints {extpolfac : K} {axes : List (Axis K)}
    (h : List.Forall₂ (Axis.RefinedBy extpolfac) axes hs) :
    List.Forall₂ (Axis.Refines extpolfac) axes (List.zipWith Axis.withPoints axes hs) := by
  induction h with
  | nil => exact .nil
  | cons head _ ih => exact .cons head.refines ih

section
variable {extpolfac : K} (hwell : I.WellFormed) (hlog : ∀ k, cfg'.isLogarithmic k = cfg.isLogarithmic k)
  (h : make grids field cfg = .ok I) (hhs : List.Forall₂ (Axis.RefinedBy extpolfac) I.axes hs)
  (hF : F.shape = hs.map List.length)
include hwell hlog h hhs hF

/-- **Finer grids make an interpolator**, with a field of their shape and a backend that can be
built, and its axes refine the axes. -/
theorem exists_make_refined {b : Backend}
    (hb : (Backend.build cfg'.backend : Except (Fault K) Backend) = .ok b) :
    ∃ J, make (hs.map NdArray.vector) F cfg' = .ok J ∧
      List.Forall₂ (Axis.Refines extpolfac) I.axes J.axes := by
  have hmoves : List.Forall₂ (Axis.MovesTo extpolfac) I.axes hs := by
    refine List.forall₂_iff_zip.2 ⟨hhs.length_eq, fun {a fine} hmem => ?_⟩
    obtain ⟨htwo, hord⟩ := hwell.ordered a (List.of_mem_zip hmem).1
    exact ((List.forall₂_iff_zip.1 hhs).2 hmem).movesTo htwo hord
  exact ⟨_, make_moved hlog h hmoves hF hb, refines_withPoints hhs⟩

/-- Whether it is made is left to the backend. -/
theorem exists_make_refined_iff :
    (∃ J, make (hs.map NdArray.vector) F cfg' = .ok J) ↔
      ∃ b, (Backend.build cfg'.backend : Except (Fault K) Backend) = .ok b := by
  constructor
  · rintro ⟨J, hJ⟩
    obtain ⟨-, -, -, -, -, -, hb, -⟩ := make_eq_ok_iff.1 hJ
    exact ⟨_, hb⟩
  · rintro ⟨b, hb⟩
    obtain ⟨J, hJ, -⟩ := exists_make_refined hwell hlog h hhs hF hb
    exact ⟨J, hJ⟩

theorem refines_of_make (hJ : make (hs.map NdArray.vector) F cfg' = .ok J) :
    List.Forall₂ (Axis.Refines extpolfac) I.axes J.axes := by
  obtain ⟨b, hb⟩ := (exists_make_refined_iff hwell hlog h hhs hF).1 ⟨J, hJ⟩
  obtain ⟨J', hJ', haxes⟩ := exists_make_refined hwell hlog h hhs hF hb
  rw [hJ] at hJ'
  cases hJ'
  exact haxes

end

end Making

/-! ## The interpolant -/

/-- On finer grids every point is carried over. -/
theorem carries_refined (hI : I.WellFormed) {extpolfac : K}
    (haxes : List.Forall₂ (Axis.Refines extpolfac) I.axes J.axes) {xs : List K} (hxs : I.Accepts xs) :
    Cell.Carries (I.axes.map Axis.located) (J.axes.map Axis.located) (I.coordinates xs) := by
  have hord := hI.ordered
  unfold Accepts at hxs
  unfold coordinates
  generalize I.axes = axes at haxes hxs hord
  generalize J.axes = fines at haxes
  induction haxes generalizing xs with
  | nil => exact .nil
  | cons head _ ih =>
    obtain ⟨x, ys, -, hys, rfl⟩ := List.forall₂_cons_left_iff.1 hxs
    obtain ⟨⟨htwo, hlocated⟩, hlater⟩ := List.forall_mem_cons.1 hord
    exact .cons ((head.located htwo hlocated).carries _) (ih hys hlater)

/-- **The interpolant on finer grids** is that of the interpolator whose values are its field. -/
theorem coincide_refined (hI : I.WellFormed)
    (haxes : List.Forall₂ (Axis.Refines I.config.extpolfac) I.axes J.axes)
    (hfield : I.onto ((J.axes.map Axis.points).map NdArray.vector) none = .ok J.field) :
    Coincide I J := by
  intro xs v w hv hw
  have hlogarithmic : I.axes.map Axis.logarithmic = J.axes.map Axis.logarithmic := by
    rw [← List.forall₂_eq_eq_eq, List.forall₂_map_left_iff, List.forall₂_map_right_iff]
    exact haxes.imp fun a b h => h.logarithmic
  exact value_moved hI hlogarithmic hfield (carries_refined hI haxes hv.1) hv hw

/-- **Finer grids keep the values.**  Take an interpolator, and on each axis a grid in strict
order, in either direction, that holds all points of the axis and none that the axis does not
accept.

* The field is sampled onto these grids.
* The values make an interpolator on these grids, from any settings with the same logarithmic
  axes, exactly if the backend of the settings can be built.
* A call that both interpolators answer is answered alike, at a point, along a sequence and onto
  a grid, whatever the arguments and the container. -/
theorem refinement_keeps_values {settings settings' : Settings K} {cfg cfg' : Config K}
    {grids : List (NdArray K)} {field : NdArray K} {I : Interpolator K}
    (hcfg : Config.make settings = .ok cfg) (hcfg' : Config.make settings' = .ok cfg')
    (hlog : ∀ k, cfg'.isLogarithmic k = cfg.isLogarithmic k)
    (hI : make grids field cfg = .ok I) {hs : List (List K)}
    (hhs : List.Forall₂ (Axis.RefinedBy cfg.extpolfac) I.axes hs) :
    ∃ F, I.onto (hs.map NdArray.vector) none = .ok F ∧
      ((∃ J, make (hs.map NdArray.vector) F cfg' = .ok J) ↔
        ∃ b, (Backend.build cfg'.backend : Except (Fault K) Backend) = .ok b) ∧
      ∀ J, make (hs.map NdArray.vector) F cfg' = .ok J →
        (∀ point v w, I.valueAt point = .ok v → J.valueAt point = .ok w → v = w) ∧
        (∀ args out a b, I.along args out = .ok a → J.along args out = .ok b → a = b) ∧
        ∀ args out a b, I.onto args out = .ok a → J.onto args out = .ok b → a = b := by
  have hwI : I.WellFormed := Made.wellFormed ⟨settings, cfg, grids, field, hcfg, hI⟩
  obtain ⟨-, -, -, -, -, -, -, -, rfl⟩ := make_eq_ok_iff.1 hI
  obtain ⟨F, hF, hshape, -⟩ := exists_onto hwI (hhs.imp fun a h hfine => hfine.accepts)
  refine ⟨F, hF, exists_make_refined_iff hwI hlog hI hhs hshape, fun J hJ => ?_⟩
  have hwJ : J.WellFormed := Made.wellFormed ⟨settings', cfg', _, F, hcfg', hJ⟩
  have hco : Coincide I J := by
    refine coincide_refined hwI (refines_of_make hwI hlog hI hhs hshape hJ) ?_
    obtain ⟨-, -, -, -, -, -, -, rfl, -⟩ := make_eq_ok_iff.1 hJ
    rw [(points_of_make hJ).2, NdArray.map_toList_vector, hF]
  refine ⟨?_, ?_, ?_⟩
  · intro point v w hv hw
    exact hco.valueAt_eq hwI hwJ hv hw
  · intro args out a b ha hb
    exact hco.along_eq hwI hwJ ha hb
  · intro args out a b ha hb
    exact hco.onto_eq hwI hwJ ha hb

/-- Two points more on the first axis, one of them beyond its end, and one more on the second,
which is read from its other end: a point beyond both grids of the first axis. -/
theorem refinement_keeps_values_two_axes :
    let field : NdArray ℚ := ⟨[3, 2], #[1, 2, 3, 5, 8, 13], rfl⟩
    let fines : List (NdArray ℚ) :=
      [NdArray.vector [0, 1 / 2, 1, 3, 7 / 2], NdArray.vector [1, 3 / 2, 2]]
    let point : List (NdArray ℚ) := [NdArray.scalar (15 / 4), NdArray.scalar (5 / 4)]
    Config.make logSecond = .ok (twoAxes field).config ∧
      Config.make fusedSettings = .ok fusedConfig ∧
      ∃ F J v, (twoAxes field).onto fines none = .ok F ∧ make fines F fusedConfig = .ok J ∧
        (twoAxes field).valueAt point = .ok v ∧ J.valueAt point = .ok v := by
  intro field fines point
  have hcfg : Config.make logSecond = .ok (twoAxes field).config := config_twoAxes field
  have hI : make [NdArray.vector [0, 1, 3], NdArray.vector [2, 1]] field (twoAxes field).config =
      .ok (twoAxes field) := make_twoAxes rfl rfl rfl
  have hfines : List.Forall₂ (Axis.RefinedBy (1 / 2)) (twoAxes field).axes
      [[0, 1 / 2, 1, 3, 7 / 2], [1, 3 / 2, 2]] := by
    refine .cons ⟨⟨.ascending, by decide +kernel⟩, by decide +kernel, ?_⟩
      (.cons ⟨⟨.ascending, by decide +kernel⟩, by decide +kernel, ?_⟩ .nil)
    · exact Axis.accepts_of_inEnvelope .ascending (1 / 2) (by decide +kernel) (by decide)
        (by decide +kernel)
    · exact Axis.accepts_of_inEnvelope .descending (1 / 2) (by decide +kernel) (by decide)
        (by decide +kernel)
  obtain ⟨F, hF, hiff, hsame⟩ := refinement_keeps_values hcfg config_fused (fun _ => rfl) hI hfines
  obtain ⟨J, hJ⟩ := hiff.2 ⟨.fused, rfl⟩
  obtain ⟨hat, -, -⟩ := hsame J hJ
  obtain ⟨v, hv⟩ := Outcome.exists_of_isOk (x := (twoAxes field).valueAt point) (by decide +kernel)
  obtain ⟨w, hw⟩ : ∃ w, ((twoAxes field).onto fines none >>= fun F =>
      make fines F fusedConfig >>= fun J => J.valueAt point) = .ok w :=
    Outcome.exists_of_isOk (by decide +kernel)
  rw [show (twoAxes field).onto fines none = .ok F from hF, Outcome.ok_bind,
    show make fines F fusedConfig = .ok J from hJ, Outcome.ok_bind] at hw
  exact ⟨hcfg, config_fused, F, J, v, hF, hJ, hv, by rw [hw, hat point v w hv hw]⟩

end Interpolator
end Regrid
