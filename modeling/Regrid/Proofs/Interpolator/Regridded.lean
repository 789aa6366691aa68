import Regrid.Proofs.Interpolator.Calls
import Regrid.Proofs.Interpolator.GridPoints
import Regrid.Proofs.Sample.Refinement

/-!
# Interpolators on other grids

An axis may be moved to other points, two or more in strict order that it accepts
(`Axis.MovesTo`).  A field that was sampled onto such points makes an interpolator on
them, with the same axes logarithmic (`Interpolator.make_moved`).

It has the value of the first interpolator at a point, if every axis carries the coordinate of
the point over to the other points (`Interpolator.value_moved`): its entries are values of the
first interpolator, and there values of values are values (`Cell.value_carried`).
-/
namespace Regrid

/-! ## Axes -/

/-- The axis on other points, located in the same way. -/
def Axis.withPoints {α : Type} (a : Axis α) (points : List α) : Axis α := { a with points }

variable {K : Type} [Field K] [LinearOrder K] [FloorRing K] [Elementary K]

namespace Axis

@[simp] theorem withPoints_points {α : Type} (a : Axis α) : a.withPoints a.points = a := rfl

theorem coordinate_withPoints {α : Type} [Scalar α] (a : Axis α) (points : List α) :
    (a.withPoints points).coordinate = a.coordinate := rfl

/-- **Points that an axis may be moved to**: two or more, in strict order where values are located,
and none that the axis does not accept. -/
structure MovesTo (extpolfac : K) (a : Axis K) (points : List K) : Prop where
  two : 2 ≤ points.length
  ordered : ∃ d, Grid.Ordered d (a.withPoints points).located
  accepts : ∀ x ∈ points, a.Accepts extpolfac x

/-- The coordinates of ordered points are ordered. -/
theorem ordered_located {a : Axis K} {d : Direction} (hord : Grid.Ordered d a.points)
    (hpositive : a.logarithmic = true → ∀ x ∈ a.points, 0 < x) : Grid.Ordered d a.located := by
  unfold located
  by_cases hlog : a.logarithmic = true
  · rw [if_pos hlog]
    exact (Grid.ordered_log_iff (hpositive hlog)).2 hord
  · rwa [if_neg hlog]

/-- Of axes on other points, these are the points, and the same axes are logarithmic. -/
theorem map_withPoints {α : Type} {axes : List (Axis α)} {gs : List (List α)}
    (h : axes.length = gs.length) :
    (List.zipWith withPoints axes gs).map points = gs ∧
      (List.zipWith withPoints axes gs).map logarithmic = axes.map logarithmic := by
  induction axes generalizing gs with
  | nil =>
    obtain rfl := List.length_eq_zero_iff.1 h.symm
    exact ⟨rfl, rfl⟩
  | cons a axes ih =>
    cases gs with
    | nil => cases h
    | cons g gs =>
      obtain ⟨hpoints, hlogarithmic⟩ := ih (Nat.succ.inj h)
      exact ⟨congrArg (g :: ·) hpoints, congrArg (a.logarithmic :: ·) hlogarithmic⟩

variable {extpolfac : K} {a : Axis K} {points : List K}

/-- The points are positive where they have to be. -/
theorem MovesTo.positive (h : a.MovesTo extpolfac points) :
    a.logarithmic = true → ∀ x ∈ points, 0 < x :=
  fun hlog x hx => (h.accepts x hx).1 hlog

/-- Ordered points that are accepted will do. -/
theorem movesTo_of_ordered (htwo : 2 ≤ points.length) (hord : ∃ d, Grid.Ordered d points)
    (haccepts : ∀ x ∈ points, a.Accepts extpolfac x) : a.MovesTo extpolfac points := by
  obtain ⟨d, hd⟩ := hord
  refine ⟨htwo, ⟨d, ?_⟩, haccepts⟩
  exact ordered_located (a := a.withPoints points) hd fun hlog x hx => (haccepts x hx).1 hlog

end Axis

namespace Interpolator

/-- Every axis carries its coordinate over from its own points to other ones. -/
theorem carries_located {axes : List (Axis K)} {gs : List (List K)} {xs : List K}
    (hgs : axes.length = gs.length) (hxs : axes.length = xs.length)
    (h : ∀ (j : Nat) (a : Axis K) (g : List K) (x : K), axes[j]? = some a → gs[j]? = some g →
      xs[j]? = some x →
      Grid.Carries a.located (a.withPoints g).located (a.coordinate x)) :
    Cell.Carries (axes.map Axis.located) ((List.zipWith Axis.withPoints axes gs).map Axis.located)
      (List.zipWith Axis.coordinate axes xs) := by
  induction axes generalizing gs xs with
  | nil => exact .nil
  | cons a axes ih =>
    cases gs with
    | nil => cases hgs
    | cons g gs =>
      cases xs with
      | nil => cases hxs
      | cons x xs =>
        refine .cons (h 0 a g x rfl rfl rfl) (ih (Nat.succ.inj hgs) (Nat.succ.inj hxs) ?_)
        intro j a' g' x' ha hg hx
        exact h (j + 1) a' g' x' ha hg hx

variable {I J : Interpolator K} {hs : List (List K)}

/-! ## Making -/

section Making

theorem forall_sound_moved {extpolfac : K} {axes : List (Axis K)}
    (h : List.Forall₂ (Axis.MovesTo extpolfac) axes hs) :
    ∀ a ∈ List.zipWith Axis.withPoints axes hs, Axis.Sound a := by
  induction h with
  | nil => simp
  | cons head _ ih => exact List.forall_mem_cons.2 ⟨⟨head.positive, head.two, head.ordered⟩, ih⟩

variable {grids : List (NdArray K)} {field F : NdArray K} {cfg cfg' : Config K}
variable [IsStrictOrderedRing K]

omit [Field K] [LinearOrder K] [FloorRing K] [Elementary K] [IsStrictOrderedRing K] in
/-- The same axes are logarithmic. -/
theorem axesFrom_moved (hlog : ∀ k, cfg'.isLogarithmic k = cfg.isLogarithmic k) (k : Nat)
    {points : List (List K)} (hlen : points.length = hs.length) :
    axesFrom cfg' k hs = List.zipWith Axis.withPoints (axesFrom cfg k points) hs := by
  refine List.ext_getElem? fun j => ?_
  rw [axesFrom, axesFrom, List.getElem?_zipWith, List.getElem?_mapIdx, List.getElem?_mapIdx]
  by_cases hj : j < hs.length
  · rw [List.getElem?_eq_getElem hj, List.getElem?_eq_getElem (hlen ▸ hj), Option.map_some,
      Option.map_some, hlog]
    rfl
  · rw [List.getElem?_eq_none (not_lt.1 hj)]
    cases (points[j]?.map _ : Option (Axis K)) <;> rfl

/-- **Points that the axes may be moved to make an interpolator**, with a field of their shape and
a backend that can be built. -/
theorem make_moved {extpolfac : K} (hlog : ∀ k, cfg'.isLogarithmic k = cfg.isLogarithmic k)
    (h : make grids field cfg = .ok I) (hhs : List.Forall₂ (Axis.MovesTo extpolfac) I.axes hs)
    (hF : F.shape = hs.map List.length) {b : Backend}
    (hb : (Backend.build cfg'.backend : Except (Fault K) Backend) = .ok b) :
    make (hs.map NdArray.vector) F cfg' =
      .ok ⟨List.zipWith Axis.withPoints I.axes hs, F, cfg', b⟩ := by
  obtain ⟨hpasses, -, haxes, -, -⟩ := make_eq_ok_iff_passes.1 h
  have hcount : (grids.map NdArray.toList).length = hs.length := by
    rw [← hhs.length_eq, haxes, axesFrom, List.length_mapIdx]
  have hmoved := axesFrom_moved hlog 0 hcount
  rw [← haxes] at hmoved
  rw [List.length_map] at hcount
  refine make_eq_ok_iff_passes.2 ⟨⟨?_, ?_, ?_, ?_, ?_⟩, hb, ?_, rfl, rfl⟩
  · intro g hg
    obtain ⟨xs, -, rfl⟩ := List.mem_map.1 hg
    rfl
  · intro hnil
    obtain rfl := List.map_eq_nil_iff.1 hnil
    exact hpasses.nonempty (List.length_eq_zero_iff.1 hcount)
  · rw [hF, List.map_map]
    refine List.map_congr_left fun xs _ => ?_
    exact (volume_singleton xs.length).symm
  · intro k hk
    rw [List.length_map, ← hcount]
    exact hpasses.logAxes k (by rw [← hlog, hk])
  · rw [NdArray.map_toList_vector, hmoved]
    exact forall_sound_moved hhs
  · rw [NdArray.map_toList_vector, hmoved]

end Making

/-! ## The value at a point -/

/-- **The value on other grids** is that of the interpolator whose values are the field. -/
theorem value_moved [IsStrictOrderedRing K] (hI : I.WellFormed)
    (haxes : I.axes.map Axis.logarithmic = J.axes.map Axis.logarithmic)
    (hfield : I.onto ((J.axes.map Axis.points).map NdArray.vector) none = .ok J.field) {xs : List K}
    (hcarries : Cell.Carries (I.axes.map Axis.located) (J.axes.map Axis.located) (I.coordinates xs))
    {v w : K} (hv : I.Interpolates xs v) (hw : J.Interpolates xs w) : v = w := by
  obtain ⟨-, ps, hps, rfl⟩ := hv
  obtain ⟨-, qs, hqs, rfl⟩ := hw
  rw [← coordinates_congr haxes] at hqs
  symm
  refine Cell.value_carried hcarries hps hqs fun ix ws rs hws hrs => ?_
  -- The entry at a multi-index is the value at the point of its choice.
  rw [entries?_located, Option.map_eq_some_iff] at hws
  obtain ⟨ys, hys, rfl⟩ := hws
  obtain ⟨v, hv, -, rs', hrs', rfl⟩ := exists_get?_onto hI hfield hys
  change Cell.Fits _ (J.coordinates ys) rs at hrs
  rw [← coordinates_congr haxes] at hrs
  rw [NdArray.entry, hv, Option.getD_some]
  exact Cell.value_eq_of_fits hI.ordered_located hrs' hrs I.field.entry

/-- The grids are the points of the axes, since there are two points or more. -/
theorem vectors_of_make [IsStrictOrderedRing K] {grids : List (NdArray K)} {field : NdArray K}
    {cfg : Config K} (hI : I.WellFormed) (h : make grids field cfg = .ok I) :
    grids = (I.axes.map Axis.points).map NdArray.vector := by
  obtain ⟨hrank, hpoints⟩ := points_of_make h
  rw [hpoints, List.map_map]
  refine (List.map_id grids).symm.trans (List.map_congr_left fun g hg => ?_)
  have hmem : g.toList ∈ I.axes.map Axis.points := hpoints ▸ List.mem_map_of_mem hg
  obtain ⟨a, ha, heq⟩ := List.mem_map.1 hmem
  have htwo : 1 < g.toList.length := heq ▸ (hI.ordered a ha).1
  exact NdArray.eq_vector (hrank g hg) (Nat.ne_of_gt htwo)

/-- An axis may stay where it is. -/
theorem WellFormed.movesTo_points [IsStrictOrderedRing K] (hI : I.WellFormed) :
    List.Forall₂ (Axis.MovesTo I.config.extpolfac) I.axes (I.axes.map Axis.points) := by
  rw [List.forall₂_map_right_iff, List.forall₂_same]
  intro a ha
  obtain ⟨htwo, hord⟩ := hI.ordered a ha
  exact ⟨htwo, hord, fun x hx => hI.accepts_of_mem ha hx⟩

end Interpolator
end Regrid
