import Regrid.Interpolator
import Regrid.Proofs.Grid.Acceptance
import Regrid.Proofs.Locate.Located

/-!
# Interpolators that were made

What is asked of an interpolator is asked of one that was made from a checked
configuration (`Interpolator.Made`).  The checks leave an invariant behind, on which
everything else rests (`Interpolator.WellFormed`): there is an axis, the field has as many
points along each as the axis has, every axis is ordered where values are located, and
factor and tolerances are in range.
-/
namespace Regrid

/-! ## Configurations -/

namespace Config

section Checks
variable {α : Type} [Scalar α] {s : Settings α} {cfg : Config α}

omit [Scalar α] in
theorem known_eq_ok_iff {β : Type} {fault : ArgumentFault α} {o : Option β} {x : β} :
    known fault o = .ok x ↔ o = some x := by
  cases o <;> simp [known]

/-- **A configuration stands for settings** that pass the checks. -/
structure StandsFor (s : Settings α) (cfg : Config α) : Prop where
  finite : Scalar.isFinite s.extpolfac = true
  notNegative : Scalar.lt s.extpolfac Scalar.zero = false
  isTolerance : isTolerance s.tolerance = true
  isSumTolerance : Config.isTolerance s.sumTolerance = true
  tieBreak : s.tieBreak = some cfg.tieBreak
  backend : s.backend = some cfg.backend
  stencil : s.stencil = some cfg.stencil
  logAxes : s.logAxes.mapM AxisNumber.axis = .ok cfg.logAxes
  /-- No axis is listed twice. -/
  nodup : (cfg.logAxes.map LogAxis.axis).Nodup
  extpolfac_eq : cfg.extpolfac = s.extpolfac
  tolerance_eq : cfg.tolerance = s.tolerance
  sumCheck_eq : cfg.sumCheck = ⟨s.checkWeights, s.sumTolerance⟩

/-- Settings make the configuration that stands for them, if there is one. -/
theorem make_eq_ok_iff : make s = .ok cfg ↔ StandsFor s cfg := by
  unfold make
  simp only [Outcome.guard_eq_ok_iff, Outcome.bind_eq_ok_iff, known_eq_ok_iff, Outcome.pure_eq_ok,
    Except.ok.injEq, Bool.not_eq_true, Bool.not_eq_false', not_not]
  constructor
  · rintro ⟨hfinite, hneg, htol, hsum, t, ht, b, hb, st, hst, l, hl, hnodup, rfl⟩
    exact ⟨hfinite, hneg, htol, hsum, ht, hb, hst, hl, hnodup, rfl, rfl, rfl⟩
  · intro h
    refine ⟨h.finite, h.notNegative, h.isTolerance, h.isSumTolerance, _, h.tieBreak, _, h.backend, _,
      h.stencil, _, h.logAxes, h.nodup, ?_⟩
    rw [← h.extpolfac_eq, ← h.tolerance_eq, ← h.sumCheck_eq]

end Checks

/-- The numbers of a checked configuration are in range. -/
theorem inRange_of_make {K : Type} [Field K] [LinearOrder K] [FloorRing K] [Elementary K]
    {settings : Settings K} {cfg : Config K} (h : make settings = .ok cfg) :
    0 ≤ cfg.extpolfac ∧ 0 < cfg.tolerance ∧ 0 < cfg.sumCheck.tolerance := by
  have hfor := make_eq_ok_iff.1 h
  have hextpolfac := hfor.notNegative
  have htolerance := hfor.isTolerance
  have hsum := hfor.isSumTolerance
  rw [hfor.extpolfac_eq, hfor.tolerance_eq, hfor.sumCheck_eq]
  exact ⟨by simpa using hextpolfac, by simpa [Config.isTolerance] using htolerance,
    by simpa [Config.isTolerance] using hsum⟩

end Config

@[simp] theorem Axis.length_located {α : Type} [Scalar α] (a : Axis α) :
    a.located.length = a.points.length := by
  unfold located
  split <;> simp

namespace Interpolator

/-! ## What making an interpolator leaves behind -/

section Making
variable {α : Type} [Scalar α]

/-- **An interpolator that was made**, from settings that pass the checks, grids and a
field. -/
def Made (I : Interpolator α) : Prop :=
  ∃ settings cfg grids field, Config.make settings = .ok cfg ∧ make grids field cfg = .ok I

/-- An axis is made from as many points as its extent says, positive ones if it is
logarithmic, and in order where values are located. -/
theorem makeAxis_eq_ok_iff {cfg : Config α} {k extent : Nat} {points : List α} {a : Axis α} :
    makeAxis cfg k extent points = .ok a ↔
      a = ⟨points, cfg.isLogarithmic k⟩ ∧ points.length = extent ∧
        ¬ (a.logarithmic && points.any Locate.isNotPositive) = true ∧
        ∃ d, Grid.checkReference Grid.linearPoints ("axis " ++ toString k) a.located = .ok d := by
  unfold makeAxis
  rw [Outcome.guard_eq_ok_iff, Outcome.guard_eq_ok_iff, Outcome.bind_eq_ok_iff]
  constructor
  · rintro ⟨hlen, hpositive, d, hreference, h⟩
    cases h
    exact ⟨rfl, not_not.1 hlen, hpositive, d, hreference⟩
  · rintro ⟨rfl, hlen, hpositive, d, hreference⟩
    exact ⟨not_not.2 hlen, hpositive, d, hreference, rfl⟩

omit [Scalar α] in
/-- The points of the grids are their entries, if every grid is a row or a single number. -/
theorem gridPoints_eq_ok_iff {k : Nat} {grids : List (NdArray α)} {points : List (List α)} :
    gridPoints k grids = .ok points ↔
      (∀ g ∈ grids, g.rank ≤ 1) ∧ grids.map NdArray.toList = points := by
  induction grids generalizing k points with
  | nil => simp [gridPoints]
  | cons g grids ih =>
    rw [gridPoints, Outcome.bind_eq_ok_iff]
    simp only [Grid.ofArray_eq_ok_iff, Outcome.bind_eq_ok_iff, ih, Outcome.pure_eq_ok,
      Except.ok.injEq, List.forall_mem_cons, List.map_cons]
    constructor
    · rintro ⟨xs, ⟨hg, rfl⟩, others, ⟨hgrids, rfl⟩, rfl⟩
      exact ⟨⟨hg, hgrids⟩, rfl⟩
    · rintro ⟨⟨hg, hgrids⟩, rfl⟩
      exact ⟨_, ⟨hg, rfl⟩, _, ⟨hgrids, rfl⟩, rfl⟩

omit [Scalar α] in
/-- The logarithmic axes are among the `axes`. -/
theorem checkLogAxes_eq_ok_iff {cfg : Config α} {axes : Nat} :
    (checkLogAxes axes cfg.logAxes : Except (Fault α) Unit) = .ok () ↔
      ∀ k, cfg.isLogarithmic k = true → k < axes := by
  have hnone : (checkLogAxes axes cfg.logAxes : Except (Fault α) Unit) = .ok () ↔
      cfg.logAxes.find? (fun l => decide (axes ≤ l.axis)) = none := by
    unfold checkLogAxes
    split <;> simp_all
  rw [hnone, List.find?_eq_none]
  simp [Config.isLogarithmic]

theorem makeAxes_cons_eq_ok_iff {cfg : Config α} {k extent : Nat} {shape : List Nat}
    {points : List α} {grids : List (List α)} {axes : List (Axis α)} :
    makeAxes cfg k (extent :: shape) (points :: grids) = .ok axes ↔
      ∃ a others, makeAxis cfg k extent points = .ok a ∧
        makeAxes cfg (k + 1) shape grids = .ok others ∧ a :: others = axes := by
  rw [makeAxes]
  simp only [Outcome.bind_eq_ok_iff, Outcome.pure_eq_ok, Except.ok.injEq, exists_and_left]

/-- The axes of a field are made from its extents and the grids, one by one. -/
theorem makeAxes_eq_ok {cfg : Config α} {k : Nat} {shape : List Nat} {grids : List (List α)}
    {axes : List (Axis α)} (hlen : shape.length = grids.length)
    (h : makeAxes cfg k shape grids = .ok axes) :
    axes.map Axis.points = grids ∧ shape = axes.map (fun a => a.points.length) ∧
      ∀ a ∈ axes, ∃ j extent points, makeAxis cfg j extent points = .ok a := by
  induction shape generalizing k grids axes with
  | nil =>
    obtain rfl := List.length_eq_zero_iff.1 hlen.symm
    cases h
    exact ⟨rfl, rfl, by simp⟩
  | cons extent shape ih =>
    cases grids with
    | nil => cases hlen
    | cons points grids =>
      obtain ⟨a, others, ha, hothers, rfl⟩ := makeAxes_cons_eq_ok_iff.1 h
      obtain ⟨haxes, hshape, hall⟩ := ih (Nat.succ.inj hlen) hothers
      obtain ⟨rfl, hextent, -⟩ := makeAxis_eq_ok_iff.1 ha
      refine ⟨by rw [List.map_cons, haxes], by rw [List.map_cons, ← hshape, hextent], ?_⟩
      exact List.forall_mem_cons.2 ⟨⟨k, extent, points, ha⟩, hall⟩

/-- An interpolator is made from grids that are rows, one per dimension of the field, and
from axes that pass, each of them on its own. -/
theorem make_eq_ok_iff {grids : List (NdArray α)} {field : NdArray α} {cfg : Config α}
    {I : Interpolator α} :
    make grids field cfg = .ok I ↔ ∃ points, gridPoints 0 grids = .ok points ∧ points ≠ [] ∧
      field.rank = points.length ∧
      (checkLogAxes points.length cfg.logAxes : Except (Fault α) Unit) = .ok () ∧
      makeAxes cfg 0 field.shape points = .ok I.axes ∧
      (Backend.build cfg.backend : Except (Fault α) Backend) = .ok I.backend ∧
      I.field = field ∧ I.config = cfg := by
  unfold make
  rw [Outcome.bind_eq_ok_iff]
  refine exists_congr fun points => and_congr_right fun _ => ?_
  rw [Outcome.guard_eq_ok_iff, Outcome.guard_eq_ok_iff, List.isEmpty_iff, not_not]
  refine and_congr_right fun _ => and_congr_right fun _ => ?_
  constructor
  · intro h
    obtain ⟨u, hlog, h⟩ := Outcome.bind_eq_ok_iff.1 h
    obtain ⟨axes, haxes, h⟩ := Outcome.bind_eq_ok_iff.1 h
    obtain ⟨backend, hbackend, h⟩ := Outcome.bind_eq_ok_iff.1 h
    cases h
    exact ⟨hlog, haxes, hbackend, rfl, rfl⟩
  · rintro ⟨hlog, haxes, hbackend, hfield, hconfig⟩
    rw [hlog, Outcome.ok_bind, haxes, Outcome.ok_bind, hbackend, Outcome.ok_bind, ← hfield, ← hconfig]
    rfl

/-- The points of the axes are the entries of the grids. -/
theorem points_of_make {grids : List (NdArray α)} {field : NdArray α} {cfg : Config α}
    {I : Interpolator α} (h : make grids field cfg = .ok I) :
    (∀ g ∈ grids, g.rank ≤ 1) ∧ I.axes.map Axis.points = grids.map NdArray.toList := by
  obtain ⟨points, hpoints, -, hrank, -, haxes, -⟩ := make_eq_ok_iff.1 h
  obtain ⟨hgrids, rfl⟩ := gridPoints_eq_ok_iff.1 hpoints
  exact ⟨hgrids, (makeAxes_eq_ok hrank haxes).1⟩

/-- What making an interpolator leaves behind: a checked configuration, one axis or more, a field
with as many points along each as the axis has, and the checks that every axis has passed. -/
theorem Made.exists_settings {I : Interpolator α} (hI : I.Made) :
    ∃ settings, Config.make settings = .ok I.config ∧ I.axes ≠ [] ∧
      I.field.shape = I.axes.map (fun a => a.points.length) ∧
      ∀ a ∈ I.axes, ∃ j extent points, makeAxis I.config j extent points = .ok a := by
  obtain ⟨settings, cfg, grids, field, hcfg, h⟩ := hI
  obtain ⟨points, -, hempty, hrank, -, haxes, -, rfl, rfl⟩ := make_eq_ok_iff.1 h
  obtain ⟨hpoints, hshape, hall⟩ := makeAxes_eq_ok hrank haxes
  refine ⟨settings, hcfg, fun hnil => ?_, hshape, hall⟩
  rw [hnil] at hpoints
  exact hempty hpoints.symm

end Making

variable {K : Type} [Field K] [LinearOrder K] [IsStrictOrderedRing K] [FloorRing K] [Elementary K]

/-- **An axis that passes the checks**: its points are positive if it is logarithmic, there are two
of them or more, and they are in strict order where values are located. -/
structure Axis.Sound (a : Axis K) : Prop where
  positive : a.logarithmic = true → ∀ x ∈ a.points, 0 < x
  two : 2 ≤ a.points.length
  ordered : ∃ d, Grid.Ordered d a.located

/-- What the checks say of an axis. -/
theorem makeAxis_eq_ok_iff_sound {cfg : Config K} {k extent : Nat} {points : List K} {a : Axis K} :
    makeAxis cfg k extent points = .ok a ↔
      a = ⟨points, cfg.isLogarithmic k⟩ ∧ points.length = extent ∧ Axis.Sound a := by
  rw [makeAxis_eq_ok_iff]
  refine and_congr_right ?_
  rintro rfl
  refine and_congr_right fun _ => ?_
  have hpositive : (¬ (cfg.isLogarithmic k && points.any Locate.isNotPositive) = true) ↔
      (cfg.isLogarithmic k = true → ∀ x ∈ points, 0 < x) := by
    simp [Locate.isNotPositive]
  simp only [Grid.checkReference_linear_iff, Axis.length_located, exists_and_left, hpositive]
  exact ⟨fun h => ⟨h.1, h.2.1, h.2.2⟩, fun h => ⟨h.positive, h.two, h.ordered⟩⟩

/-- The axes from number `k` on, with the given points. -/
def axesFrom {α : Type} (cfg : Config α) (k : Nat) (points : List (List α)) : List (Axis α) :=
  points.mapIdx fun j xs => ⟨xs, cfg.isLogarithmic (k + j)⟩

theorem makeAxes_eq_ok_iff {cfg : Config K} {k : Nat} {shape : List Nat} {points : List (List K)}
    {axes : List (Axis K)} (hlen : shape.length = points.length) :
    makeAxes cfg k shape points = .ok axes ↔
      axes = axesFrom cfg k points ∧ shape = points.map List.length ∧ ∀ a ∈ axes, Axis.Sound a := by
  induction shape generalizing k points axes with
  | nil =>
    obtain rfl := List.length_eq_zero_iff.1 hlen.symm
    constructor
    · intro h
      cases h
      exact ⟨rfl, rfl, by simp⟩
    · rintro ⟨rfl, -, -⟩
      rfl
  | cons extent shape ih =>
    cases points with
    | nil => cases hlen
    | cons xs points =>
      have hfrom : axesFrom cfg k (xs :: points) =
          ⟨xs, cfg.isLogarithmic k⟩ :: axesFrom cfg (k + 1) points := by
        rw [axesFrom, List.mapIdx_cons, axesFrom]
        simp only [Nat.add_zero, Nat.add_assoc, Nat.add_comm 1]
      rw [makeAxes_cons_eq_ok_iff, hfrom]
      simp only [makeAxis_eq_ok_iff_sound, ih (Nat.succ.inj hlen)]
      constructor
      · rintro ⟨a, others, ⟨rfl, rfl, hsound⟩, ⟨rfl, rfl, hall⟩, rfl⟩
        exact ⟨rfl, rfl, List.forall_mem_cons.2 ⟨hsound, hall⟩⟩
      · rintro ⟨rfl, hshape, hall⟩
        obtain ⟨hextent, hshape⟩ := List.cons.inj hshape
        obtain ⟨hsound, hall⟩ := List.forall_mem_cons.1 hall
        exact ⟨_, _, ⟨rfl, hextent.symm, hsound⟩, ⟨rfl, hshape, hall⟩, rfl⟩

/-- **Grids, a field and a configuration that pass the checks**: the grids are rows, one or more,
their lengths are the shape of the field, and each of them makes an axis that passes. -/
structure Passes (grids : List (NdArray K)) (field : NdArray K) (cfg : Config K) : Prop where
  rows : ∀ g ∈ grids, g.rank ≤ 1
  nonempty : grids ≠ []
  shape : field.shape = grids.map NdArray.size
  /-- The logarithmic axes are among the axes. -/
  logAxes : ∀ k, cfg.isLogarithmic k = true → k < grids.length
  sound : ∀ a ∈ axesFrom cfg 0 (grids.map NdArray.toList), Axis.Sound a

/-- When an interpolator is made, and which. -/
theorem make_eq_ok_iff_passes {grids : List (NdArray K)} {field : NdArray K} {cfg : Config K}
    {I : Interpolator K} :
    make grids field cfg = .ok I ↔ Passes grids field cfg ∧
      (Backend.build cfg.backend : Except (Fault K) Backend) = .ok I.backend ∧
      I.axes = axesFrom cfg 0 (grids.map NdArray.toList) ∧ I.field = field ∧ I.config = cfg := by
  have hsizes : (grids.map NdArray.toList).map List.length = grids.map NdArray.size := by
    rw [List.map_map]
    exact List.map_congr_left fun g _ => g.length_toList
  rw [make_eq_ok_iff]
  constructor
  · rintro ⟨points, hpoints, hempty, hrank, hlog, haxes, hrest⟩
    obtain ⟨hrows, rfl⟩ := gridPoints_eq_ok_iff.1 hpoints
    obtain ⟨haxes, hshape, hsound⟩ := (makeAxes_eq_ok_iff hrank).1 haxes
    rw [checkLogAxes_eq_ok_iff, List.length_map] at hlog
    rw [hsizes] at hshape
    exact ⟨⟨hrows, fun hnil => hempty (by rw [hnil, List.map_nil]), hshape, hlog, haxes ▸ hsound⟩,
      hrest.1, haxes, hrest.2⟩
  · rintro ⟨h, hbackend, haxes, hrest⟩
    have hrank : field.rank = (grids.map NdArray.toList).length := by
      rw [NdArray.rank, h.shape, List.length_map, List.length_map]
    refine ⟨_, gridPoints_eq_ok_iff.2 ⟨h.rows, rfl⟩, ?_, hrank, ?_, ?_, hbackend, hrest⟩
    · exact fun hnil => h.nonempty (List.map_eq_nil_iff.1 hnil)
    · rw [checkLogAxes_eq_ok_iff, List.length_map]
      exact h.logAxes
    · rw [makeAxes_eq_ok_iff hrank, hsizes]
      exact ⟨haxes, h.shape, haxes ▸ h.sound⟩

/-- **What holds of every interpolator that was made.** -/
structure WellFormed (I : Interpolator K) : Prop where
  nonempty : I.axes ≠ []
  shape : I.field.shape = I.axes.map fun a => a.points.length
  /-- Values are located among two points or more in strict order. -/
  ordered : ∀ a ∈ I.axes, 2 ≤ a.points.length ∧ ∃ d, Grid.Ordered d a.located
  positive : ∀ a ∈ I.axes, a.logarithmic = true → ∀ x ∈ a.points, 0 < x
  extpolfac : 0 ≤ I.config.extpolfac
  tolerance : 0 < I.config.tolerance
  sumTolerance : 0 < I.config.sumCheck.tolerance

/-- The checks leave the invariant behind. -/
theorem Made.wellFormed {I : Interpolator K} (hI : I.Made) : I.WellFormed := by
  obtain ⟨settings, hcfg, hnonempty, hshape, hall⟩ := hI.exists_settings
  obtain ⟨hextpolfac, htolerance, hsum⟩ := Config.inRange_of_make hcfg
  refine ⟨hnonempty, hshape, fun a ha => ?_, fun a ha hlog x hx => ?_, hextpolfac, htolerance, hsum⟩
  · obtain ⟨j, extent, points, hmake⟩ := hall a ha
    obtain ⟨rfl, -, -, htwo, hord⟩ := makeAxis_eq_ok_iff_sound.1 hmake
    exact ⟨htwo, hord⟩
  · obtain ⟨j, extent, points, hmake⟩ := hall a ha
    obtain ⟨rfl, -, hpositive, -⟩ := makeAxis_eq_ok_iff_sound.1 hmake
    exact hpositive hlog x hx

omit [IsStrictOrderedRing K] in
theorem WellFormed.ordered_located {I : Interpolator K} (hI : I.WellFormed) :
    ∀ grid ∈ I.axes.map Axis.located, ∃ d, Grid.Ordered d grid := by
  intro grid hgrid
  obtain ⟨a, ha, rfl⟩ := List.mem_map.1 hgrid
  exact (hI.ordered a ha).2

/-- Settings that leave all but one logarithmic axis to the defaults. -/
def logSecond : Settings ℚ := { Settings.default with logAxes := [.whole 1] }

/-- An interpolator with an ascending axis and a descending one that is logarithmic. -/
def twoAxes (field : NdArray ℚ) : Interpolator ℚ where
  axes := [⟨[0, 1, 3], false⟩, ⟨[2, 1], true⟩]
  field := field
  config := ⟨1 / 2, 1 / 1000, ⟨true, 1 / 1000000⟩, .keep, .reference, .adaptive3, [⟨1, false⟩]⟩
  backend := .reference

theorem config_twoAxes (field : NdArray ℚ) :
    Config.make logSecond = .ok (twoAxes field).config := by
  norm_num [logSecond, Config.make, Settings.default, Config.isTolerance, Config.known,
    AxisNumber.axis, Grid.defaultExtpolfac, Scalar.half, Position.defaultTolerance,
    SumCheck.defaultTolerance, Scalar.reciprocal, twoAxes]

/-- Settings with the same logarithmic axis, and everything else that moves brackets changed. -/
def fusedSettings : Settings ℚ :=
  { logSecond with
    extpolfac := 3 / 4, tieBreak := some .lower, backend := some .fused, checkWeights := false }

/-- The configuration of these settings. -/
def fusedConfig : Config ℚ :=
  ⟨3 / 4, 1 / 1000, ⟨false, 1 / 1000000⟩, .lower, .fused, .adaptive3, [⟨1, false⟩]⟩

theorem config_fused : Config.make fusedSettings = .ok fusedConfig := by
  norm_num [fusedSettings, logSecond, Config.make, Settings.default, Config.isTolerance, Config.known,
    AxisNumber.axis, Grid.defaultExtpolfac, Scalar.half, Position.defaultTolerance,
    SumCheck.defaultTolerance, Scalar.reciprocal, fusedConfig]

/-- Three points and two points are the grids of a field of that shape, whatever else the
configuration says. -/
theorem make_twoAxes {field : NdArray ℚ} (h : field.shape = [3, 2]) {cfg : Config ℚ}
    (hlog : cfg.logAxes = [⟨1, false⟩]) {b : Backend}
    (hb : (Backend.build cfg.backend : Except (Fault ℚ) Backend) = .ok b) :
    make [NdArray.vector [0, 1, 3], NdArray.vector [2, 1]] field cfg =
      .ok { twoAxes field with config := cfg, backend := b } := by
  have hfirst : ∀ which, Grid.checkReference Grid.linearPoints which ([0, 1, 3] : List ℚ) =
      .ok .ascending := fun _ =>
    Grid.checkReference_linear_iff.2 ⟨by decide, by decide +kernel⟩
  have hsecond : ∀ which, Grid.checkReference Grid.linearPoints which
      ([Elementary.log 2, Elementary.log 1] : List ℚ) = .ok .descending := fun _ =>
    Grid.checkReference_linear_iff.2 ⟨by decide, by decide +kernel⟩
  have hpositive : ([2, 1] : List ℚ).any Locate.isNotPositive = false := by decide +kernel
  refine make_eq_ok_iff.2 ⟨[[0, 1, 3], [2, 1]], ?_, by simp, ?_, ?_, ?_, hb, rfl, rfl⟩
  · simp [gridPoints]
  · rw [NdArray.rank, h]
    rfl
  · rw [hlog]
    rfl
  · rw [h]
    simp [twoAxes, makeAxes, makeAxis, Config.isLogarithmic, hlog, Axis.located, hfirst, hsecond,
      hpositive]

theorem made_twoAxes {field : NdArray ℚ} (h : field.shape = [3, 2]) : (twoAxes field).Made :=
  ⟨logSecond, _, _, field, config_twoAxes field, make_twoAxes h rfl rfl⟩

end Interpolator
end Regrid
