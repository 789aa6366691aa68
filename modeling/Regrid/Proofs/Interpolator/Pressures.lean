import Regrid.Proofs.Interpolator.Answered
import Regrid.Proofs.Interpolator.Mirrored
import Regrid.Proofs.Interpolator.Regridded

/-!
# Pressures

Pressures are located by their logarithms in two ways: on a logarithmic axis, whose points are
checked once, when the interpolator is made; and directly in a grid of pressures, which is checked in
every call.  For the grid of an axis both take the same way, in whatever arithmetic, except that the
axis tells of itself where something is out of range (`Interpolator.locate_eq_placePressure`).

The positions are promised in terms of logarithms.  Since these increase strictly, a bracket of
logarithms that holds the logarithm of a pressure is one of pressures that holds the pressure, in
grids of either direction (`Grid.Fits.locatedByLog`), and an axis is made of exactly those grids
whose pressures are positive and in strict order (`Interpolator.exists_make_logarithmic_iff`).
-/
namespace Regrid

/-! ## Two ways to locate -/

section Paths
variable {α : Type} [Scalar α]

namespace Locate

/-- A row of pressures is checked as the values of a logarithmic axis are. -/
theorem checkPressures_bind {a : Axis α} (hlog : a.logarithmic = true) (new : List α) {β : Type}
    (f : List α → Except (Fault α) β) :
    (checkPressures (NdArray.vector new) >>= fun _ => f (new.map Scalar.log)) =
      Interpolator.Axis.coordinates a new >>= f := by
  rw [checkPressures, Interpolator.Axis.coordinates, if_pos hlog, NdArray.toList_vector]
  cases hfirst : Grid.firstWith isNotPositive new with
  | none => rfl
  | some entry =>
    obtain ⟨value, position⟩ := entry
    have hvalue : (asRow (NdArray.vector new)).numberAt position = .ok value := by
      show orBadIndex new.toArray[position]? = .ok value
      rw [List.getElem?_toArray, (Grid.getElem?_of_firstWith_eq_some hfirst).1]
      rfl
    simp only [hvalue, Outcome.ok_bind]
    rfl

/-- Positions of a row of pressures are those of the coordinates on a logarithmic axis, with
whatever backend. -/
theorem placePressure_vector {a : Axis α} (hlog : a.logarithmic = true)
    (hpositive : a.points.any isNotPositive = false) (b : Backend) (new : List α) (extpolfac : α)
    (t : TieBreak) :
    placePressure (NdArray.vector a.points) (NdArray.vector new) extpolfac (some t) =
      (Interpolator.Axis.coordinates a new >>= fun zs =>
        b.locate (NdArray.vector a.located) (NdArray.vector zs) extpolfac (some t)).map .many := by
  have hlocate : ∀ zs : List α,
      place (NdArray.vector a.located) (NdArray.vector zs) extpolfac (some t) =
        (b.locate (NdArray.vector a.located) (NdArray.vector zs) extpolfac (some t)).map .many := by
    intro zs
    rw [b.locate_eq, ← Backend.reference.locate_eq, place, if_neg (by exact one_ne_zero)]
    exact Outcome.bind_ok_eq_map _ _
  have hlocated : a.located = a.points.map Scalar.log := if_pos hlog
  rw [placePressure, Grid.ofArray_vector, Outcome.ok_bind, hpositive, NdArray.map_vector, ← hlocated,
    Outcome.map_bind, ← checkPressures_bind hlog]
  simp only [hlocate]
  rfl

end Locate

namespace Interpolator

/-- A logarithmic axis that was made has no points that are not positive. -/
theorem Made.any_isNotPositive {I : Interpolator α} (hI : I.Made) {a : Axis α} (ha : a ∈ I.axes)
    (hlog : a.logarithmic = true) : a.points.any Locate.isNotPositive = false := by
  obtain ⟨-, -, -, -, hall⟩ := hI.exists_settings
  obtain ⟨j, extent, points, hmake⟩ := hall a ha
  obtain ⟨rfl, -, hpositive, -⟩ := makeAxis_eq_ok_iff.1 hmake
  rw [hlog, Bool.true_and, Bool.not_eq_true] at hpositive
  exact hpositive

/-- **On a logarithmic axis** values are located as pressures are in its grid, and where something is
out of range, this is told with the axis. -/
theorem locate_eq_placePressure {I : Interpolator α} (hI : I.Made) {k : Nat} {a : Axis α}
    (ha : I.axes[k]? = some a) (hlog : a.logarithmic = true) (new : List α) :
    (I.locate k (NdArray.vector new) false).map .many =
      (Locate.placePressure (NdArray.vector a.points) (NdArray.vector new) I.config.extpolfac
        (some I.config.tieBreak)).mapError (onAxis k) := by
  have hpositive := hI.any_isNotPositive (List.mem_of_getElem? ha) hlog
  rw [locate, if_neg (by omega), Int.toNat_natCast, ha,
    Locate.placePressure_vector hlog hpositive I.backend]
  simp only [positions_vector]
  generalize (Axis.coordinates a new >>= fun zs => I.backend.locate (NdArray.vector a.located)
    (NdArray.vector zs) I.config.extpolfac (some I.config.tieBreak)) = outcome
  cases outcome <;> rfl

end Interpolator
end Paths

/-! ## Brackets of pressures -/

variable {K : Type} [Field K] [LinearOrder K] [FloorRing K] [Elementary K]

namespace Grid

omit [FloorRing K] in
/-- **What is promised of the position of a pressure** `x` in a grid of pressures. -/
structure LocatedByLog (grid : List K) (x : K) (p : Position K) : Prop where
  bracket : 0 ≤ p.idx ∧ p.idx + 2 ≤ grid.length
  complement : p.complement = 1 - p.fraction
  /-- The logarithm is interpolated linearly. -/
  reproduces : Elementary.log x = Elementary.log (point grid p.idx) +
    p.fraction * (Elementary.log (point grid (p.idx + 1)) - Elementary.log (point grid p.idx))
  /-- A pressure inside the grid lies between the two pressures of its bracket. -/
  inside : (∃ a ∈ grid, a ≤ x) → (∃ b ∈ grid, x ≤ b) →
    x ∈ Set.uIcc (point grid p.idx) (point grid (p.idx + 1)) ∧ 0 ≤ p.fraction ∧ p.fraction ≤ 1

omit [FloorRing K] in
/-- **A position that fits the logarithm** of a pressure is all that is promised of the pressure. -/
theorem Fits.locatedByLog [IsStrictOrderedRing K] {d : Direction} {grid : List K} {extpolfac x : K}
    {p : Position K} (h : Fits (grid.map Elementary.log) (Elementary.log x) p)
    (hord : Ordered d (grid.map Elementary.log)) (hpositive : ∀ y ∈ grid, 0 < y) (hx : 0 < x)
    (hin : InEnvelope d (grid.map Elementary.log) extpolfac (Elementary.log x)) :
    LocatedByLog grid x p := by
  have h0 := h.nonneg
  have hlast := h.last
  have hlocated := h.located hord (by omega) hin
  rw [List.length_map] at hlast
  have hlower := point_map h0 (show p.idx < grid.length by omega) Elementary.log
  have hupper := point_map (show 0 ≤ p.idx + 1 by omega) (show p.idx + 1 < grid.length by omega)
    Elementary.log
  refine ⟨⟨h0, hlast⟩, h.complement, ?_, ?_⟩
  · rw [← hlower, ← hupper, h.reproduces]
  · rintro ⟨a, ha, hax⟩ ⟨b, hb, hxb⟩
    -- Inside the grid of pressures, the logarithm is inside the grid of logarithms.
    obtain ⟨hbetween, hfraction⟩ := hlocated.inside
      ⟨_, List.mem_map_of_mem ha, (Elementary.strictMonoOn_log.le_iff_le (hpositive a ha) hx).2 hax⟩
      ⟨_, List.mem_map_of_mem hb, (Elementary.strictMonoOn_log.le_iff_le hx (hpositive b hb)).2 hxb⟩
    rw [hlower, hupper] at hbetween
    refine ⟨Elementary.mem_uIcc_of_log hx ?_ ?_ hbetween, hfraction⟩
    · exact hpositive _ (point_mem h0 (by omega))
    · exact hpositive _ (point_mem (by omega) (by omega))

end Grid

/-! ## Grids of pressures -/

/-- There are not arbitrarily many logarithmic axes. -/
theorem Config.exists_lt_of_isLogarithmic {α : Type} (cfg : Config α) :
    ∃ n, ∀ k, cfg.isLogarithmic k = true → k < n := by
  obtain ⟨n, hn⟩ := (cfg.logAxes.map LogAxis.axis).toFinset.exists_nat_subset_range
  refine ⟨n, fun k hk => ?_⟩
  obtain ⟨l, hl, haxis⟩ := List.any_eq_true.1 hk
  rw [← beq_iff_eq.1 haxis]
  exact Finset.mem_range.1 (hn (List.mem_toFinset.2 (List.mem_map_of_mem hl)))

namespace Interpolator

variable [IsStrictOrderedRing K]

omit [IsStrictOrderedRing K] in
/-- Positive points in strict order make a sound axis, logarithmic or not. -/
theorem Axis.sound_of_positive {points : List K} (htwo : 2 ≤ points.length)
    (hpositive : ∀ x ∈ points, 0 < x) {d : Direction} (hord : Grid.Ordered d points)
    (logarithmic : Bool) : Axis.Sound ⟨points, logarithmic⟩ where
  positive _ := hpositive
  two := htwo
  ordered := ⟨d, Axis.ordered_located hord fun _ => hpositive⟩

/-- Each grid makes the axis of its number. -/
theorem axes_getElem?_of_make {grids : List (NdArray K)} {field : NdArray K} {cfg : Config K}
    {I : Interpolator K} (h : make grids field cfg = .ok I) {k : Nat} {g : NdArray K}
    (hg : grids[k]? = some g) : I.axes[k]? = some ⟨g.toList, cfg.isLogarithmic k⟩ := by
  obtain ⟨-, -, haxes, -⟩ := make_eq_ok_iff_passes.1 h
  rw [haxes, axesFrom, List.getElem?_mapIdx, List.getElem?_map, hg, Nat.zero_add]
  rfl

omit [IsStrictOrderedRing K] in
/-- One grid of positive points on all axes makes an interpolator, whichever of them are
logarithmic. -/
theorem passes_replicate {cfg : Config K} {n : Nat} (hn : 0 < n)
    (hlog : ∀ k, cfg.isLogarithmic k = true → k < n) {points : List K} (htwo : 2 ≤ points.length)
    (hpositive : ∀ x ∈ points, 0 < x) {d : Direction} (hord : Grid.Ordered d points) :
    Passes (List.replicate n (NdArray.vector points))
      (NdArray.replicate (List.replicate n points.length) 0) cfg where
  rows g hg := by
    rw [List.eq_of_mem_replicate hg]
    exact le_rfl
  nonempty := by
    rw [ne_eq, List.replicate_eq_nil_iff]
    omega
  shape := by
    rw [List.map_replicate, NdArray.size, NdArray.shape_vector, volume_singleton]
    rfl
  logAxes := by rwa [List.length_replicate]
  sound a ha := by
    obtain ⟨j, hj, rfl⟩ := List.mem_mapIdx.1 ha
    rw [List.getElem_map, List.getElem_replicate, NdArray.toList_vector]
    exact Axis.sound_of_positive htwo hpositive hord _

/-- **Which grids make a logarithmic axis**: two pressures or more, all of them positive and in strict
order, of whatever direction. -/
theorem exists_make_logarithmic_iff {cfg : Config K} {b : Backend}
    (hb : (Backend.build cfg.backend : Except (Fault K) Backend) = .ok b) {k : Nat}
    (hlog : cfg.isLogarithmic k = true) (old : List K) :
    (∃ grids field I, make grids field cfg = .ok I ∧ grids[k]? = some (NdArray.vector old)) ↔
      2 ≤ old.length ∧ (∀ x ∈ old, 0 < x) ∧ ∃ d, Grid.Ordered d old := by
  constructor
  · rintro ⟨grids, field, I, hI, hg⟩
    have ha := axes_getElem?_of_make hI hg
    obtain ⟨hpasses, -, haxes, -⟩ := make_eq_ok_iff_passes.1 hI
    rw [haxes, NdArray.toList_vector, hlog] at ha
    obtain ⟨hpositive, htwo, d, hord⟩ := hpasses.sound _ (List.mem_of_getElem? ha)
    exact ⟨htwo, hpositive rfl, d, (Grid.ordered_log_iff (hpositive rfl)).1 hord⟩
  · rintro ⟨htwo, hpositive, d, hord⟩
    obtain ⟨n, hn⟩ := cfg.exists_lt_of_isLogarithmic
    have hk := hn k hlog
    have hpasses := passes_replicate (Nat.zero_lt_of_lt hk) hn htwo hpositive hord
    refine ⟨_, _, ⟨_, _, cfg, b⟩, make_eq_ok_iff_passes.2 ⟨hpasses, hb, rfl, rfl, rfl⟩, ?_⟩
    rw [List.getElem?_replicate, if_pos hk]

/-- **Pressures are located alike** on a logarithmic axis and in its grid.  Take a configuration that
passes the checks, with a backend that can be built, and the number of an axis that is logarithmic.

* The axis can be made of exactly the grids of two positive pressures or more in strict order, of
  whatever direction.
* With an interpolator of this grid, pressures that the axis accepts, which are positive and inside the
  envelope of the logarithms, are located at the same positions on the axis and directly in the grid,
  and each position is as promised.
* With one pressure that is not accepted, both are refused because something is out of range. -/
theorem pressures_located_alike {settings : Settings K} {cfg : Config K}
    (hcfg : Config.make settings = .ok cfg) {b : Backend}
    (hb : (Backend.build cfg.backend : Except (Fault K) Backend) = .ok b) {k : Nat}
    (hlog : cfg.isLogarithmic k = true) (old : List K) :
    ((∃ grids field I, make grids field cfg = .ok I ∧ grids[k]? = some (NdArray.vector old)) ↔
      2 ≤ old.length ∧ (∀ x ∈ old, 0 < x) ∧ ∃ d, Grid.Ordered d old) ∧
    ∀ grids field I, make grids field cfg = .ok I → grids[k]? = some (NdArray.vector old) →
      ∀ new : List K,
        let direct := Locate.placePressure (NdArray.vector old) (NdArray.vector new) cfg.extpolfac
          (some cfg.tieBreak)
        ((∀ x ∈ new, Axis.Accepts ⟨old, true⟩ cfg.extpolfac x) →
          ∃ c, I.locate k (NdArray.vector new) false = .ok c ∧ direct = .ok (.many c) ∧
            List.Forall₂ (Grid.LocatedByLog old) new c.toList) ∧
        ((¬ ∀ x ∈ new, Axis.Accepts ⟨old, true⟩ cfg.extpolfac x) →
          Outcome.Refused .outOfRange (I.locate k (NdArray.vector new) false) ∧
            Outcome.Refused .outOfRange direct) := by
  refine ⟨exists_make_logarithmic_iff hb hlog old, fun grids field I hI hg new => ?_⟩
  have hmade : I.Made := ⟨settings, cfg, grids, field, hcfg, hI⟩
  have hwell := hmade.wellFormed
  have ha := axes_getElem?_of_make hI hg
  obtain ⟨-, -, -, -, rfl⟩ := make_eq_ok_iff_passes.1 hI
  rw [NdArray.toList_vector, hlog] at ha
  have hmem := List.mem_of_getElem? ha
  have hagree := locate_eq_placePressure hmade ha rfl new
  constructor
  · intro haccepts
    obtain ⟨c, hc, hfits⟩ := exists_positions hwell hmem k haccepts
    have hlocate : I.locate k (NdArray.vector new) false = .ok c := by
      rw [locate_eq_positions ha, hc]
      rfl
    rw [hlocate] at hagree
    refine ⟨c, hlocate, Outcome.mapError_eq_ok_iff.1 hagree.symm, ?_⟩
    obtain ⟨htwo, d, hord⟩ := hwell.ordered _ hmem
    rw [← Axis.length_located] at htwo
    refine List.forall₂_iff_zip.2 ⟨hfits.length_eq, fun {x p} hxp => ?_⟩
    obtain ⟨hx, hin⟩ := (Axis.accepts_iff hord htwo _ x).1 (haccepts x (List.of_mem_zip hxp).1)
    have hfit := (List.forall₂_iff_zip.1 hfits).2 hxp
    exact hfit.locatedByLog hord (hwell.positive _ hmem rfl) (hx rfl) hin
  · intro hrefuse
    have hrefused : Outcome.Refused .outOfRange (I.locate k (NdArray.vector new) false) := by
      rw [locate_eq_positions ha]
      exact (positions_refused hwell hmem k hrefuse).bind _
    have hdirect := hrefused.map Placement.many
    rw [hagree] at hdirect
    exact ⟨hrefused, refused_onAxis_iff.1 hdirect⟩

/-- The second of two axes: a pressure in the bracket and one on a point, and one that is negative. -/
theorem pressures_located_alike_second_axis :
    let I := twoAxes (NdArray.replicate [3, 2] 0)
    let direct : List ℚ → Except (Fault ℚ) (Placement ℚ) := fun new =>
      Locate.placePressure (NdArray.vector [2, 1]) (NdArray.vector new) (1 / 2) (some .keep)
    (∃ c, I.locate 1 (NdArray.vector [3 / 2, 1]) false = .ok c ∧
      direct [3 / 2, 1] = .ok (.many c) ∧
      List.Forall₂ (Grid.LocatedByLog [2, 1]) [3 / 2, 1] c.toList) ∧
    Outcome.Refused .outOfRange (I.locate 1 (NdArray.vector [3 / 2, -1]) false) ∧
      Outcome.Refused .outOfRange (direct [3 / 2, -1]) := by
  intro I direct
  have hI : make [NdArray.vector [0, 1, 3], NdArray.vector [2, 1]] I.field I.config = .ok I :=
    make_twoAxes rfl rfl rfl
  obtain ⟨-, halike⟩ := pressures_located_alike (config_twoAxes I.field) (b := .reference) rfl
    (k := 1) rfl [2, 1]
  obtain ⟨hlocated, -⟩ := halike _ _ I hI rfl [3 / 2, 1]
  obtain ⟨-, hrefused⟩ := halike _ _ I hI rfl [3 / 2, -1]
  refine ⟨hlocated ?_, hrefused fun h => ?_⟩
  · exact Axis.accepts_of_inEnvelope .descending (1 / 2) (by decide +kernel) (by decide)
      (by decide +kernel)
  · have hpositive : (0 : ℚ) < -1 := (h (-1) (by decide +kernel)).1 rfl
    exact absurd hpositive (by decide +kernel)

end Interpolator
end Regrid
