import Regrid.Proofs.Interpolator.Overshoot
import Regrid.Proofs.Locate.Clipped

/-!
# Located without noise

Values that are located without noise are located as the values clipped to the range of the grid
(`Interpolator.clamped_eq_clipped`).  Coordinates follow the values, so on a logarithmic axis the
coordinate of a clipped value is the clipped coordinate (`Axis.coordinate_clip`), and in located space
clipping may be put off until the positions are found.  Nothing is located that would not be located
with its noise; of that, what is beyond an end by the tolerance or more is refused.
-/
namespace Regrid

variable {K : Type} [Field K] [LinearOrder K] [FloorRing K] [Elementary K]

/-! ## Clipped values -/

namespace Axis

variable {a : Axis K} {x y low high : K}

theorem coordinate_max (hx : a.logarithmic = true → 0 < x) (hy : a.logarithmic = true → 0 < y) :
    a.coordinate (max x y) = max (a.coordinate x) (a.coordinate y) := by
  rcases le_total x y with hle | hle
  · rw [max_eq_right hle, max_eq_right (coordinate_le_coordinate hx hle)]
  · rw [max_eq_left hle, max_eq_left (coordinate_le_coordinate hy hle)]

theorem coordinate_min (hx : a.logarithmic = true → 0 < x) (hy : a.logarithmic = true → 0 < y) :
    a.coordinate (min x y) = min (a.coordinate x) (a.coordinate y) := by
  rcases le_total x y with hle | hle
  · rw [min_eq_left hle, min_eq_left (coordinate_le_coordinate hx hle)]
  · rw [min_eq_right hle, min_eq_right (coordinate_le_coordinate hy hle)]

/-- The least coordinate of the points is that of the least point. -/
theorem isLeast_coordinate (hpositive : a.logarithmic = true → ∀ y ∈ a.points, 0 < y)
    (hlow : IsLeast {y | y ∈ a.points} low) : IsLeast {z | z ∈ a.located} (a.coordinate low) := by
  rw [located_eq_map]
  refine ⟨List.mem_map_of_mem hlow.1, fun z hz => ?_⟩
  obtain ⟨y, hy, rfl⟩ := List.mem_map.1 hz
  exact coordinate_le_coordinate (hpositive · low hlow.1) (hlow.2 hy)

theorem isGreatest_coordinate (hpositive : a.logarithmic = true → ∀ y ∈ a.points, 0 < y)
    (hhigh : IsGreatest {y | y ∈ a.points} high) :
    IsGreatest {z | z ∈ a.located} (a.coordinate high) := by
  rw [located_eq_map]
  refine ⟨List.mem_map_of_mem hhigh.1, fun z hz => ?_⟩
  obtain ⟨y, hy, rfl⟩ := List.mem_map.1 hz
  exact coordinate_le_coordinate (hpositive · y hy) (hhigh.2 hy)

/-- **The coordinate of a clipped value** is the clipped coordinate. -/
theorem coordinate_clip {d : Direction} (hord : Grid.Ordered d a.located) (hlen : 2 ≤ a.located.length)
    (hpositive : a.logarithmic = true → ∀ y ∈ a.points, 0 < y)
    (hlow : IsLeast {y | y ∈ a.points} low) (hhigh : IsGreatest {y | y ∈ a.points} high)
    (hx : a.logarithmic = true → 0 < x) :
    a.coordinate (max low (min x high)) = Grid.clip d a.located (a.coordinate x) := by
  have hlow0 : a.logarithmic = true → 0 < low := fun hlog => hpositive hlog low hlow.1
  have hhigh0 : a.logarithmic = true → 0 < high := fun hlog => hpositive hlog high hhigh.1
  rw [hord.clip_eq hlen (isLeast_coordinate hpositive hlow) (isGreatest_coordinate hpositive hhigh),
    ← coordinate_min hx hhigh0, ← coordinate_max hlow0 fun hlog => lt_min (hx hlog) (hhigh0 hlog)]

end Axis

namespace Interpolator

variable [IsStrictOrderedRing K] {I : Interpolator K} {k : Nat} {a : Axis K} {values : NdArray K} {c : Column K}
variable {low high : K} {d : Direction}

/-! ## Along an axis -/

/-- Clipped values have clipped positions. -/
theorem WellFormed.positions_clip (hI : I.WellFormed) (ha : a ∈ I.axes)
    (hlow : IsLeast {y | y ∈ a.points} low) (hhigh : IsGreatest {y | y ∈ a.points} high)
    (h : I.positions k a values = .ok c) :
    I.positions k a (values.map fun x => max low (min x high)) =
      .ok (Column.ofPositions (c.toList.map Position.clipped)) := by
  obtain ⟨htwo, d, hord⟩ := hI.ordered a ha
  rw [← Axis.length_located] at htwo
  have hrank := rank_le_one_of_positions h
  have hclipped : (values.map fun x => max low (min x high)).rank ≤ 1 := hrank
  rw [positions_eq_vector k a hrank] at h
  rw [positions_eq_vector k a hclipped, NdArray.toList_map]
  obtain ⟨zs, hcoordinates, hlocate⟩ := positions_eq_ok_iff.1 h
  obtain ⟨hpositive, rfl⟩ := Axis.coordinates_eq_ok_iff_pos.1 hcoordinates
  refine positions_eq_ok_iff.2 ⟨_, Axis.coordinates_eq_ok_iff_pos.2 ⟨?_, ?_⟩,
    I.backend.locate_clip hord htwo hI.extpolfac hlocate⟩
  · intro hlog
    have hlow0 : 0 < low := hI.positive a ha hlog low hlow.1
    exact List.forall_mem_map.2 fun x _ => lt_max_of_lt_left hlow0
  · rw [List.map_map, List.map_map]
    refine List.map_congr_left fun x hx => ?_
    exact Axis.coordinate_clip hord htwo (hI.positive a ha) hlow hhigh fun hlog => hpositive hlog x hx

/-- Positions of values beyond the ends by noise only are those that may be clipped. -/
theorem WellFormed.deviates_iff (hI : I.WellFormed) (ha : a ∈ I.axes) (hord : Grid.Ordered d a.located)
    (h : I.positions k a values = .ok c) :
    (∀ p ∈ c.toList, p.deviates I.config.tolerance = false) ↔
      ∀ x ∈ values.toList, Grid.OnlyNoise d a.located I.config.tolerance (a.coordinate x) := by
  obtain ⟨htwo, -⟩ := hI.ordered a ha
  rw [← Axis.length_located] at htwo
  rw [positions_eq_vector k a (rank_le_one_of_positions h)] at h
  refine (Choices.forall_mem_iff (fits_of_positions hI ha h) fun x p hp => ?_).symm
  exact (hp.deviates_eq_false_iff hord htwo hI.tolerance).symm

/-- **Located without noise are the clipped values.**  Values are located without noise exactly if they
are located with it, and each of them is beyond the ends of the grid by less than the tolerance, as a
part of the bracket at this end.  The positions are those of the values clipped to the range of the
grid.  Their distances are parts of one that make one, and noise may be removed from them again, up to
whatever tolerance, without a change. -/
theorem clamped_eq_clipped (hI : I.Made) (ha : I.axes[k]? = some a)
    (hlow : IsLeast {y | y ∈ a.points} low) (hhigh : IsGreatest {y | y ∈ a.points} high)
    (values : NdArray K) :
    ∃ d, Grid.Ordered d a.located ∧
      ((∃ c, I.locate k values true = .ok c) ↔ (∃ c, I.locate k values false = .ok c) ∧
        ∀ x ∈ values.toList, Grid.OnlyNoise d a.located I.config.tolerance (a.coordinate x)) ∧
      ∀ c, I.locate k values true = .ok c →
        I.locate k (values.map fun x => max low (min x high)) false = .ok c ∧
        (∀ p ∈ c.toList, p.fraction ∈ Set.Icc 0 1 ∧ p.complement ∈ Set.Icc 0 1 ∧
          p.fraction + p.complement = 1) ∧
        ∀ tolerance, 0 < tolerance → c.clamp tolerance = .ok c := by
  have hwell := hI.wellFormed
  have hmem : a ∈ I.axes := List.mem_of_getElem? ha
  obtain ⟨htwo, d, hord⟩ := hwell.ordered a hmem
  have hlen : 2 ≤ a.located.length := by rwa [Axis.length_located]
  have hunclamped : ∀ v c, I.locate k v false = .ok c ↔ I.positions k a v = .ok c := by
    intro v c
    rw [locate_eq_positions ha]
    simp [Outcome.bind_eq_ok_iff]
  refine ⟨d, hord, ?_, fun e he => ?_⟩
  · rw [exists_locate_iff hwell ha]
    simp only [hunclamped, forall_const]
    constructor
    · rintro ⟨c, hc, hgood⟩
      exact ⟨⟨c, hc⟩, (hwell.deviates_iff hmem hord hc).1 hgood⟩
    · rintro ⟨⟨c, hc⟩, hnoise⟩
      exact ⟨c, hc, (hwell.deviates_iff hmem hord hc).2 hnoise⟩
  · rw [locate_eq_positions ha] at he
    obtain ⟨c, hc, he⟩ := Outcome.bind_eq_ok_iff.1 he
    obtain ⟨-, rfl⟩ := (Column.clamp_eq_ok_iff hwell.tolerance).1 he
    have hinside : ∀ p ∈ (Column.ofPositions (c.toList.map Position.clipped)).toList, p.Inside := by
      rw [Column.toList_ofPositions]
      refine List.forall_mem_map.2 fun p hp => ?_
      rw [positions_eq_vector k a (rank_le_one_of_positions hc)] at hc
      obtain ⟨i, hi⟩ := List.mem_iff_getElem?.1 hp
      obtain ⟨x, -, hfits⟩ := Choices.exists_getElem? (fits_of_positions hwell hmem hc).flip hi
      exact Position.inside_clipped hfits.complement
    refine ⟨(hunclamped _ _).2 (hwell.positions_clip hmem hlow hhigh hc), fun p hp => ?_,
      fun tolerance htolerance => Column.clamp_eq_self htolerance hinside⟩
    obtain ⟨hfraction, hcomplement⟩ := (hinside p hp).le_one
    exact ⟨⟨(hinside p hp).fraction, hfraction⟩, ⟨(hinside p hp).complement, hcomplement⟩,
      by rw [add_comm, (hinside p hp).whole]⟩

/-- A value a little beyond the first point of a descending logarithmic axis, and two in its range. -/
theorem clamped_eq_clipped_two_axes :
    let I : Interpolator ℚ := twoAxes ⟨[3, 2], #[1, 2, 3, 5, 8, 13], rfl⟩
    I.Made ∧ ∃ c, I.locate 1 (NdArray.vector [20001 / 10000, 1, 3 / 2]) true = .ok c ∧
      I.locate 1 (NdArray.vector [2, 1, 3 / 2]) false = .ok c ∧ c.clamp (1 / 1000000) = .ok c := by
  intro I
  have hI : I.Made := made_twoAxes rfl
  have hlow : IsLeast {y | y ∈ ([2, 1] : List ℚ)} 1 :=
    ⟨by decide +kernel, (by decide +kernel : ∀ y ∈ ([2, 1] : List ℚ), 1 ≤ y)⟩
  have hhigh : IsGreatest {y | y ∈ ([2, 1] : List ℚ)} 2 :=
    ⟨by decide +kernel, (by decide +kernel : ∀ y ∈ ([2, 1] : List ℚ), y ≤ 2)⟩
  obtain ⟨d, hord, haccepted, hall⟩ := clamped_eq_clipped hI (k := 1) (a := ⟨[2, 1], true⟩) rfl hlow hhigh
    (NdArray.vector [20001 / 10000, 1, 3 / 2])
  obtain rfl : d = .descending := by
    cases d with
    | ascending => exact absurd hord (by decide +kernel)
    | descending => rfl
  have hnoise : ∀ x ∈ ([20001 / 10000, 1, 3 / 2] : List ℚ), Grid.OnlyNoise .descending
      (Axis.located ⟨[2, 1], true⟩) (1 / 1000) (Axis.coordinate ⟨[2, 1], true⟩ x) := by decide +kernel
  have hlocated : ∃ c, I.locate 1 (NdArray.vector [20001 / 10000, 1, 3 / 2]) false = .ok c :=
    Outcome.exists_of_isOk (by decide +kernel)
  obtain ⟨c, hc⟩ := haccepted.2 ⟨hlocated, hnoise⟩
  obtain ⟨hclipped, -, hclamp⟩ := hall c hc
  have hvalues : ((NdArray.vector [20001 / 10000, 1, 3 / 2]).map fun x => max 1 (min x 2)) =
      NdArray.vector ([2, 1, 3 / 2] : List ℚ) := by
    rw [NdArray.map_vector]
    exact congrArg NdArray.vector (by decide +kernel)
  exact ⟨hI, c, hc, hvalues ▸ hclipped, hclamp _ (by decide +kernel)⟩

end Interpolator
end Regrid
