import Regrid.Proofs.Locate.Mirror

/-!
# Refined grids

A grid is refined by one that holds all of its points, in the same direction or in the opposite
one.  A bracket of the finer grid lies in a bracket of the coarser one: between two neighbours
of the finer grid there is no point of the coarser one, and the end brackets of the two grids
reach beyond the same ends.  So one bracket of the coarser grid holds both points of a bracket of
the finer one and every query that this bracket holds (`Ordered.exists_common_bracket`).

In that bracket everything is linear.  To interpolate in the coarser grid at the two points of a
bracket of the finer grid, and between the two results, is to interpolate in the coarser grid
(`Fits.lerp_refined`).
-/
namespace Regrid

variable {K : Type} [Field K] [LinearOrder K] [IsStrictOrderedRing K] [FloorRing K] [Elementary K]

namespace Grid

variable {d d' : Direction} {grid fine : List K} {x z : K} {p q p₀ p₁ : Position K}

/-! ## Brackets that there are -/

/-- A query is held by a bracket that does not end at it, unless it is the last one. -/
theorem Ordered.exists_holds (hord : Ordered d grid) (hlen : 2 ≤ grid.length) (x : K) :
    ∃ j, Holds d grid j x ∧ (j + 2 = grid.length ∨ d.Before x (point grid (j + 1))) := by
  obtain ⟨p, hp⟩ := hord.exists_fits hlen x
  have hholds := hp.holds hord
  have hnonneg := hholds.nonneg
  have hlast := hholds.last
  rcases hholds.back with hend | hback
  · exact ⟨p.idx, hholds, .inl hend⟩
  · by_cases hbefore : d.Before x (point grid (p.idx + 1))
    · exact ⟨p.idx, hholds, .inr hbefore⟩
    · by_cases hend : p.idx + 2 = grid.length
      · exact ⟨p.idx, hholds, .inl hend⟩
      · -- The query is the upper point, and the lower point of the next bracket.
        have hx : x = point grid (p.idx + 1) := Direction.eq_of_not_before hbefore hback
        have hnext : d.Before (point grid (p.idx + 1)) (point grid (p.idx + 1 + 1)) :=
          hord.before (by omega) (by omega) (by omega)
        rw [hx]
        exact ⟨p.idx + 1, ⟨by omega, by omega, .inr (Direction.before_irrefl d _), .inr hnext.asymm⟩,
          .inr hnext⟩

/-! ## Brackets in brackets -/

omit [IsStrictOrderedRing K] [FloorRing K] [Elementary K] in
/-- Between two neighbours there is no point of the grid. -/
theorem Ordered.not_between (hord : Ordered d fine) {i : Int} (h0 : 0 ≤ i) (hi : i + 1 < fine.length)
    {y : K} (hy : y ∈ fine) (h : d.Before (point fine i) y) :
    ¬ d.Before y (point fine (i + 1)) := by
  obtain ⟨m, hm, rfl⟩ := List.mem_iff_getElem.1 hy
  have hpoint : fine[m] = point fine m := by
    rw [point_natCast, List.getD_eq_getElem _ _ hm]
  rw [hpoint] at h ⊢
  have hlt : i < m := by
    by_contra hle
    exact hord.not_before (Int.natCast_nonneg m) (not_lt.1 hle) (by omega) h
  exact hord.not_before (by omega) (by omega) (by omega)

/-- **A bracket of the finer grid lies in a bracket of the coarser one**, and so do the queries
that it holds. -/
theorem Ordered.exists_common_bracket (hord : Ordered d grid) (hlen : 2 ≤ grid.length)
    (hfine : Ordered d fine) (hsub : grid ⊆ fine) {i : Int} (hz : Holds d fine i z) :
    ∃ j, Holds d grid j (point fine i) ∧ Holds d grid j (point fine (i + 1)) ∧ Holds d grid j z := by
  have hnonneg := hz.nonneg
  have hlast := hz.last
  have hstep : d.Before (point fine i) (point fine (i + 1)) :=
    hfine.before hnonneg (lt_add_one i) (by omega)
  have hmem : ∀ k : Int, 0 ≤ k → k < grid.length → point grid k ∈ fine :=
    fun k h0 hk => hsub (point_mem h0 hk)
  obtain ⟨j, hlower, hnext⟩ := hord.exists_holds hlen (point fine i)
  have hj := hlower.nonneg
  have hj' := hlower.last
  have hupperBack : j + 2 = grid.length ∨ ¬ d.Before (point grid (j + 1)) (point fine (i + 1)) :=
    hnext.imp_right fun hbefore =>
      hfine.not_between hnonneg (by omega) (hmem _ (by omega) (by omega)) hbefore
  refine ⟨j, hlower, ⟨hj, hj', ?_, hupperBack⟩, ⟨hj, hj', ?_, ?_⟩⟩
  · exact hlower.front.imp_right fun hnot h => hnot (hstep.trans h)
  · -- In front of the first point of the finer grid there is no point of the coarser one.
    by_cases hfirst : j = 0
    · exact .inl hfirst
    · have hnot := hlower.front.resolve_left hfirst
      rcases hz.front with hi | hfront
      · have hbefore : d.Before (point grid 0) (point grid j) :=
          hord.before le_rfl (by omega) (by omega)
        have hin := hfine.not_before_first (hmem 0 le_rfl (by omega))
        rw [hi] at hnot
        exact absurd (hbefore.trans_not hnot) hin
      · refine .inr fun h => hnot ?_
        exact Direction.Before.not_trans hfront h
  · by_cases hend : j + 2 = grid.length
    · exact .inl hend
    · have hnot := hupperBack.resolve_left hend
      rcases hz.back with hi | hback
      · have hbefore : d.Before (point grid (j + 1)) (point grid (grid.length - 1)) :=
          hord.before (by omega) (by omega) (by omega)
        have hin := hfine.not_last_before (hmem (grid.length - 1) (by omega) (by omega))
        rw [show (fine.length : Int) - 1 = i + 1 by omega] at hin
        exact absurd (Direction.Before.not_trans hnot hbefore) hin
      · exact .inr fun h => hback (Direction.Before.not_trans hnot h)

/-! ## Interpolating twice -/

/-- To interpolate between interpolated values, where the finer grid follows the same direction. -/
theorem Fits.lerp_refined_of_same (hord : Ordered d grid) (hlen : 2 ≤ grid.length)
    (hfine : Ordered d fine) (hsub : grid ⊆ fine) (hp : Fits grid z p) (hq : Fits fine z q)
    (h₀ : Fits grid (point fine q.idx) p₀) (h₁ : Fits grid (point fine (q.idx + 1)) p₁)
    (f : Int → K) : q.complement * p₀.lerp f + q.fraction * p₁.lerp f = p.lerp f := by
  obtain ⟨j, hlower, hupper, hz⟩ := hord.exists_common_bracket hlen hfine hsub (hq.holds hfine)
  have hx := hq.reproduces
  rw [h₀.lerp_eq hord (hlower.fits hord), h₁.lerp_eq hord (hupper.fits hord),
    hp.lerp_eq hord (hz.fits hord), hq.complement, ← hx]
  simp only [Position.lerp, Position.ofFraction, Exact.ofInt_eq, Int.cast_one]
  ring

/-- **To interpolate between interpolated values is to interpolate**, if the values belong to the
points of a bracket of a finer grid. -/
theorem Fits.lerp_refined (hord : Ordered d grid) (hlen : 2 ≤ grid.length)
    (hfine : Ordered d' fine) (hsub : grid ⊆ fine) (hp : Fits grid z p) (hq : Fits fine z q)
    (h₀ : Fits grid (point fine q.idx) p₀) (h₁ : Fits grid (point fine (q.idx + 1)) p₁)
    (f : Int → K) : q.complement * p₀.lerp f + q.fraction * p₁.lerp f = p.lerp f := by
  by_cases hd : d' = d
  · rw [hd] at hfine
    exact hp.lerp_refined_of_same hord hlen hfine hsub hq h₀ h₁ f
  · -- From its other end the finer grid follows the same direction, and the points of the bracket
    -- change places.
    have hopposite : d'.opposite = d := by
      cases d <;> cases d' <;> simp_all [Direction.opposite]
    have hlower := point_reverse_lower hq.nonneg hq.last
    have hupper := point_reverse_upper hq.nonneg hq.last
    rw [← hlower] at h₁
    rw [← hupper] at h₀
    have hreverse := hp.lerp_refined_of_same hord hlen (hopposite ▸ hfine.reverse)
      (fun y hy => List.mem_reverse.2 (hsub hy)) hq.mirrored h₁ h₀ f
    rw [← hreverse, add_comm]
    rfl

end Grid
end Regrid
