import Regrid.Proofs.Grid.Order
import Regrid.Proofs.Locate.Walk

/-!
# Positions that fit

In exact arithmetic a position fits a query in a grid (`Grid.Fits`) when its bracket is
one of the grid, the query is where index and fraction say, and the fraction leaves the
unit interval only in front of the first bracket and behind the last one.  Every
bracket that the scan stops at gives such a position (`Moves.fits`), and a tie-break
keeps it one (`fits_move`).

A position that fits is not unique: a query on an inner grid point has two of them, at
the upper end of one bracket and at the lower end of the next.  There is no other
choice (`Fits.eq_or_tie`), so a quantity that is the same at both ends of such a tie
does not depend on the way in which a query was located (`Fits.lerp_eq`).  At a grid point it
is the quantity of this point (`Fits.lerp_point`).
-/
namespace Regrid

variable {K : Type} [Field K] [LinearOrder K]

namespace Grid

/-- **A position fits a query** `x` in a grid. -/
structure Fits (grid : List K) (x : K) (p : Position K) : Prop where
  /-- There is a lower point. -/
  nonneg : 0 ≤ p.idx
  /-- There is an upper point. -/
  last : p.idx + 2 ≤ grid.length
  /-- The distances make one. -/
  complement : p.complement = 1 - p.fraction
  /-- The query is on the way from the lower point to the upper one. -/
  reproduces : point grid p.idx + p.fraction * (point grid (p.idx + 1) - point grid p.idx) = x
  /-- Only the first bracket reaches beyond its lower point. -/
  front : p.idx = 0 ∨ 0 ≤ p.fraction
  /-- Only the last bracket reaches beyond its upper point. -/
  back : p.idx + 2 = grid.length ∨ p.fraction ≤ 1

namespace Fits

variable {d : Direction} {grid : List K} {x : K} {p q : Position K}

/-- A position made from a fraction has the right complement. -/
theorem ofFraction [FloorRing K] [Elementary K] {i : Int} {t : K} (nonneg : 0 ≤ i)
    (last : i + 2 ≤ grid.length)
    (reproduces : point grid i + t * (point grid (i + 1) - point grid i) = x)
    (front : i = 0 ∨ 0 ≤ t) (back : i + 2 = grid.length ∨ t ≤ 1) :
    Fits grid x (Position.ofFraction i t) :=
  ⟨nonneg, last, by simp [Position.ofFraction], reproduces, front, back⟩

theorem bracket_before (h : Fits grid x p) (hord : Ordered d grid) :
    d.Before (point grid p.idx) (point grid (p.idx + 1)) := by
  have hlast := h.last
  exact hord.before h.nonneg (lt_add_one _) (by omega)

theorem width_ne (h : Fits grid x p) (hord : Ordered d grid) :
    point grid (p.idx + 1) - point grid p.idx ≠ 0 :=
  sub_ne_zero.2 (h.bracket_before hord).ne.symm

/-- The fraction is what the scan computes. -/
theorem fraction_eq (h : Fits grid x p) (hord : Ordered d grid) :
    p.fraction = (x - point grid p.idx) / (point grid (p.idx + 1) - point grid p.idx) := by
  rw [eq_div_iff (h.width_ne hord), ← h.reproduces]
  ring

variable [IsStrictOrderedRing K]

theorem before_lower_iff (h : Fits grid x p) (hord : Ordered d grid) :
    d.Before x (point grid p.idx) ↔ p.fraction < 0 := by
  have := Direction.before_at_iff' (h.bracket_before hord) 0 x
  rwa [zero_mul, add_zero, ← h.fraction_eq hord] at this

theorem upper_before_iff (h : Fits grid x p) (hord : Ordered d grid) :
    d.Before (point grid (p.idx + 1)) x ↔ 1 < p.fraction := by
  have := Direction.before_at_iff (h.bracket_before hord) 1 x
  rwa [one_mul, add_sub_cancel, ← h.fraction_eq hord] at this

/-! ## How many there are -/

omit [IsStrictOrderedRing K] in
/-- One bracket fits in one way only. -/
theorem eq_of_idx_eq (hord : Ordered d grid) (hp : Fits grid x p) (hq : Fits grid x q)
    (h : p.idx = q.idx) : p = q := by
  have hf : p.fraction = q.fraction := by rw [hp.fraction_eq hord, hq.fraction_eq hord, h]
  obtain ⟨i, f, c⟩ := p
  obtain ⟨i', f', c'⟩ := q
  have hc : c = 1 - f := hp.complement
  have hc' : c' = 1 - f' := hq.complement
  simp only at h hf
  rw [hc, hc', h, hf]

/-- Two brackets fit a query only if it is the grid point between them. -/
theorem tie_of_idx_lt (hord : Ordered d grid) (hp : Fits grid x p) (hq : Fits grid x q)
    (h : p.idx < q.idx) : q.idx = p.idx + 1 ∧ p.fraction = 1 ∧ q.fraction = 0 := by
  have hnonneg := hp.nonneg
  have hupper : ¬ d.Before (point grid (p.idx + 1)) x := by
    rw [hp.upper_before_iff hord, not_lt]
    exact hp.back.resolve_left (by have := hq.last; omega)
  have hlower : ¬ d.Before x (point grid q.idx) := by
    rw [hq.before_lower_iff hord, not_lt]
    exact hq.front.resolve_left (by omega)
  -- With a bracket between them, the query would be behind the first and in front of the other.
  have hidx : q.idx = p.idx + 1 := by
    by_contra hne
    have hlast := hq.last
    have hbetween : d.Before (point grid (p.idx + 1)) (point grid q.idx) :=
      hord.before (by omega) (by omega) (by omega)
    exact hupper (hbetween.trans_not hlower)
  have hx : x = point grid q.idx := Direction.eq_of_not_before hlower (by rwa [hidx])
  refine ⟨hidx, ?_, ?_⟩
  · rw [hp.fraction_eq hord, hx, hidx, div_self (hp.width_ne hord)]
  · rw [hq.fraction_eq hord, hx, sub_self, zero_div]

/-- **A query has one position, or the two of a tie.** -/
theorem eq_or_tie (hord : Ordered d grid) (hp : Fits grid x p) (hq : Fits grid x q) :
    p = q ∨ (q.idx = p.idx + 1 ∧ p.fraction = 1 ∧ q.fraction = 0) ∨
      (p.idx = q.idx + 1 ∧ q.fraction = 1 ∧ p.fraction = 0) := by
  rcases lt_trichotomy p.idx q.idx with hlt | heq | hgt
  · exact .inr (.inl (tie_of_idx_lt hord hp hq hlt))
  · exact .inl (eq_of_idx_eq hord hp hq heq)
  · exact .inr (.inr (tie_of_idx_lt hord hq hp hgt))

end Fits
end Grid

/-- The linear interpolation at a position between what belongs to the two points of
its bracket. -/
def Position.lerp (p : Position K) (f : Int → K) : K :=
  p.complement * f p.idx + p.fraction * f (p.idx + 1)

/-- **Inside its bracket**: the distances of a position are parts of the whole. -/
structure Position.Inside (p : Position K) : Prop where
  fraction : 0 ≤ p.fraction
  complement : 0 ≤ p.complement
  whole : p.complement + p.fraction = 1

/-- A part is no greater than the whole. -/
theorem Position.Inside.le_one [IsStrictOrderedRing K] {p : Position K} (h : p.Inside) :
    p.fraction ≤ 1 ∧ p.complement ≤ 1 := by
  rw [← h.whole]
  exact ⟨le_add_of_nonneg_left h.complement, le_add_of_nonneg_right h.fraction⟩

namespace Grid

variable [IsStrictOrderedRing K] {d : Direction} {grid : List K} {x : K} {p q : Position K}

/-- **The interpolation does not depend on the choice of a bracket.** -/
theorem Fits.lerp_eq (hord : Ordered d grid) (hp : Fits grid x p) (hq : Fits grid x q)
    (f : Int → K) : p.lerp f = q.lerp f := by
  have hc := hp.complement
  have hc' := hq.complement
  rcases Fits.eq_or_tie hord hp hq with rfl | ⟨hidx, hp1, hq0⟩ | ⟨hidx, hq1, hp0⟩
  · rfl
  · rw [Position.lerp, Position.lerp, hc, hc', hp1, hq0, hidx]
    ring
  · rw [Position.lerp, Position.lerp, hc, hc', hp0, hq1, hidx]
    ring

/-! ## Grid points -/

/-- A grid point at the lower end of its bracket. -/
theorem fits_lower {i : Int} (h0 : 0 ≤ i) (hi : i + 2 ≤ grid.length) :
    Fits grid (point grid i) ⟨i, 0, 1⟩ :=
  ⟨h0, hi, (sub_zero 1).symm, by rw [zero_mul, add_zero], .inr le_rfl, .inr zero_le_one⟩

/-- A grid point at the upper end of its bracket. -/
theorem fits_upper {i : Int} (h0 : 0 ≤ i) (hi : i + 2 ≤ grid.length) :
    Fits grid (point grid (i + 1)) ⟨i, 1, 0⟩ :=
  ⟨h0, hi, (sub_self 1).symm, by rw [one_mul, add_sub_cancel], .inr zero_le_one, .inr le_rfl⟩

/-- **At a grid point** the interpolation is what belongs to the point. -/
theorem Fits.lerp_point (hord : Ordered d grid) {j : Nat} (hj : j < grid.length)
    (h : Fits grid (point grid j) p) (f : Int → K) : p.lerp f = f j := by
  have hnonneg := h.nonneg
  have hlast := h.last
  by_cases hend : j + 2 ≤ grid.length
  · have hlower : Fits grid (point grid j) ⟨j, 0, 1⟩ := fits_lower (by omega) (by omega)
    rw [h.lerp_eq hord hlower f, Position.lerp]
    simp
  · -- The last point has no bracket above it.
    obtain ⟨i, rfl⟩ : ∃ i, j = i + 1 := ⟨j - 1, by omega⟩
    rw [Nat.cast_succ] at h ⊢
    have hupper : Fits grid (point grid (i + 1)) ⟨i, 1, 0⟩ := fits_upper (by omega) (by omega)
    rw [h.lerp_eq hord hupper f, Position.lerp]
    simp

/-! ## Brackets -/

/-- **The bracket at an index holds a query** `x`: the query is between its two points, or beyond
an end of the grid that the bracket is at. -/
structure Holds (d : Direction) (grid : List K) (j : Int) (x : K) : Prop where
  nonneg : 0 ≤ j
  last : j + 2 ≤ grid.length
  front : j = 0 ∨ ¬ d.Before x (point grid j)
  back : j + 2 = grid.length ∨ ¬ d.Before (point grid (j + 1)) x

/-- The bracket of a position that fits holds the query. -/
theorem Fits.holds (hord : Ordered d grid) (h : Fits grid x p) : Holds d grid p.idx x where
  nonneg := h.nonneg
  last := h.last
  front := h.front.imp_right fun hnonneg => by rwa [h.before_lower_iff hord, not_lt]
  back := h.back.imp_right fun hle => by rwa [h.upper_before_iff hord, not_lt]

variable [FloorRing K] [Elementary K]

/-- **In a bracket that holds a query**, the position of the query fits. -/
theorem Holds.fits (hord : Ordered d grid) {j : Int} (h : Holds d grid j x) :
    Fits grid x (Position.ofFraction j ((x - point grid j) / (point grid (j + 1) - point grid j))) := by
  have hnonneg := h.nonneg
  have hlast := h.last
  have hbracket : d.Before (point grid j) (point grid (j + 1)) :=
    hord.before hnonneg (lt_add_one _) (by omega)
  have hwidth := sub_ne_zero.2 hbracket.ne.symm
  have hfront := Direction.before_at_iff' hbracket 0 x
  have hback := Direction.before_at_iff hbracket 1 x
  rw [zero_mul, add_zero] at hfront
  rw [one_mul, add_sub_cancel] at hback
  refine .ofFraction hnonneg hlast ?_ ?_ ?_
  · rw [div_mul_cancel₀ _ hwidth, add_sub_cancel]
  · refine h.front.imp_right fun hnot => ?_
    rwa [hfront, not_lt] at hnot
  · refine h.back.imp_right fun hnot => ?_
    rwa [hback, not_lt] at hnot

end Grid

/-! ## What the scan stops at -/

namespace Locate

variable [IsStrictOrderedRing K] [FloorRing K] [Elementary K]
variable {d : Direction} {grid : List K} {x : K}

/-- **Where the scan stops, the bracket fits the query.** -/
theorem Moves.fits (hord : Grid.Ordered d grid) {i j : Nat} (hi : i + 2 ≤ grid.length)
    (h : Moves d (fun k => Grid.point grid k) grid.length x i j) :
    Grid.Fits grid x (Position.ofFraction j
      ((x - Grid.point grid j) / (Grid.point grid (j + 1) - Grid.point grid j))) := by
  have hj := h.last hi
  have hbracket : d.Before (Grid.point grid j) (Grid.point grid (j + 1)) :=
    hord.before (Int.natCast_nonneg j) (lt_add_one _) (by omega)
  -- A query beyond one end of the bracket is not beyond the other one.
  have hends : (j = 0 ∨ ¬ d.Before x (Grid.point grid j)) ∧
      (j + 2 = grid.length ∨ ¬ d.Before (Grid.point grid (j + 1)) x) := by
    cases h with
    | down lt passed stop =>
      have hfront := passed (j + 1) (Nat.lt_succ_self j) lt
      rw [Direction.precedes_eq, decide_eq_true_iff, Nat.cast_succ] at hfront
      exact ⟨by simpa using stop, .inr hfront.asymm⟩
    | up lt last front passed stop =>
      have hback := passed j lt le_rfl
      rw [Direction.succeeds_eq, decide_eq_true_iff] at hback
      exact ⟨.inr hback.asymm, by simpa using stop⟩
    | stay front back => exact ⟨by simpa using front, by simpa using back⟩
  refine Grid.Holds.fits hord ⟨Int.natCast_nonneg j, by exact_mod_cast hj, ?_, ?_⟩
  · exact hends.1.imp_left fun h0 => by exact_mod_cast h0
  · exact hends.2.imp_left fun hn => by exact_mod_cast hn

/-! ## Ties -/

omit [IsStrictOrderedRing K] in
/-- **The other bracket of a tie fits as well.** -/
theorem fits_move (t : TieBreak) {found : Int × K}
    (h : Grid.Fits grid x (Position.ofFraction found.1 found.2)) :
    Grid.Fits grid x (Position.ofFraction (t.move grid.length found).1
      (t.move grid.length found).2) := by
  obtain ⟨idx, fraction⟩ := found
  have hnonneg : 0 ≤ idx := h.nonneg
  have hlast : idx + 2 ≤ grid.length := h.last
  have hx := h.reproduces
  simp only [Position.ofFraction] at hx
  cases t with
  | keep => exact h
  | lower =>
    by_cases htie : fraction = 1 ∧ idx < grid.length - 2
    · obtain ⟨rfl, hidx⟩ := htie
      have hmove : TieBreak.lower.move grid.length (idx, (1 : K)) = (idx + 1, 0) := by
        simp [TieBreak.move, hidx]
      rw [hmove]
      refine .ofFraction (by omega) (by omega) ?_ (.inr le_rfl) (.inr zero_le_one)
      rw [← hx]
      ring
    · have hmove : TieBreak.lower.move grid.length (idx, fraction) = (idx, fraction) := by
        simpa [TieBreak.move] using htie
      rwa [hmove]
  | upper =>
    by_cases htie : fraction = 0 ∧ 0 < idx
    · obtain ⟨rfl, hidx⟩ := htie
      have hmove : TieBreak.upper.move grid.length (idx, (0 : K)) = (idx - 1, 1) := by
        simp [TieBreak.move, hidx]
      rw [hmove]
      refine .ofFraction (by omega) (by omega) ?_ (.inr zero_le_one) (.inr le_rfl)
      rw [← hx, sub_add_cancel]
      ring
    · have hmove : TieBreak.upper.move grid.length (idx, fraction) = (idx, fraction) := by
        simpa [TieBreak.move] using htie
      rwa [hmove]

end Locate
end Regrid
