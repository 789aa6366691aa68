import Regrid.Proofs.Locate.Mirror
import Regrid.Proofs.Locate.Ties

/-!
# Clipped queries

A query beyond an end of a grid may be moved to this end (`Grid.clip`), or its position may be
clipped, both distances to the unit interval (`Position.clipped`).  The clipped position fits the
clipped query (`Grid.Fits.clip`).  There is more to it than noise, for a tolerance, unless the query is
beyond an end by less than this part of the bracket there (`Grid.Fits.deviates_eq_false_iff`).

A location does not tell the two ways apart (`Backend.locate_clip`).  A query beyond an end is held by
the bracket there and by no other, and so is the end itself, so the same brackets are nearest
(`Grid.holds_clip_iff`).  The bracket to start from may be another one, but a query beyond an end is
found in the same bracket from anywhere (`Locate.NearestPath.startFor_clip`).  A tie-break moves the
clipped position where it moves the other one (`Grid.Fits.move_clip`): the ends of the grid are no
ties.
-/
namespace Regrid

variable {K : Type} [Field K] [LinearOrder K]

/-! ## Clipped positions -/

namespace Position

variable [FloorRing K] [Elementary K] {p : Position K}

theorem clip_of_neg {x : K} (h : x < 0) : clip x = 0 := by
  simp [clip, h]

theorem clip_of_one_lt {x : K} (h : 1 < x) : clip x = 1 := by
  have h0 : ¬ x < 0 := not_lt.2 (zero_le_one.trans h.le)
  simp [clip, h, h0]

variable [IsStrictOrderedRing K]

/-- In front of its bracket a position is moved to the lower point. -/
theorem clipped_of_neg (hcomplement : p.complement = 1 - p.fraction) (h : p.fraction < 0) :
    p.clipped = ⟨p.idx, 0, 1⟩ := by
  rw [clipped, hcomplement, clip_one_sub, clip_of_neg h, sub_zero]

/-- Behind its bracket it is moved to the upper point. -/
theorem clipped_of_one_lt (hcomplement : p.complement = 1 - p.fraction) (h : 1 < p.fraction) :
    p.clipped = ⟨p.idx, 1, 0⟩ := by
  rw [clipped, hcomplement, clip_one_sub, clip_of_one_lt h, sub_self]

/-- Clipped is what is made from a clipped fraction. -/
theorem clipped_ofFraction (i : Int) (x : K) : (ofFraction i x).clipped = ofFraction i (clip x) := by
  simp only [clipped, ofFraction, Exact.ofInt_eq, Int.cast_one, clip_one_sub]

/-- A clipped position is inside its bracket, wherever it was before. -/
theorem inside_clipped (hcomplement : p.complement = 1 - p.fraction) : p.clipped.Inside := by
  rcases lt_or_ge p.fraction 0 with hneg | hnonneg
  · rw [clipped_of_neg hcomplement hneg]
    exact ⟨le_rfl, zero_le_one, add_zero 1⟩
  · rcases lt_or_ge 1 p.fraction with hone | hle
    · rw [clipped_of_one_lt hcomplement hone]
      exact ⟨zero_le_one, le_rfl, zero_add 1⟩
    · have hinside : p.Inside := ⟨hnonneg, by rw [hcomplement]; linarith, by rw [hcomplement]; ring⟩
      rw [hinside.clipped_eq]
      exact hinside

/-- **Only noise** is outside the unit interval by less than the tolerance. -/
theorem deviates_eq_false_iff {tolerance : K} (hcomplement : p.complement = 1 - p.fraction) :
    p.deviates tolerance = false ↔ -tolerance < p.fraction ∧ p.fraction < 1 + tolerance := by
  simp only [deviates, isBad, hcomplement, Exact.le_eq, Exact.ofInt_eq, Int.cast_zero, Int.cast_one,
    Bool.or_eq_false_iff, decide_eq_false_iff_not, not_le]
  constructor
  · rintro ⟨⟨hlow, hhigh⟩, -⟩
    exact ⟨by linarith, hhigh⟩
  · rintro ⟨hlow, hhigh⟩
    exact ⟨⟨by linarith, hhigh⟩, by linarith, by linarith⟩

end Position

namespace Grid

variable {d : Direction} {grid : List K} {x : K} {p : Position K} {i j : Int}

/-- **A query moved into the range of a grid**, to the end that it is beyond. -/
def clip (d : Direction) (grid : List K) (x : K) : K :=
  if d.Before x (point grid 0) then point grid 0
  else if d.Before (point grid (grid.length - 1)) x then point grid (grid.length - 1)
  else x

/-! ## Beyond an end -/

/-- What is beyond no end is between the least and the greatest point. -/
theorem between_of_not_beyond (hlen : 2 ≤ grid.length) (hfirst : ¬ d.Before x (point grid 0))
    (hlast : ¬ d.Before (point grid (grid.length - 1)) x) : Between grid x := by
  have hfront : point grid 0 ∈ grid := point_mem le_rfl (by omega)
  have hback : point grid (grid.length - 1) ∈ grid := point_mem (by omega) (by omega)
  cases d with
  | ascending => exact ⟨⟨_, hfront, not_lt.1 hfirst⟩, _, hback, not_lt.1 hlast⟩
  | descending => exact ⟨⟨_, hback, not_lt.1 hlast⟩, _, hfront, not_lt.1 hfirst⟩

/-- A query is beyond the first point, beyond the last one or between them. -/
theorem beyond_cases (d : Direction) (hlen : 2 ≤ grid.length) (x : K) :
    d.Before x (point grid 0) ∧ clip d grid x = point grid 0 ∨
      d.Before (point grid (grid.length - 1)) x ∧ clip d grid x = point grid (grid.length - 1) ∨
      Between grid x ∧ clip d grid x = x := by
  by_cases hfirst : d.Before x (point grid 0)
  · exact .inl ⟨hfirst, if_pos hfirst⟩
  · by_cases hlast : d.Before (point grid (grid.length - 1)) x
    · exact .inr (.inl ⟨hlast, by rw [clip, if_neg hfirst, if_pos hlast]⟩)
    · exact .inr (.inr ⟨between_of_not_beyond hlen hfirst hlast, by rw [clip, if_neg hfirst, if_neg hlast]⟩)

/-- Clipped queries are between the least and the greatest point. -/
theorem between_clip (d : Direction) (hlen : 2 ≤ grid.length) (x : K) :
    Between grid (clip d grid x) := by
  rcases beyond_cases d hlen x with ⟨-, hclip⟩ | ⟨-, hclip⟩ | ⟨hbetween, hclip⟩
  · have hfront : point grid 0 ∈ grid := point_mem le_rfl (by omega)
    rw [hclip]
    exact ⟨⟨_, hfront, le_rfl⟩, _, hfront, le_rfl⟩
  · have hback : point grid (grid.length - 1) ∈ grid := point_mem (by omega) (by omega)
    rw [hclip]
    exact ⟨⟨_, hback, le_rfl⟩, _, hback, le_rfl⟩
  · rwa [hclip]

/-- Not behind the first point a query is held by the first bracket and by no other. -/
theorem Ordered.holds_iff_of_not_behind_first (hord : Ordered d grid) (hlen : 2 ≤ grid.length)
    (hx : ¬ d.Before (point grid 0) x) : Holds d grid j x ↔ j = 0 := by
  constructor
  · intro h
    have hlast := h.last
    by_contra hne
    have hpoint : d.Before (point grid 0) (point grid j) :=
      hord.before le_rfl (lt_of_le_of_ne h.nonneg (Ne.symm hne)) (by omega)
    exact h.front.resolve_left hne (Direction.Before.not_trans hx hpoint)
  · rintro rfl
    have hpoint : d.Before (point grid 0) (point grid (0 + 1)) :=
      hord.before le_rfl (lt_add_one _) (by omega)
    exact ⟨le_rfl, by omega, .inl rfl, .inr fun h => hx (hpoint.trans h)⟩

/-- Not in front of the last point a query is held by the last bracket and by no other. -/
theorem Ordered.holds_iff_of_not_before_last (hord : Ordered d grid) (hlen : 2 ≤ grid.length)
    (hx : ¬ d.Before x (point grid (grid.length - 1))) :
    Holds d grid j x ↔ j = grid.length - 2 := by
  constructor
  · intro h
    have hnonneg := h.nonneg
    have hlast := h.last
    by_contra hne
    have hpoint : d.Before (point grid (j + 1)) (point grid (grid.length - 1)) :=
      hord.before (by omega) (by omega) (by omega)
    exact h.back.resolve_left (by omega) (hpoint.trans_not hx)
  · rintro rfl
    have hpoint : d.Before (point grid (grid.length - 2)) (point grid (grid.length - 1)) :=
      hord.before (by omega) (by omega) (by omega)
    exact ⟨by omega, by omega, .inr fun h => hx (h.trans hpoint), .inl (by omega)⟩

/-- **A clipped query is held by the brackets that hold the query.** -/
theorem holds_clip_iff (hord : Ordered d grid) (hlen : 2 ≤ grid.length) :
    Holds d grid j (clip d grid x) ↔ Holds d grid j x := by
  rcases beyond_cases d hlen x with ⟨hx, hclip⟩ | ⟨hx, hclip⟩ | ⟨-, hclip⟩
  · rw [hclip, hord.holds_iff_of_not_behind_first hlen (Direction.before_irrefl d _),
      hord.holds_iff_of_not_behind_first hlen hx.asymm]
  · rw [hclip, hord.holds_iff_of_not_before_last hlen (Direction.before_irrefl d _),
      hord.holds_iff_of_not_before_last hlen hx.asymm]
  · rw [hclip]

theorem nearest_clip_iff (hord : Ordered d grid) (hlen : 2 ≤ grid.length) :
    Nearest d grid (clip d grid x) i j ↔ Nearest d grid x i j := by
  constructor
  · rintro ⟨hholds, hcloser⟩
    exact ⟨(holds_clip_iff hord hlen).1 hholds, fun k hk => hcloser k ((holds_clip_iff hord hlen).2 hk)⟩
  · rintro ⟨hholds, hcloser⟩
    exact ⟨(holds_clip_iff hord hlen).2 hholds, fun k hk => hcloser k ((holds_clip_iff hord hlen).1 hk)⟩

/-- A query that is moved is found in the same bracket from anywhere. -/
theorem Nearest.of_clip_ne (hord : Ordered d grid) (hlen : 2 ≤ grid.length) (hx : clip d grid x ≠ x)
    (h : Nearest d grid x i j) (i' : Int) : Nearest d grid x i' j := by
  have hholds : ∀ k, Holds d grid k x → k = j := by
    intro k hk
    rcases beyond_cases d hlen x with ⟨hbeyond, -⟩ | ⟨hbeyond, -⟩ | ⟨-, hclip⟩
    · have hfirst := fun k => hord.holds_iff_of_not_behind_first (j := k) hlen hbeyond.asymm
      rw [(hfirst k).1 hk, (hfirst j).1 h.holds]
    · have hlast := fun k => hord.holds_iff_of_not_before_last (j := k) hlen hbeyond.asymm
      rw [(hlast k).1 hk, (hlast j).1 h.holds]
    · exact absurd hclip hx
  exact ⟨h.holds, fun k hk hne => absurd (hholds k hk) hne⟩

/-- Clipped by the least and the greatest point: the direction has no part in it. -/
theorem Ordered.clip_eq (hord : Ordered d grid) (hlen : 2 ≤ grid.length) {low high : K}
    (hlow : IsLeast {y | y ∈ grid} low) (hhigh : IsGreatest {y | y ∈ grid} high) (x : K) :
    clip d grid x = max low (min x high) := by
  have hfront : point grid 0 ∈ grid := point_mem le_rfl (by omega)
  have hback : point grid (grid.length - 1) ∈ grid := point_mem (by omega) (by omega)
  have hle : low ≤ high := hlow.2 hhigh.1
  have hcases : x < low ∧ ¬ high < x ∧ max low (min x high) = low ∨
      ¬ x < low ∧ high < x ∧ max low (min x high) = high ∨
      ¬ x < low ∧ ¬ high < x ∧ max low (min x high) = x := by
    by_cases hx : x < low
    · have hx' := hx.le.trans hle
      exact .inl ⟨hx, not_lt.2 hx', by rw [min_eq_left hx', max_eq_left hx.le]⟩
    · by_cases hx' : high < x
      · exact .inr (.inl ⟨hx, hx', by rw [min_eq_right hx'.le, max_eq_right hle]⟩)
      · exact .inr (.inr ⟨hx, hx', by rw [min_eq_left (not_lt.1 hx'), max_eq_right (not_lt.1 hx)]⟩)
  unfold clip
  cases d with
  | ascending =>
    obtain rfl : low = point grid 0 := hlow.unique
      ⟨hfront, fun y hy => not_lt.1 (hord.not_before_first hy)⟩
    obtain rfl : high = point grid (grid.length - 1) := hhigh.unique
      ⟨hback, fun y hy => not_lt.1 (hord.not_last_before hy)⟩
    rcases hcases with ⟨hx, -, heq⟩ | ⟨hx, hx', heq⟩ | ⟨hx, hx', heq⟩
    · exact (if_pos hx).trans heq.symm
    · exact (if_neg hx).trans ((if_pos hx').trans heq.symm)
    · exact (if_neg hx).trans ((if_neg hx').trans heq.symm)
  | descending =>
    obtain rfl : high = point grid 0 := hhigh.unique
      ⟨hfront, fun y hy => not_lt.1 (hord.not_before_first hy)⟩
    obtain rfl : low = point grid (grid.length - 1) := hlow.unique
      ⟨hback, fun y hy => not_lt.1 (hord.not_last_before hy)⟩
    rcases hcases with ⟨hx, hx', heq⟩ | ⟨-, hx', heq⟩ | ⟨hx, hx', heq⟩
    · exact (if_neg hx').trans ((if_pos hx).trans heq.symm)
    · exact (if_pos hx').trans heq.symm
    · exact (if_neg hx').trans ((if_neg hx).trans heq.symm)

/-! ## Clipped positions of clipped queries -/

variable [IsStrictOrderedRing K]

/-- In front of the first point a position is in front of the first bracket. -/
theorem Fits.fraction_neg (hord : Ordered d grid) (h : Fits grid x p)
    (hx : d.Before x (point grid 0)) : p.idx = 0 ∧ p.fraction < 0 := by
  have hidx := h.idx_eq_zero hord hx
  exact ⟨hidx, by rwa [← h.before_lower_iff hord, hidx]⟩

/-- Behind the last point it is behind the last bracket. -/
theorem Fits.one_lt_fraction (hord : Ordered d grid) (h : Fits grid x p)
    (hx : d.Before (point grid (grid.length - 1)) x) : p.idx = grid.length - 2 ∧ 1 < p.fraction := by
  have hidx := h.idx_eq_last hord hx
  have hupper : p.idx + 1 = grid.length - 1 := by omega
  exact ⟨hidx, by rwa [← h.upper_before_iff hord, hupper]⟩

/-- **Beyond the ends by noise only**: by less than the tolerance, as a part of the bracket at this
end. -/
structure OnlyNoise (d : Direction) (grid : List K) (tolerance x : K) : Prop where
  front : d.Before x (point grid 0) → |x - point grid 0| < tolerance * |point grid 1 - point grid 0|
  back : d.Before (point grid (grid.length - 1)) x → |x - point grid (grid.length - 1)| <
    tolerance * |point grid (grid.length - 1) - point grid (grid.length - 2)|

instance (d : Direction) (grid : List K) (tolerance x : K) : Decidable (OnlyNoise d grid tolerance x) :=
  decidable_of_iff ((d.Before x (point grid 0) →
      |x - point grid 0| < tolerance * |point grid 1 - point grid 0|) ∧
    (d.Before (point grid (grid.length - 1)) x → |x - point grid (grid.length - 1)| <
      tolerance * |point grid (grid.length - 1) - point grid (grid.length - 2)|))
    ⟨fun h => ⟨h.1, h.2⟩, fun h => ⟨h.front, h.back⟩⟩

variable [FloorRing K] [Elementary K]

/-- **The clipped position fits the clipped query.** -/
theorem Fits.clip (hord : Ordered d grid) (hlen : 2 ≤ grid.length) (h : Fits grid x p) :
    Fits grid (clip d grid x) p.clipped := by
  rcases beyond_cases d hlen x with ⟨hx, hclip⟩ | ⟨hx, hclip⟩ | ⟨hbetween, hclip⟩
  · obtain ⟨hidx, hneg⟩ := h.fraction_neg hord hx
    rw [hclip, Position.clipped_of_neg h.complement hneg, hidx]
    exact fits_lower le_rfl (by omega)
  · obtain ⟨hidx, hone⟩ := h.one_lt_fraction hord hx
    rw [hclip, Position.clipped_of_one_lt h.complement hone, hidx,
      show (grid.length : Int) - 1 = grid.length - 2 + 1 by ring]
    exact fits_upper (by omega) (by omega)
  · rw [hclip, (h.inside hord hbetween).clipped_eq]
    exact h

/-- **It is only noise that is clipped** exactly if the query is beyond the ends by noise only. -/
theorem Fits.deviates_eq_false_iff (hord : Ordered d grid) (hlen : 2 ≤ grid.length) {tolerance : K}
    (htolerance : 0 < tolerance) (h : Fits grid x p) :
    p.deviates tolerance = false ↔ OnlyNoise d grid tolerance x := by
  have hends : d.Before (point grid 0) (point grid (grid.length - 1)) :=
    hord.before le_rfl (by omega) (by omega)
  have hx := h.reproduces
  rw [Position.deviates_eq_false_iff h.complement]
  rcases beyond_cases d hlen x with ⟨hbefore, -⟩ | ⟨hbehind, -⟩ | ⟨hbetween, -⟩
  · obtain ⟨hidx, hneg⟩ := h.fraction_neg hord hbefore
    rw [hidx, zero_add] at hx
    have hdistance : |x - point grid 0| = -p.fraction * |point grid 1 - point grid 0| := by
      rw [← hx, add_sub_cancel_left, abs_mul, abs_of_neg hneg]
    have hwidth : 0 < |point grid 1 - point grid 0| := abs_pos.2 (hord.width_ne le_rfl (by omega))
    have hnoise : OnlyNoise d grid tolerance x ↔ -p.fraction < tolerance := by
      rw [← mul_lt_mul_iff_left₀ hwidth, ← hdistance]
      exact ⟨fun hn => hn.front hbefore, fun hlt => ⟨fun _ => hlt, fun hbehind =>
        absurd (hbehind.trans hbefore) hends.asymm⟩⟩
    rw [hnoise]
    exact ⟨fun hin => by linarith, fun hlt => ⟨by linarith, by linarith⟩⟩
  · obtain ⟨hidx, hone⟩ := h.one_lt_fraction hord hbehind
    have hupper : (grid.length : Int) - 2 + 1 = grid.length - 1 := by ring
    rw [hidx, hupper] at hx
    have hdistance : |x - point grid (grid.length - 1)| =
        (p.fraction - 1) * |point grid (grid.length - 1) - point grid (grid.length - 2)| := by
      rw [← abs_of_pos (sub_pos.2 hone), ← abs_mul, ← hx]
      ring_nf
    have hwidth : 0 < |point grid (grid.length - 1) - point grid (grid.length - 2)| := by
      have hne := hord.width_ne (i := grid.length - 2) (by omega) (by omega)
      rwa [hupper, ← abs_pos] at hne
    have hnoise : OnlyNoise d grid tolerance x ↔ p.fraction - 1 < tolerance := by
      rw [← mul_lt_mul_iff_left₀ hwidth, ← hdistance]
      exact ⟨fun hn => hn.back hbehind, fun hlt => ⟨fun hbefore =>
        absurd (hbehind.trans hbefore) hends.asymm, fun _ => hlt⟩⟩
    rw [hnoise]
    exact ⟨fun hin => by linarith, fun hlt => ⟨by linarith, by linarith⟩⟩
  · have hinside := h.inside hord hbetween
    have hnonneg := hinside.fraction
    have hle := hinside.le_one.1
    obtain ⟨hfirst, hlast⟩ := hord.not_beyond hbetween
    exact iff_of_true ⟨by linarith, by linarith⟩
      ⟨fun hbefore => absurd hbefore hfirst, fun hbehind => absurd hbehind hlast⟩

/-- The fraction of a clipped query is the clipped fraction. -/
theorem fractionAt_clip (hord : Ordered d grid) (hlen : 2 ≤ grid.length) (h : Holds d grid j x) :
    fractionAt grid j (clip d grid x) = Position.clip (fractionAt grid j x) := by
  have hclipped := (h.fits hord).clip hord hlen
  rw [Position.clipped_ofFraction] at hclipped
  exact (hclipped.fraction_eq hord).symm

/-- A tie-break that has been followed has been followed after clipping. -/
theorem Settled.clip (hord : Ordered d grid) (hlen : 2 ≤ grid.length) {t : TieBreak}
    (h : Settled t grid x p) : Settled t grid (clip d grid x) p.clipped := by
  refine ⟨h.fits.clip hord hlen, ?_⟩
  rcases beyond_cases d hlen x with ⟨hx, -⟩ | ⟨hx, -⟩ | ⟨hbetween, -⟩
  · obtain ⟨hidx, hneg⟩ := h.fits.fraction_neg hord hx
    rw [Position.clipped_of_neg h.fits.complement hneg]
    cases t with
    | keep => trivial
    | lower => exact fun h01 => absurd h01 zero_ne_one
    | upper => exact fun _ => hidx
  · obtain ⟨hidx, hone⟩ := h.fits.one_lt_fraction hord hx
    rw [Position.clipped_of_one_lt h.fits.complement hone]
    cases t with
    | keep => trivial
    | lower => exact fun _ => by rw [hidx, sub_add_cancel]
    | upper => exact fun h10 => absurd h10 one_ne_zero
  · rw [(h.fits.inside hord hbetween).clipped_eq]
    exact h.settles

/-- **A tie-break moves the clipped position as it moves the position.** -/
theorem Fits.move_clip (hord : Ordered d grid) (hlen : 2 ≤ grid.length) (t : TieBreak) {f : Int × K}
    (h : Fits grid x (Position.ofFraction f.1 f.2)) :
    Position.ofFraction (t.move grid.length (f.1, Position.clip f.2)).1
        (t.move grid.length (f.1, Position.clip f.2)).2 =
      (Position.ofFraction (t.move grid.length f).1 (t.move grid.length f).2).clipped := by
  have hclip := h.clip hord hlen
  rw [Position.clipped_ofFraction] at hclip
  by_cases ht : t = .keep
  · subst ht
    exact (Position.clipped_ofFraction ..).symm
  · exact (settled_move t hclip).unique hord ht ((settled_move t h).clip hord hlen)

end Grid

/-! ## All queries -/

namespace Locate

variable [IsStrictOrderedRing K] [FloorRing K] [Elementary K]
variable {d : Direction} {grid : List K} {i : Int} {new : List K} {found : List (Int × K)}

/-- **Clipped queries are found in the same brackets**, with clipped fractions. -/
theorem NearestPath.clip (hord : Grid.Ordered d grid) (hlen : 2 ≤ grid.length)
    (h : NearestPath d grid i new found) :
    NearestPath d grid i (new.map (Grid.clip d grid))
      (found.map fun f => (f.1, Position.clip f.2)) := by
  induction h with
  | done => exact .done _
  | @step i j x xs found nearest _ ih =>
    rw [List.map_cons, List.map_cons, ← Grid.fractionAt_clip hord hlen nearest.holds]
    exact .step ((Grid.nearest_clip_iff hord hlen).2 nearest) ih

omit [IsStrictOrderedRing K] [Elementary K] in
/-- **Where the scan starts from** makes no difference if it is estimated from the clipped queries. -/
theorem NearestPath.startFor_clip (hord : Grid.Ordered d grid) (hlen : 2 ≤ grid.length) {extpolfac : K}
    (h : NearestPath d grid (startFor grid extpolfac new) new found) :
    NearestPath d grid (startFor grid extpolfac (new.map (Grid.clip d grid))) new found := by
  cases new with
  | nil => exact h
  | cons x xs =>
    by_cases hx : Grid.clip d grid x = x
    · rw [List.map_cons, hx]
      exact h
    · cases h with
      | step nearest rest => exact .step (nearest.of_clip_ne hord hlen hx _) rest

end Locate

/-- A column of what was found, position by position. -/
theorem Column.ofFound_eq_ofPositions {α : Type} [Scalar α] (found : List (Int × α)) :
    ofFound found = ofPositions (found.map fun f => Position.ofFraction f.1 f.2) := by
  rw [← toList_ofFound, ofPositions_toList]

variable [IsStrictOrderedRing K] [FloorRing K] [Elementary K]
variable {d : Direction} {old new : List K} {extpolfac : K}

/-- **Clipped queries have clipped positions**, whatever the tie-break and the order of the queries. -/
theorem Backend.locate_clip (b : Backend) (hord : Grid.Ordered d old) (hlen : 2 ≤ old.length)
    (he : 0 ≤ extpolfac) {t : TieBreak} {c : Column K}
    (h : b.locate (NdArray.vector old) (NdArray.vector new) extpolfac (some t) = .ok c) :
    b.locate (NdArray.vector old) (NdArray.vector (new.map (Grid.clip d old))) extpolfac (some t) =
      .ok (Column.ofPositions (c.toList.map Position.clipped)) := by
  obtain ⟨hnew, -⟩ := b.fits_of_locate_eq_ok hord hlen he h
  have hclip : ∀ z ∈ new.map (Grid.clip d old), Grid.InEnvelope d old extpolfac z :=
    List.forall_mem_map.2 fun x _ => hord.inEnvelope hlen he (Grid.between_clip d hlen x)
  obtain ⟨found, hfound, hpath⟩ := b.exists_found hord hlen he t hnew
  obtain ⟨found', hfound', hpath'⟩ := b.exists_found hord hlen he t hclip
  rw [h, Except.ok.injEq] at hfound
  obtain rfl := hpath'.unique (hpath.startFor_clip hord hlen |>.clip hord hlen)
  rw [hfound', hfound, Column.toList_ofFound, Column.ofFound_eq_ofPositions]
  simp only [List.map_map]
  refine congrArg (Except.ok ∘ Column.ofPositions) (List.map_congr_left fun f hf => ?_)
  obtain ⟨i, hi⟩ := List.mem_iff_getElem?.1 hf
  obtain ⟨x, -, hfits⟩ := Choices.exists_getElem? (hpath.fits hord).flip hi
  exact hfits.move_clip hord hlen t

end Regrid
