import Regrid.Proofs.Columns
import Regrid.Proofs.Locate.Located

/-!
# Mirrored grids

A grid that is read from its other end follows the opposite direction.  Its brackets are
those of the grid with their ends exchanged, and so are the positions in them: the position
of a query, mirrored, fits the query in the mirrored grid (`Fits.mirrored`).  First and last
limit are exchanged, and with them the direction, so the envelope is the same
(`limits_reverse`).

A location in the mirrored grid need not be the mirrored location, since a query on an inner
grid point has two positions in either grid.  That is the only exception
(`Fits.mirrored_or_tie`), and even there the two positions, each taken as one number, are
opposite to each other (`Fits.mirrors`).  Noise is removed from both of them or from neither,
and this remains so (`Fits.deviates_eq`, `Fits.mirrors_clipped`).
-/
namespace Regrid

/-- The other direction. -/
def Direction.opposite : Direction → Direction
  | ascending => descending
  | descending => ascending

theorem Direction.opposite_before {K : Type} [LinearOrder K] (d : Direction) (x y : K) :
    d.opposite.Before x y ↔ d.Before y x := by
  cases d <;> exact Iff.rfl

variable {K : Type} [Field K]

/-! ## Positions -/

namespace Position

/-- **The position seen from the other end** of a grid of `n` points. -/
def mirrored (n : Nat) (p : Position K) : Position K := ⟨n - 2 - p.idx, p.complement, p.fraction⟩

omit [Field K] in
theorem mirrored_mirrored (n : Nat) (p : Position K) : (p.mirrored n).mirrored n = p := by
  rw [mirrored, mirrored, sub_sub_cancel]

/-- From the other end the interpolation is the same, between what belongs to the points
there. -/
theorem lerp_mirrored (n : Nat) (p : Position K) (f : Int → K) :
    (p.mirrored n).lerp f = p.lerp fun i => f (n - 1 - i) := by
  have hlower : (n : Int) - 2 - p.idx + 1 = n - 1 - p.idx := by ring
  have hupper : (n : Int) - 1 - (p.idx + 1) = n - 2 - p.idx := by ring
  rw [lerp, lerp, mirrored, hlower, hupper, add_comm]

/-- On one of the two points of its bracket. -/
def OnPoint (p : Position K) : Prop :=
  p.fraction = 0 ∧ p.complement = 1 ∨ p.fraction = 1 ∧ p.complement = 0

end Position

/-! ## Points and limits -/

namespace Grid

variable {d : Direction} {grid : List K} {x : K} {p q : Position K}

theorem point_reverse {i : Int} (h0 : 0 ≤ i) (hi : i < grid.length) :
    point grid.reverse i = point grid (grid.length - 1 - i) := by
  rw [point, point, List.getD_eq_getElem _ _ (by rw [List.length_reverse]; omega),
    List.getD_eq_getElem _ _ (by omega), List.getElem_reverse]
  congr 1
  omega

/-- The two points of a bracket change places. -/
theorem point_reverse_lower {i : Int} (h0 : 0 ≤ i) (hi : i + 2 ≤ grid.length) :
    point grid.reverse (grid.length - 2 - i) = point grid (i + 1) := by
  rw [point_reverse (by omega) (by omega)]
  congr 1
  ring

theorem point_reverse_upper {i : Int} (h0 : 0 ≤ i) (hi : i + 2 ≤ grid.length) :
    point grid.reverse (grid.length - 2 - i + 1) = point grid i := by
  rw [point_reverse (by omega) (by omega)]
  congr 1
  ring

theorem firstLimit_reverse (hlen : 2 ≤ grid.length) (extpolfac : K) :
    firstLimit grid.reverse extpolfac = lastLimit grid extpolfac := by
  have hsecond : (grid.length : Int) - 1 - 1 = grid.length - 2 := by ring
  rw [firstLimit, lastLimit, point_reverse le_rfl (by omega), point_reverse (by omega) (by omega),
    sub_zero, hsecond]
  ring

theorem lastLimit_reverse (hlen : 2 ≤ grid.length) (extpolfac : K) :
    lastLimit grid.reverse extpolfac = firstLimit grid extpolfac := by
  rw [← firstLimit_reverse (by rwa [List.length_reverse]), List.reverse_reverse]

variable [LinearOrder K]

omit [Field K] in
theorem Ordered.reverse (h : Ordered d grid) : Ordered d.opposite grid.reverse := by
  rw [Ordered, List.pairwise_reverse]
  exact h.imp fun hxy => (d.opposite_before _ _).2 hxy

/-- **The envelope of a mirrored grid** is that of the grid. -/
theorem limits_reverse [FloorRing K] [Elementary K] (h : Ordered d grid) (hlen : 2 ≤ grid.length)
    (extpolfac : K) : limits grid.reverse extpolfac = limits grid extpolfac := by
  rw [limits_of_ordered h.reverse (by rwa [List.length_reverse]), limits_of_ordered h hlen,
    firstLimit_reverse hlen, lastLimit_reverse hlen]
  cases d <;> rfl

/-! ## Positions that fit -/

/-- **A position that fits, mirrored**, fits in the mirrored grid. -/
theorem Fits.mirrored [IsStrictOrderedRing K] (h : Fits grid x p) :
    Fits grid.reverse x (p.mirrored grid.length) := by
  have hnonneg := h.nonneg
  have hlast := h.last
  have hcomplement := h.complement
  refine ⟨?_, ?_, ?_, ?_, ?_, ?_⟩
  · show 0 ≤ (grid.length : Int) - 2 - p.idx
    omega
  · show (grid.length : Int) - 2 - p.idx + 2 ≤ grid.reverse.length
    rw [List.length_reverse]
    omega
  · show p.fraction = 1 - p.complement
    rw [hcomplement, sub_sub_cancel]
  · show point grid.reverse (grid.length - 2 - p.idx) + p.complement *
      (point grid.reverse (grid.length - 2 - p.idx + 1) -
        point grid.reverse (grid.length - 2 - p.idx)) = x
    rw [point_reverse_lower hnonneg hlast, point_reverse_upper hnonneg hlast, hcomplement,
      ← h.reproduces]
    ring
  · show (grid.length : Int) - 2 - p.idx = 0 ∨ 0 ≤ p.complement
    rcases h.back with hend | hle
    · exact .inl (by omega)
    · exact .inr (by rw [hcomplement]; exact sub_nonneg.2 hle)
  · show (grid.length : Int) - 2 - p.idx + 2 = grid.reverse.length ∨ p.complement ≤ 1
    rcases h.front with h0 | hnonneg
    · exact .inl (by rw [List.length_reverse]; omega)
    · exact .inr (by rw [hcomplement]; exact sub_le_self 1 hnonneg)

/-- On a point of a grid that is neither its first nor its last. -/
def Inner (grid : List K) (x : K) : Prop := ∃ j, 0 < j ∧ j + 1 < grid.length ∧ grid[j]? = some x

theorem Fits.inner (h : Fits grid x p) (hpos : 0 < p.idx) (h0 : p.fraction = 0) :
    Inner grid x := by
  have hlast := h.last
  have hx := h.reproduces
  rw [h0, zero_mul, add_zero] at hx
  refine ⟨p.idx.toNat, by omega, by omega, ?_⟩
  rw [getElem?_eq_point (by omega), Int.toNat_of_nonneg h.nonneg, hx]

variable [IsStrictOrderedRing K]

/-- **A location in a mirrored grid** is the mirrored location, unless the query is on an inner
grid point. -/
theorem Fits.mirrored_or_tie (hord : Ordered d grid) (hp : Fits grid x p)
    (hq : Fits grid.reverse x q) :
    q = p.mirrored grid.length ∨ Inner grid x ∧ p.OnPoint ∧ q.OnPoint := by
  have hback : Fits grid x (q.mirrored grid.length) := by
    have := hq.mirrored
    rwa [List.reverse_reverse, List.length_reverse] at this
  have hc := hp.complement
  have hc' : q.fraction = 1 - q.complement := hback.complement
  rcases Fits.eq_or_tie hord hp hback with heq | ⟨hidx, hp1, hq0⟩ | ⟨hidx, hq1, hp0⟩
  · left
    rw [heq, Position.mirrored_mirrored]
  · right
    have hnonneg := hp.nonneg
    have hq0 : q.complement = 0 := hq0
    refine ⟨hback.inner (by omega) hq0, .inr ⟨hp1, ?_⟩, .inr ⟨?_, hq0⟩⟩
    · rw [hc, hp1, sub_self]
    · rw [hc', hq0, sub_zero]
  · right
    have hnonneg := hback.nonneg
    have hq1 : q.complement = 1 := hq1
    refine ⟨hp.inner (by omega) hp0, .inl ⟨hp0, ?_⟩, .inl ⟨?_, hq1⟩⟩
    · rw [hc, hp0, sub_zero]
    · rw [hc', hq1, sub_self]

variable [FloorRing K] [Elementary K]

/-! ## Positions as numbers -/

omit [IsStrictOrderedRing K] in
/-- A position as a number is the interpolation between the indices of its bracket. -/
theorem Fits.fractional_eq_lerp (h : Fits grid x p) : p.fractional = p.lerp fun i => (i : K) := by
  rw [Position.fractional, Position.lerp, h.complement, Exact.ofInt_eq]
  push_cast
  ring

/-- **What holds of two positions of a query**, in a grid and in the mirrored grid. -/
structure Mirrors (grid : List K) (x : K) (p q : Position K) : Prop where
  /-- As numbers they are opposite to each other. -/
  fractional : q.fractional = (grid.length - 1 : K) - p.fractional
  /-- Off the inner grid points the brackets are opposite to each other, and the distances are
  exchanged. -/
  exchanged : ¬ Inner grid x → q = p.mirrored grid.length

theorem Fits.mirrors (hord : Ordered d grid) (hp : Fits grid x p) (hq : Fits grid.reverse x q) :
    Mirrors grid x p q where
  fractional := by
    have hnumber : (fun i : Int => (((grid.length : Int) - 1 - i : Int) : K)) =
        fun i : Int => (grid.length - 1 : K) - i := by
      funext i
      push_cast
      ring
    rw [hq.fractional_eq_lerp, hq.lerp_eq hord.reverse hp.mirrored, Position.lerp_mirrored, hnumber,
      hp.fractional_eq_lerp, Position.lerp, Position.lerp, hp.complement]
    ring
  exchanged hx := by
    rcases hp.mirrored_or_tie hord hq with heq | ⟨hinner, -⟩
    · exact heq
    · exact absurd hinner hx

end Grid

/-! ## Noise -/

variable [LinearOrder K] [IsStrictOrderedRing K] [FloorRing K] [Elementary K]

namespace Position

theorem clip_one_sub (x : K) : clip (1 - x) = 1 - clip x := by
  simp only [clip, Exact.lt_eq, Exact.ofInt_eq, Int.cast_zero, Int.cast_one, decide_eq_true_eq]
  rcases lt_trichotomy x 0 with hneg | rfl | hpos
  · rw [if_neg (by linarith), if_pos (by linarith), if_pos hneg]
    ring
  · norm_num
  · rw [if_neg (not_lt.2 hpos.le)]
    by_cases h1 : 1 < x
    · rw [if_pos (by linarith), if_pos h1]
      ring
    · rw [if_neg (by linarith), if_neg (by linarith), if_neg h1]

omit [IsStrictOrderedRing K] in
theorem clip_of_mem {x : K} (h0 : 0 ≤ x) (h1 : x ≤ 1) : clip x = x := by
  simp only [clip, Exact.lt_eq, Exact.ofInt_eq, Int.cast_zero, Int.cast_one, decide_eq_true_eq]
  rw [if_neg (not_lt.2 h0), if_neg (not_lt.2 h1)]

/-- A position inside its bracket is free of noise. -/
theorem Inside.clipped_eq {p : Position K} (h : p.Inside) : p.clipped = p := by
  obtain ⟨hfraction, hcomplement⟩ := h.le_one
  rw [clipped, clip_of_mem h.fraction hfraction, clip_of_mem h.complement hcomplement]

theorem Inside.not_deviates {p : Position K} (h : p.Inside) {tolerance : K}
    (htolerance : 0 < tolerance) : p.deviates tolerance = false := by
  have hgood : ∀ x : K, 0 ≤ x → x ≤ 1 → isBad tolerance x = false := by
    intro x h0 h1
    simp only [isBad, Exact.le_eq, Exact.ofInt_eq, Int.cast_zero, Int.cast_one, Bool.or_eq_false_iff,
      decide_eq_false_iff_not]
    constructor <;> linarith
  obtain ⟨hfraction, hcomplement⟩ := h.le_one
  rw [deviates, hgood _ h.fraction hfraction, hgood _ h.complement hcomplement, Bool.or_false]

omit [FloorRing K] [Elementary K] in
/-- A position on a point is inside its bracket. -/
theorem OnPoint.inside {p : Position K} (h : p.OnPoint) : p.Inside := by
  rcases h with ⟨hf, hc⟩ | ⟨hf, hc⟩
  · refine ⟨hf.ge, by rw [hc]; exact zero_le_one, by rw [hf, hc, add_zero]⟩
  · refine ⟨by rw [hf]; exact zero_le_one, hc.ge, by rw [hf, hc, zero_add]⟩

omit [IsStrictOrderedRing K] in
theorem deviates_mirrored (n : Nat) (tolerance : K) (p : Position K) :
    (p.mirrored n).deviates tolerance = p.deviates tolerance := Bool.or_comm ..

end Position

namespace Grid

variable {d : Direction} {grid : List K} {x : K} {p q : Position K}

/-- **Noise is removed from both positions** or from neither. -/
theorem Fits.deviates_eq (hord : Ordered d grid) (hp : Fits grid x p) (hq : Fits grid.reverse x q)
    {tolerance : K} (htolerance : 0 < tolerance) :
    q.deviates tolerance = p.deviates tolerance := by
  rcases hp.mirrored_or_tie hord hq with rfl | ⟨-, honp, honq⟩
  · exact Position.deviates_mirrored ..
  · rw [honp.inside.not_deviates htolerance, honq.inside.not_deviates htolerance]

/-- **Without noise** the positions are as they were to each other. -/
theorem Fits.mirrors_clipped (hord : Ordered d grid) (hp : Fits grid x p)
    (hq : Fits grid.reverse x q) : Mirrors grid x p.clipped q.clipped := by
  rcases hp.mirrored_or_tie hord hq with rfl | ⟨-, honp, honq⟩
  · refine ⟨?_, fun _ => rfl⟩
    rw [Position.fractional, Position.fractional, Position.clipped, Position.clipped,
      Position.mirrored, hp.complement, Position.clip_one_sub, Exact.ofInt_eq, Exact.ofInt_eq]
    push_cast
    ring
  · rw [honp.inside.clipped_eq, honq.inside.clipped_eq]
    exact hp.mirrors hord hq

end Grid

namespace Column

omit [IsStrictOrderedRing K] in
theorem fractional_eq_map (c : Column K) : c.fractional = c.toList.map Position.fractional := by
  rw [fractional, toList, List.map_zipWith]
  rfl

omit [IsStrictOrderedRing K] in
/-- Noise is removed from all positions, if none of them is beyond repair. -/
theorem clamp_eq_ok_iff {tolerance : K} (htolerance : 0 < tolerance) {c e : Column K} :
    c.clamp tolerance = .ok e ↔
      (∀ p ∈ c.toList, p.deviates tolerance = false) ∧
        e = ofPositions (c.toList.map Position.clipped) := by
  have hcheck : Position.checkTolerance tolerance = .ok () := by
    rw [Position.checkTolerance, if_neg]
    simpa using htolerance
  rcases c.clamp_cases hcheck with ⟨p, hp, hbad, hclamp⟩ | ⟨hgood, hclamp⟩
  · refine iff_of_false (fun h => ?_) fun h => ?_
    · cases hclamp.symm.trans h
    · exact Bool.false_ne_true ((h.1 p hp).symm.trans hbad)
  · rw [hclamp, Except.ok.injEq, eq_comm]
    exact (and_iff_right hgood).symm

end Column
end Regrid
