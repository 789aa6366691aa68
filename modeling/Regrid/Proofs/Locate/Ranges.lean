import Regrid.Proofs.Kinds
import Regrid.Proofs.Locate.Fractional

/-!
# Grid points and ranges of positions

A position that is asked for its grid point or for its range answers by its index, and by whether
its fraction is nought, one or between them.  Both answers are about the number that index and fraction
make together.  The position is on the point that has this number, if it has one
(`Position.isAt_iff`), and its ranges are the number rounded down, and the one below the number rounded
up (`Position.range_upwards`, `Position.range_downwards`).  No range is asked for outside the unit
interval, and none is below the first point.

The number is that of the query, in whichever bracket it was found, so the answers are about the query
(`Grid.Fits.answers`): on which grid point it is, and which ranges of the grid are above it and below
it.  Two positions of one query give the same answers (`Grid.Fits.answers_eq`), and so do any two
locations in one grid (`Backend.locate_answers`).
-/
namespace Regrid

open Outcome

variable {K : Type} [Field K] [LinearOrder K] [IsStrictOrderedRing K] [FloorRing K] [Elementary K]

/-! ## By the number -/

namespace Position

variable {p : Position K} {i : Int}

omit [IsStrictOrderedRing K] [FloorRing K] [Elementary K] in
/-- On the first point of a bracket, on its second one, or on the way between them. -/
theorem fraction_cases (h : p.fraction ∈ Set.Icc 0 1) :
    p.fraction = 0 ∨ p.fraction = 1 ∨ p.fraction ∈ Set.Ioo 0 1 := by
  rcases h.1.eq_or_lt with h0 | hpos
  · exact .inl h0.symm
  · rcases h.2.eq_or_lt with h1 | hlt
    · exact .inr (.inl h1)
    · exact .inr (.inr ⟨hpos, hlt⟩)

omit [IsStrictOrderedRing K] in
theorem isAt_iff_fraction :
    p.isAt i = true ↔ (p.fraction = 0 ∧ p.idx = i) ∨ (p.fraction = 1 ∧ p.idx + 1 = i) := by
  simp [isAt]

omit [IsStrictOrderedRing K] in
theorem fractional_eq (p : Position K) : p.fractional = (p.idx : K) + p.fraction := by
  rw [fractional, Exact.ofInt_eq]

/-- Between two points the number is between their indices. -/
theorem fractional_mem (h : p.fraction ∈ Set.Ioo 0 1) :
    (p.idx : K) < p.fractional ∧ p.fractional < (p.idx + 1 : Int) := by
  rw [fractional_eq]
  push_cast
  exact ⟨lt_add_of_pos_right _ h.1, add_lt_add_right h.2 _⟩

/-- **A position is on the grid point that has its number**, unless it is outside its bracket. -/
theorem isAt_iff : p.isAt i = true ↔ p.fraction ∈ Set.Icc 0 1 ∧ p.fractional = i := by
  rw [isAt_iff_fraction]
  constructor
  · rintro (⟨hf, rfl⟩ | ⟨hf, rfl⟩)
    · rw [fractional_eq, hf]
      exact ⟨⟨le_rfl, zero_le_one⟩, add_zero _⟩
    · rw [fractional_eq, hf]
      exact ⟨⟨zero_le_one, le_rfl⟩, by push_cast; rfl⟩
  · rintro ⟨hunit, hnumber⟩
    rcases fraction_cases hunit with h0 | h1 | hbetween
    · rw [fractional_eq, h0, add_zero, Int.cast_inj] at hnumber
      exact .inl ⟨h0, hnumber⟩
    · rw [fractional_eq, h1] at hnumber
      exact .inr ⟨h1, by exact_mod_cast hnumber⟩
    · -- There is no integer between an index and the next one.
      have hnone := fractional_mem hbetween
      rw [hnumber, Int.cast_lt, Int.cast_lt] at hnone
      omega

omit [IsStrictOrderedRing K] in
/-- Outside its bracket a position has no range. -/
theorem range_of_notMem (h : p.fraction ∉ Set.Icc 0 1) (upwards : Bool) :
    p.range upwards = .error (.outOfRange (.notInUnit p.fraction)) := by
  rw [range, if_pos]
  simpa [Exact.zero_eq, Set.mem_Icc] using h

omit [IsStrictOrderedRing K] in
/-- On the way between two points the range is the one between them. -/
theorem range_of_between (h : p.fraction ∈ Set.Ioo 0 1) (upwards : Bool) :
    p.range upwards = .ok p.idx := by
  obtain ⟨hpos, hlt⟩ := h
  rw [range, if_neg, if_pos]
  · simpa [Exact.zero_eq] using ⟨hpos, hlt⟩
  · simpa [Exact.zero_eq] using ⟨hpos.le, hlt.le⟩

/-- On a grid point the range is the one above it or the one below it, if there is one. -/
theorem range_of_isAt (h : p.isAt i = true) (upwards : Bool) : p.range upwards =
    let lower := if upwards then i else i - 1
    if lower < 0 then .error (.outOfRange .belowFirst) else .ok lower := by
  have hunit := (isAt_iff.1 h).1
  rw [range, if_neg (by simpa [Exact.zero_eq, Set.mem_Icc] using hunit)]
  rcases isAt_iff_fraction.1 h with ⟨hf, rfl⟩ | ⟨hf, rfl⟩
  · simp [hf]
  · simp [hf]

/-- The range of a position by its number: the number rounded down, or one less than the number
rounded up. -/
theorem range_eq (h : p.fraction ∈ Set.Icc 0 1) (hidx : 0 ≤ p.idx) (upwards : Bool) :
    p.range upwards =
      let lower := if upwards then ⌊p.fractional⌋ else ⌈p.fractional⌉ - 1
      if lower < 0 then .error (.outOfRange .belowFirst) else .ok lower := by
  have hpoint : ∀ i : Int, p.isAt i = true → ⌊p.fractional⌋ = i ∧ ⌈p.fractional⌉ = i := by
    intro i hi
    rw [(isAt_iff.1 hi).2]
    exact ⟨Int.floor_intCast i, Int.ceil_intCast i⟩
  rcases fraction_cases h with h0 | h1 | hbetween
  · have hat := isAt_iff_fraction.2 (.inl ⟨h0, rfl⟩)
    rw [range_of_isAt hat, (hpoint _ hat).1, (hpoint _ hat).2]
  · have hat := isAt_iff_fraction.2 (.inr ⟨h1, rfl⟩)
    rw [range_of_isAt hat, (hpoint _ hat).1, (hpoint _ hat).2]
  · obtain ⟨hlow, hhigh⟩ := fractional_mem hbetween
    have hfloor : ⌊p.fractional⌋ = p.idx := by
      refine Int.floor_eq_iff.2 ⟨hlow.le, ?_⟩
      exact_mod_cast hhigh
    have hceil : ⌈p.fractional⌉ = p.idx + 1 := by
      refine Int.ceil_eq_iff.2 ⟨?_, hhigh.le⟩
      push_cast
      rwa [add_sub_cancel_right]
    rw [range_of_between hbetween, hfloor, hceil, add_sub_cancel_right, ite_self]
    exact (if_neg (not_lt.2 hidx)).symm

end Position

/-! ## By the query -/

namespace Grid

variable {d : Direction} {grid : List K} {x : K} {p q : Position K}

/-- **What a position answers about its query** `x`: on which grid point it is, and the ranges of the
grid above it and below it. -/
structure Answers (grid : List K) (x : K) (p : Position K) : Prop where
  isAt_iff : ∀ i : Int, p.isAt i = true ↔ 0 ≤ i ∧ grid[i.toNat]? = some x
  outside : ¬ Between grid x → ∀ upwards, Refused .outOfRange (p.range upwards)
  above : Between grid x → p.range true = .ok ⌊p.fractional⌋
  below : Between grid x → grid[0]? ≠ some x → p.range false = .ok (⌈p.fractional⌉ - 1)
  belowFirst : grid[0]? = some x → Refused .outOfRange (p.range false)

omit [Field K] [IsStrictOrderedRing K] [FloorRing K] [Elementary K] in
/-- A grid point is inside the grid. -/
theorem between_of_getElem? {k : Nat} (h : grid[k]? = some x) : Between grid x :=
  have hmem := List.mem_of_getElem? h
  ⟨⟨x, hmem, le_rfl⟩, x, hmem, le_rfl⟩

namespace Fits

omit [FloorRing K] [Elementary K] in
/-- A position is inside its bracket exactly if its query is inside the grid. -/
theorem fraction_mem_iff (hord : Ordered d grid) (h : Fits grid x p) :
    p.fraction ∈ Set.Icc 0 1 ↔ Between grid x := by
  constructor
  · rintro ⟨hnonneg, hle⟩
    have h0 := h.nonneg
    have hlast := h.last
    have hlower : point grid p.idx ∈ grid := point_mem h0 (by omega)
    have hupper : point grid (p.idx + 1) ∈ grid := point_mem (by omega) (by omega)
    have hfront := mt (h.before_lower_iff hord).1 (not_lt.2 hnonneg)
    have hback := mt (h.upper_before_iff hord).1 (not_lt.2 hle)
    cases d with
    | ascending => exact ⟨⟨_, hlower, not_lt.1 hfront⟩, _, hupper, not_lt.1 hback⟩
    | descending => exact ⟨⟨_, hupper, not_lt.1 hback⟩, _, hlower, not_lt.1 hfront⟩
  · intro hx
    have hinside := h.inside hord hx
    exact ⟨hinside.fraction, hinside.le_one.1⟩

/-- The number of a grid point is its index. -/
theorem fractional_eq_natCast_iff_getElem? (hord : Ordered d grid) (h : Fits grid x p) {k : Nat}
    (hk : k < grid.length) : p.fractional = k ↔ grid[k]? = some x := by
  rw [h.fractional_eq_natCast_iff hord hk, getElem?_eq_point hk, Option.some.injEq, eq_comm]

/-- **A position is on the grid point that is its query**, and on no other. -/
theorem isAt_iff (hord : Ordered d grid) (h : Fits grid x p) {i : Int} :
    p.isAt i = true ↔ 0 ≤ i ∧ grid[i.toNat]? = some x := by
  have h0 := h.nonneg
  have hlast := h.last
  constructor
  · intro hat
    have hi := Position.isAt_iff_fraction.1 hat
    obtain ⟨k, rfl⟩ := Int.eq_ofNat_of_zero_le (show 0 ≤ i by omega)
    refine ⟨Int.natCast_nonneg k, (h.fractional_eq_natCast_iff_getElem? hord (by omega)).1 ?_⟩
    exact_mod_cast (Position.isAt_iff.1 hat).2
  · rintro ⟨hi, hget⟩
    obtain ⟨k, rfl⟩ := Int.eq_ofNat_of_zero_le hi
    have hk : k < grid.length := (List.getElem?_eq_some_iff.1 hget).1
    refine Position.isAt_iff.2 ⟨(h.fraction_mem_iff hord).2 (between_of_getElem? hget), ?_⟩
    exact_mod_cast (h.fractional_eq_natCast_iff_getElem? hord hk).2 hget

/-- **The answers of a position** are about its query. -/
theorem answers (hord : Ordered d grid) (h : Fits grid x p) : Answers grid x p := by
  have h0 := h.nonneg
  have hlast := h.last
  have hfirst : p.fractional = 0 ↔ grid[0]? = some x := by
    rw [← Nat.cast_zero, h.fractional_eq_natCast_iff_getElem? hord (by omega)]
  have hinside : Between grid x → p.fraction ∈ Set.Icc 0 1 ∧ 0 ≤ p.fractional := by
    intro hx
    have hmem := (h.fraction_mem_iff hord).2 hx
    refine ⟨hmem, ?_⟩
    rw [Position.fractional_eq]
    exact add_nonneg (Int.cast_nonneg h0) hmem.1
  constructor
  · intro i
    exact h.isAt_iff hord
  · intro hx upwards
    exact ⟨_, Position.range_of_notMem (mt (h.fraction_mem_iff hord).1 hx) upwards, rfl⟩
  · intro hx
    obtain ⟨hmem, hnonneg⟩ := hinside hx
    rw [Position.range_eq hmem h0]
    exact if_neg (not_lt.2 (Int.floor_nonneg.2 hnonneg))
  · intro hx hne
    obtain ⟨hmem, hnonneg⟩ := hinside hx
    have hceil : 0 < ⌈p.fractional⌉ :=
      Int.ceil_pos.2 (lt_of_le_of_ne hnonneg fun hzero => hne (hfirst.1 hzero.symm))
    have hlower : ¬ ⌈p.fractional⌉ - 1 < 0 := by omega
    rw [Position.range_eq hmem h0]
    exact if_neg hlower
  · intro hx
    obtain ⟨hmem, -⟩ := hinside (between_of_getElem? hx)
    have hlower : ⌈p.fractional⌉ - 1 < 0 := by
      rw [hfirst.2 hx, Int.ceil_zero]
      exact neg_one_lt_zero
    rw [Position.range_eq hmem h0]
    exact ⟨_, if_pos hlower, rfl⟩

/-- **The answers do not depend on the bracket** that a query was found in. -/
theorem answers_eq (hord : Ordered d grid) (hp : Fits grid x p) (hq : Fits grid x q) :
    (∀ i, p.isAt i = q.isAt i) ∧ ∀ upwards, p.range upwards = q.range upwards := by
  have hnumber : p.fractional = q.fractional := hp.fractional_eq hord hq
  have hunit : p.fraction ∈ Set.Icc 0 1 ↔ q.fraction ∈ Set.Icc 0 1 :=
    (hp.fraction_mem_iff hord).trans (hq.fraction_mem_iff hord).symm
  constructor
  · intro i
    rw [Bool.eq_iff_iff, Position.isAt_iff, Position.isAt_iff, hunit, hnumber]
  · intro upwards
    by_cases hmem : p.fraction ∈ Set.Icc 0 1
    · rw [Position.range_eq hmem hp.nonneg, Position.range_eq (hunit.1 hmem) hq.nonneg, hnumber]
    · -- Outside the grid there is no other bracket.
      have hsame : p = q := by
        rcases hp.eq_or_tie hord hq with hsame | ⟨-, h1, -⟩ | ⟨-, -, h0⟩
        · exact hsame
        · rw [h1] at hmem
          exact absurd ⟨zero_le_one, le_rfl⟩ hmem
        · rw [h0] at hmem
          exact absurd ⟨le_rfl, zero_le_one⟩ hmem
      rw [hsame]

end Fits
end Grid

/-! ## Located queries -/

namespace Backend

variable {d : Direction} {old : List K}

omit [IsStrictOrderedRing K] in
/-- Nothing is located with a factor below nought. -/
theorem extpolfac_nonneg (b : Backend) {extpolfac : K} {t : TieBreak} {new : List K} {c : Column K}
    (h : b.locate (NdArray.vector old) (NdArray.vector new) extpolfac (some t) = .ok c) :
    0 ≤ extpolfac := by
  rw [locate_eq] at h
  obtain ⟨task, hprepare, -⟩ := bind_eq_ok_iff.1 h
  unfold Locate.prepare at hprepare
  obtain ⟨hguard, -⟩ := guard_eq_ok_iff.1 hprepare
  simpa using hguard

/-- **Questions about located queries are answered by the grid.**  In an ordered grid of two points or
more, whatever the backend, the tie-break, the factor and the queries before: a position is on the grid
point that is its query; a query outside the grid has no range; the range above one inside is the
number of its position rounded down, and the range below one less than the number rounded up, but there
is none below the first point.  So no two positions of a query answer differently. -/
theorem locate_answers (hord : Grid.Ordered d old) (hlen : 2 ≤ old.length) :
    (∀ (b : Backend) (extpolfac : K) (t : TieBreak) (new : List K) (c : Column K),
      b.locate (NdArray.vector old) (NdArray.vector new) extpolfac (some t) = .ok c →
        List.Forall₂ (Grid.Answers old) new c.toList) ∧
    ∀ (b b' : Backend) (extpolfac extpolfac' : K) (t t' : TieBreak) (new new' : List K)
      (c c' : Column K),
      b.locate (NdArray.vector old) (NdArray.vector new) extpolfac (some t) = .ok c →
      b'.locate (NdArray.vector old) (NdArray.vector new') extpolfac' (some t') = .ok c' →
      ∀ (i j : Nat) (x : K) (p q : Position K), new[i]? = some x → new'[j]? = some x →
        c.toList[i]? = some p → c'.toList[j]? = some q →
          (∀ k, p.isAt k = q.isAt k) ∧ ∀ upwards, p.range upwards = q.range upwards := by
  have hfits : ∀ (b : Backend) (extpolfac : K) (t : TieBreak) (new : List K) (c : Column K),
      b.locate (NdArray.vector old) (NdArray.vector new) extpolfac (some t) = .ok c →
        List.Forall₂ (Grid.Fits old) new c.toList := fun b _ _ _ _ h =>
    (b.fits_of_locate_eq_ok hord hlen (b.extpolfac_nonneg h) h).2
  have hfit : ∀ {new : List K} {c : Column K}, List.Forall₂ (Grid.Fits old) new c.toList →
      ∀ {i : Nat} {x : K} {p : Position K}, new[i]? = some x → c.toList[i]? = some p →
        Grid.Fits old x p := by
    intro new c hall i x p hx hp
    obtain ⟨p', hp', hxp⟩ := Choices.exists_getElem? hall hx
    obtain rfl : p' = p := Option.some.inj (hp'.symm.trans hp)
    exact hxp
  constructor
  · intro b extpolfac t new c hc
    exact (hfits b extpolfac t new c hc).imp fun x p => Grid.Fits.answers hord
  · intro b b' extpolfac extpolfac' t t' new new' c c' hc hc' i j x p q hx hx' hp hq
    exact (hfit (hfits _ _ _ _ _ hc) hx hp).answers_eq hord (hfit (hfits _ _ _ _ _ hc') hx' hq)

/-- A descending grid, with queries on both ends, on an inner point, between two points and outside. -/
theorem locate_answers_descending :
    let old : List ℚ := [3, 1, 0, -2]
    let new : List ℚ := [1, -2, 3, 1 / 2, 4]
    Grid.Ordered .descending old ∧ 2 ≤ old.length ∧
      ∃ c, fused.locate (NdArray.vector old) (NdArray.vector new) (1 / 2) (some .lower) = .ok c ∧
        List.Forall₂ (Grid.Answers old) new c.toList := by
  intro old new
  have hord : Grid.Ordered .descending old := by decide +kernel
  have hlen : 2 ≤ old.length := by decide
  have hin : ∀ x ∈ new, Grid.InEnvelope .descending old (1 / 2) x := by decide +kernel
  obtain ⟨c, hc, -⟩ :=
    fused.exists_locate_eq_ok hord hlen (show (0 : ℚ) ≤ 1 / 2 by decide +kernel) .lower hin
  exact ⟨hord, hlen, c, hc, (locate_answers hord hlen).1 fused _ _ _ c hc⟩

end Backend
end Regrid
