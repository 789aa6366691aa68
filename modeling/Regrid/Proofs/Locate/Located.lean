import Regrid.Backend
import Regrid.Proofs.Grid.Acceptance
import Regrid.Proofs.Locate.Nearest

/-!
# Located queries

For an ordered grid of two points or more and a factor of nought or more, the queries
are located exactly when all of them are within the envelope
(`Backend.exists_locate_eq_ok`); each of them gets a position of its own, in their order,
that fits it (`Backend.fits_of_locate_eq_ok`).  They are found along the nearest brackets, from
the one that the first of them is estimated to be in (`Backend.exists_found`).  The backends do
not differ in this.

A query inside the grid is inside the bracket of its position (`Fits.inside`).  What a position
that fits says of such a query and of one beyond an end is told apart in `Grid.Located`
(`Fits.located`), and a location promises this of each of its positions.
-/
namespace Regrid

/-! ## The parts of a location -/

namespace Column

variable {α : Type} [Scalar α]

theorem toList_ofFound (found : List (Int × α)) :
    (ofFound found).toList = found.map fun f => Position.ofFraction f.1 f.2 := by
  simp only [toList, ofFound, List.zipWith_map, List.zipWith_self]
  rfl

end Column

namespace Locate

variable {K : Type} [Field K] [LinearOrder K] [IsStrictOrderedRing K] [FloorRing K] [Elementary K]
variable {d : Direction} {old : List K}

/-! ### The bracket to start from -/

/-- The bracket to start from.  Without a query it is bracket nought.  Else it is the part of the
way from the first limit to the last one that the first query has gone, as a part of the number of
brackets, rounded and kept among them. -/
def startFor (old : List K) (extpolfac : K) : List K → Int
  | [] => 0
  | x :: _ =>
    let along := (x - Grid.firstLimit old extpolfac) /
      (Grid.lastLimit old extpolfac - Grid.firstLimit old extpolfac)
    min (max (Exact.nearest (along * ((old.length - 2 : Int) : K))) 0) (old.length - 2)

omit [IsStrictOrderedRing K] [Elementary K] in
/-- It is a bracket of the grid. -/
theorem startFor_bounds (hlen : 2 ≤ old.length) (extpolfac : K) (new : List K) :
    0 ≤ startFor old extpolfac new ∧ startFor old extpolfac new + 2 ≤ old.length := by
  cases new with
  | nil =>
    rw [startFor]
    omega
  | cons x rest =>
    rw [startFor]
    omega

/-- In either direction the estimate is the same part of the way, from the first limit on. -/
theorem startBracket_eq_ok (hord : Grid.Ordered d old) (hlen : 2 ≤ old.length) {extpolfac : K}
    (he : 0 ≤ extpolfac) {low high : K} (hlimits : Grid.limits old extpolfac = .ok (low, high))
    (x : K) (rest : List K) :
    startBracket x low high old.length d = .ok (startFor old extpolfac (x :: rest)) := by
  have hspan := (Grid.firstLimit_before_lastLimit hord hlen he).ne
  rw [Grid.limits_of_ordered hord hlen] at hlimits
  cases d with
  | ascending =>
    cases hlimits
    rw [startBracket, Exact.divide_of_ne (sub_ne_zero.2 hspan.symm)]
    rfl
  | descending =>
    cases hlimits
    have hback : (1 : K) - (x - Grid.lastLimit old extpolfac) /
        (Grid.firstLimit old extpolfac - Grid.lastLimit old extpolfac) =
        (x - Grid.firstLimit old extpolfac) /
          (Grid.lastLimit old extpolfac - Grid.firstLimit old extpolfac) := by
      have hwidth := sub_ne_zero.2 hspan
      rw [one_sub_div hwidth, div_eq_div_iff hwidth (sub_ne_zero.2 hspan.symm)]
      ring
    rw [startBracket, Exact.divide_of_ne (sub_ne_zero.2 hspan), startFor, ← hback]
    simp

/-- Queries within the envelope pass the checks. -/
theorem prepare_eq_ok (hord : Grid.Ordered d old) (hlen : 2 ≤ old.length) {extpolfac : K}
    (he : 0 ≤ extpolfac) {new : List K} (hnew : ∀ x ∈ new, Grid.InEnvelope d old extpolfac x) :
    prepare (NdArray.vector old) (NdArray.vector new) extpolfac =
      .ok ⟨old, new, d, startFor old extpolfac new⟩ := by
  obtain ⟨low, high, hlimits, -, hwithin⟩ := Grid.exists_limits hord hlen extpolfac
  have hreference : Grid.checkReference Grid.linearPoints "" old = .ok d :=
    Grid.checkReference_linear_iff.2 ⟨hlen, hord⟩
  unfold prepare
  rw [if_neg (by simpa using he)]
  simp only [Grid.ofArray_vector, Outcome.ok_bind, hreference, hlimits, (hwithin new).2 hnew,
    Outcome.pure_eq_ok]
  cases new with
  | nil => rfl
  | cons x rest => simp only [startBracket_eq_ok hord hlen he hlimits x rest, Outcome.ok_bind]

/-- Queries that pass are within the envelope. -/
theorem inEnvelope_of_prepare_eq_ok (hord : Grid.Ordered d old) (hlen : 2 ≤ old.length)
    {extpolfac : K} {new : List K} {task : Task K}
    (h : prepare (NdArray.vector old) (NdArray.vector new) extpolfac = .ok task) :
    ∀ x ∈ new, Grid.InEnvelope d old extpolfac x := by
  obtain ⟨low, high, hlimits, -, hwithin⟩ := Grid.exists_limits hord hlen extpolfac
  unfold prepare at h
  obtain ⟨-, h⟩ := Outcome.guard_eq_ok_iff.1 h
  simp only [Grid.ofArray_vector, Outcome.ok_bind] at h
  obtain ⟨direction, -, h⟩ := Outcome.bind_eq_ok_iff.1 h
  rw [hlimits, Outcome.ok_bind] at h
  obtain ⟨u, hcheck, -⟩ := Outcome.bind_eq_ok_iff.1 h
  exact (hwithin new).1 hcheck

/-- Queries are refused as the envelope refuses them. -/
theorem prepare_eq_error (hord : Grid.Ordered d old) (hlen : 2 ≤ old.length) {extpolfac : K}
    (he : 0 ≤ extpolfac) {low high : K} (hlimits : Grid.limits old extpolfac = .ok (low, high))
    {new : List K} {f : Fault K} (h : Grid.checkWithin new low high extpolfac = .error f) :
    prepare (NdArray.vector old) (NdArray.vector new) extpolfac = .error f := by
  have hreference : Grid.checkReference Grid.linearPoints "" old = .ok d :=
    Grid.checkReference_linear_iff.2 ⟨hlen, hord⟩
  unfold prepare
  rw [if_neg (by simpa using he)]
  simp only [Grid.ofArray_vector, Outcome.ok_bind, hreference, hlimits, h, Outcome.error_bind]

/-! ### Scan and ties -/

/-- A task with a bracket of the grid is carried out, along the nearest brackets. -/
theorem exists_run (hord : Grid.Ordered d old) {start : Int} (h0 : 0 ≤ start)
    (hlast : start + 2 ≤ old.length) (new : List K) (t : TieBreak) :
    ∃ found, run Walk.stepping (some t) ⟨old, new, d, start⟩ =
        .ok (Column.ofFound (found.map (t.move old.length))) ∧
      NearestPath d old start new found := by
  unfold run
  cases new with
  | nil => exact ⟨[], rfl, .done start⟩
  | cons x xs =>
    obtain ⟨found, hscan, hpath⟩ := exists_scan hord h0 hlast (x :: xs)
    refine ⟨found, ?_, hpath⟩
    rw [if_neg (by simp)]
    simp [hscan, breakTies]

omit [IsStrictOrderedRing K] in
/-- Ties are broken query by query. -/
theorem forall₂_moved {P : K → Position K → Prop} {new : List K} {found : List (Int × K)} (t : TieBreak)
    (h : List.Forall₂ (fun x f => P x (Position.ofFraction (t.move old.length f).1
      (t.move old.length f).2)) new found) :
    List.Forall₂ P new (Column.ofFound (found.map (t.move old.length))).toList := by
  rw [Column.toList_ofFound, List.map_map, List.forall₂_map_right_iff]
  exact h

end Locate

/-! ## All backends -/

namespace Backend

/-- The backends locate alike, if the tie-break has a name. -/
theorem locate_eq {α : Type} [Scalar α] (b : Backend) (oldGrid newGrid : NdArray α) (extpolfac : α)
    (t : TieBreak) : b.locate oldGrid newGrid extpolfac (some t) =
      Locate.prepare oldGrid newGrid extpolfac >>= Locate.run Locate.Walk.stepping (some t) := by
  cases b with
  | compiled | native =>
    rw [locate, Locate.locateWith, Locate.Walk.asking_eq_stepping]
  | reference => rfl
  | fused => rfl

variable {K : Type} [Field K] [LinearOrder K] [IsStrictOrderedRing K] [FloorRing K] [Elementary K]
variable {d : Direction} {old : List K}

variable {extpolfac : K} {new : List K}

/-- **Queries within the envelope are located** along the nearest brackets. -/
theorem exists_found (b : Backend) (hord : Grid.Ordered d old) (hlen : 2 ≤ old.length)
    (he : 0 ≤ extpolfac) (t : TieBreak) (hnew : ∀ x ∈ new, Grid.InEnvelope d old extpolfac x) :
    ∃ found, b.locate (NdArray.vector old) (NdArray.vector new) extpolfac (some t) =
        .ok (Column.ofFound (found.map (t.move old.length))) ∧
      Locate.NearestPath d old (Locate.startFor old extpolfac new) new found := by
  obtain ⟨h0, hlast⟩ := Locate.startFor_bounds hlen extpolfac new
  obtain ⟨found, hrun, hpath⟩ := Locate.exists_run hord h0 hlast new t
  exact ⟨found, by rw [locate_eq, Locate.prepare_eq_ok hord hlen he hnew, Outcome.ok_bind, hrun],
    hpath⟩

/-- They are located, and the positions fit. -/
theorem exists_locate_eq_ok (b : Backend) (hord : Grid.Ordered d old) (hlen : 2 ≤ old.length)
    (he : 0 ≤ extpolfac) (t : TieBreak) (hnew : ∀ x ∈ new, Grid.InEnvelope d old extpolfac x) :
    ∃ c, b.locate (NdArray.vector old) (NdArray.vector new) extpolfac (some t) = .ok c ∧
      List.Forall₂ (Grid.Fits old) new c.toList := by
  obtain ⟨found, hlocate, hpath⟩ := b.exists_found hord hlen he t hnew
  refine ⟨_, hlocate, Locate.forall₂_moved t ?_⟩
  exact (hpath.fits hord).imp fun x f hf => Locate.fits_move t hf

/-- **Queries that are located are within the envelope**, and the positions fit. -/
theorem fits_of_locate_eq_ok (b : Backend) (hord : Grid.Ordered d old) (hlen : 2 ≤ old.length)
    (he : 0 ≤ extpolfac) {t : TieBreak} {c : Column K}
    (h : b.locate (NdArray.vector old) (NdArray.vector new) extpolfac (some t) = .ok c) :
    (∀ x ∈ new, Grid.InEnvelope d old extpolfac x) ∧ List.Forall₂ (Grid.Fits old) new c.toList := by
  have hin : ∀ x ∈ new, Grid.InEnvelope d old extpolfac x := by
    rw [locate_eq] at h
    obtain ⟨task, hprepare, -⟩ := Outcome.bind_eq_ok_iff.1 h
    exact Locate.inEnvelope_of_prepare_eq_ok hord hlen hprepare
  obtain ⟨c', hc', hfits⟩ := b.exists_locate_eq_ok hord hlen he t hin
  rw [h] at hc'
  cases hc'
  exact ⟨hin, hfits⟩

/-- A location fails as the check of the envelope does, whatever backend and tie-break. -/
theorem locate_failAlike (b : Backend) (hord : Grid.Ordered d old) (hlen : 2 ≤ old.length)
    (he : 0 ≤ extpolfac) (t : TieBreak) {low high : K}
    (hlimits : Grid.limits old extpolfac = .ok (low, high)) (new : List K) :
    Outcome.FailAlike (b.locate (NdArray.vector old) (NdArray.vector new) extpolfac (some t))
      (Grid.checkWithin new low high extpolfac) := by
  cases hcheck : Grid.checkWithin new low high extpolfac with
  | ok u =>
    obtain ⟨low', high', hlimits', -, hwithin⟩ := Grid.exists_limits hord hlen extpolfac
    rw [hlimits] at hlimits'
    cases hlimits'
    obtain ⟨c, hc, -⟩ := b.exists_locate_eq_ok hord hlen he t ((hwithin new).1 hcheck)
    rw [hc]
    exact .of_ok c u
  | error f =>
    rw [locate_eq, Locate.prepare_eq_error hord hlen he hlimits hcheck]
    exact .of_error f

end Backend

/-! ## Inside the grid and beyond its ends -/

namespace Grid

variable {K : Type} [Field K] [LinearOrder K]

/-- **What is promised of the position of a query** `x` in a grid that follows a
direction. -/
structure Located (d : Direction) (grid : List K) (extpolfac x : K) (p : Position K) : Prop where
  bracket : 0 ≤ p.idx ∧ p.idx ≤ grid.length - 2
  complement : p.complement = 1 - p.fraction
  reproduces : point grid p.idx + p.fraction * (point grid (p.idx + 1) - point grid p.idx) = x
  /-- A query inside the grid lies between the two points of its bracket. -/
  inside : (∃ a ∈ grid, a ≤ x) → (∃ b ∈ grid, x ≤ b) →
    x ∈ Set.uIcc (point grid p.idx) (point grid (p.idx + 1)) ∧ 0 ≤ p.fraction ∧ p.fraction ≤ 1
  /-- A query beyond the first point is extrapolated from the first bracket. -/
  beyondFirst : d.Before x (point grid 0) →
    p.idx = 0 ∧ -extpolfac ≤ p.fraction ∧ p.fraction < 0
  /-- A query beyond the last point is extrapolated from the last bracket. -/
  beyondLast : d.Before (point grid (grid.length - 1)) x →
    p.idx = grid.length - 2 ∧ 1 < p.fraction ∧ p.fraction ≤ 1 + extpolfac

variable {d : Direction} {grid : List K} {x : K} {p : Position K}

/-- The first point of an ordered grid is in front of all others. -/
theorem Ordered.not_before_first (hord : Ordered d grid) {a : K} (ha : a ∈ grid) :
    ¬ d.Before a (point grid 0) := by
  obtain ⟨i, hi, rfl⟩ := List.mem_iff_getElem.1 ha
  have := hord.not_before le_rfl (Int.natCast_nonneg i) (by omega)
  rwa [point_natCast, List.getD_eq_getElem _ _ hi] at this

theorem Ordered.not_last_before (hord : Ordered d grid) {a : K} (ha : a ∈ grid) :
    ¬ d.Before (point grid (grid.length - 1)) a := by
  obtain ⟨i, hi, rfl⟩ := List.mem_iff_getElem.1 ha
  have := hord.not_before (Int.natCast_nonneg i) (j := grid.length - 1) (by omega) (by omega)
  rwa [point_natCast grid i, List.getD_eq_getElem _ _ hi] at this

/-- Between the least and the greatest point a query is beyond no end of the grid. -/
theorem Ordered.not_beyond (hord : Ordered d grid) (hx : Between grid x) :
    ¬ d.Before x (point grid 0) ∧ ¬ d.Before (point grid (grid.length - 1)) x := by
  obtain ⟨⟨a, ha, hax⟩, b, hb, hxb⟩ := hx
  cases d with
  | ascending =>
    exact ⟨fun h => hord.not_before_first ha (lt_of_le_of_lt (α := K) hax h),
      fun h => hord.not_last_before hb (lt_of_lt_of_le (α := K) h hxb)⟩
  | descending =>
    exact ⟨fun h => hord.not_before_first hb (lt_of_lt_of_le (α := K) h hxb),
      fun h => hord.not_last_before ha (lt_of_le_of_lt (α := K) hax h)⟩

variable [IsStrictOrderedRing K]

/-- Between the least and the greatest point a query is within the envelope. -/
theorem Ordered.inEnvelope [FloorRing K] [Elementary K] (hord : Ordered d grid)
    (hlen : 2 ≤ grid.length) {extpolfac : K} (he : 0 ≤ extpolfac) (hx : Between grid x) :
    InEnvelope d grid extpolfac x := by
  obtain ⟨hfirst, hlast⟩ := hord.not_beyond hx
  constructor
  · intro h
    have hlimit := not_first_before_firstLimit hord hlen he
    exact hlimit (Direction.Before.not_trans hfirst h)
  · intro h
    have hlimit := not_lastLimit_before_last hord hlen he
    exact hlimit (h.trans_not hlast)

namespace Fits

/-- A query beyond the first point is in the first bracket. -/
theorem idx_eq_zero (h : Fits grid x p) (hord : Ordered d grid)
    (hx : d.Before x (point grid 0)) : p.idx = 0 := by
  have hlast := h.last
  rcases h.front with h0 | hnonneg
  · exact h0
  · rcases h.nonneg.eq_or_lt with h0 | hpos
    · exact h0.symm
    · have hbefore := hx.trans (hord.before le_rfl hpos (by omega))
      exact absurd ((h.before_lower_iff hord).1 hbefore) (not_lt.2 hnonneg)

/-- A query beyond the last point is in the last bracket. -/
theorem idx_eq_last (h : Fits grid x p) (hord : Ordered d grid)
    (hx : d.Before (point grid (grid.length - 1)) x) : p.idx = grid.length - 2 := by
  have hnonneg := h.nonneg
  have hlast := h.last
  rcases h.back with hend | hle
  · omega
  · by_cases hend : p.idx + 2 = grid.length
    · omega
    · have hbehind : d.Before (point grid (p.idx + 1)) x :=
        (hord.before (by omega) (by omega) (by omega)).trans hx
      exact absurd ((h.upper_before_iff hord).1 hbehind) (not_lt.2 hle)

/-- **Between the least and the greatest point** a query is inside the bracket of its position. -/
theorem inside (h : Fits grid x p) (hord : Ordered d grid) (hx : Between grid x) : p.Inside := by
  obtain ⟨hfirst, hend⟩ := hord.not_beyond hx
  have hnonneg : 0 ≤ p.fraction := by
    refine h.front.elim (fun h0 => ?_) id
    rwa [← not_lt, ← h.before_lower_iff hord, h0]
  have hle : p.fraction ≤ 1 := by
    refine h.back.elim (fun hn => ?_) id
    rw [← not_lt, ← h.upper_before_iff hord]
    rwa [show p.idx + 1 = (grid.length : Int) - 1 by omega]
  refine ⟨hnonneg, ?_, ?_⟩
  · rw [h.complement]
    exact sub_nonneg.2 hle
  · rw [h.complement, sub_add_cancel]

/-- **A position that fits a query within the envelope** is all that is promised. -/
theorem located (h : Fits grid x p) (hord : Ordered d grid) (hlen : 2 ≤ grid.length)
    {extpolfac : K} (hin : InEnvelope d grid extpolfac x) : Located d grid extpolfac x p where
  bracket := by
    have hlast := h.last
    exact ⟨h.nonneg, by omega⟩
  complement := h.complement
  reproduces := h.reproduces
  inside hlow hhigh := by
    have hinside := h.inside hord ⟨hlow, hhigh⟩
    have hnonneg := hinside.fraction
    have hle := hinside.le_one.1
    refine ⟨?_, hnonneg, hle⟩
    have hlower := mt (h.before_lower_iff hord).1 (not_lt.2 hnonneg)
    have hupper := mt (h.upper_before_iff hord).1 (not_lt.2 hle)
    cases d with
    | ascending => exact Set.mem_uIcc.2 (.inl ⟨not_lt.1 hlower, not_lt.1 hupper⟩)
    | descending => exact Set.mem_uIcc.2 (.inr ⟨not_lt.1 hupper, not_lt.1 hlower⟩)
  beyondFirst hx := by
    have h0 := h.idx_eq_zero hord hx
    have hlimit := (not_before_firstLimit_iff hord hlen extpolfac x).1 hin.1
    have hfraction := h.fraction_eq hord
    rw [h0] at hfraction
    refine ⟨h0, by rwa [hfraction], ?_⟩
    rwa [← h.before_lower_iff hord, h0]
  beyondLast hx := by
    have hend := h.idx_eq_last hord hx
    have hlimit := (not_lastLimit_before_iff hord hlen extpolfac x).1 hin.2
    have hupper : p.idx + 1 = (grid.length : Int) - 1 := by omega
    refine ⟨hend, ?_, ?_⟩
    · rwa [← h.upper_before_iff hord, hupper]
    · rwa [h.fraction_eq hord, hupper, hend]

end Fits
end Grid

namespace Locate

variable {K : Type} [Field K] [LinearOrder K] [IsStrictOrderedRing K] [FloorRing K] [Elementary K]

/-- **What a location promises.**  In an ordered grid of two points or more, queries are
located exactly when all of them are within the envelope, whatever the tie-break.  The
positions are as many as the queries and in their order, and each is as promised. -/
theorem locate_spec {d : Direction} {old : List K} (hord : Grid.Ordered d old)
    (hlen : 2 ≤ old.length) {extpolfac : K} (he : 0 ≤ extpolfac) (t : TieBreak) (new : List K) :
    ((∃ c, locate (NdArray.vector old) (NdArray.vector new) extpolfac (some t) = .ok c) ↔
      ∀ x ∈ new, Grid.InEnvelope d old extpolfac x) ∧
    ∀ c, locate (NdArray.vector old) (NdArray.vector new) extpolfac (some t) = .ok c →
      List.Forall₂ (Grid.Located d old extpolfac) new c.toList := by
  have hok : ∀ c, locate (NdArray.vector old) (NdArray.vector new) extpolfac (some t) = .ok c →
      (∀ x ∈ new, Grid.InEnvelope d old extpolfac x) ∧
        List.Forall₂ (Grid.Fits old) new c.toList := fun c hc =>
    Backend.reference.fits_of_locate_eq_ok hord hlen he hc
  refine ⟨⟨?_, ?_⟩, ?_⟩
  · rintro ⟨c, hc⟩
    exact (hok c hc).1
  · intro hin
    obtain ⟨c, hc, -⟩ := Backend.reference.exists_locate_eq_ok hord hlen he t hin
    exact ⟨c, hc⟩
  · intro c hc
    obtain ⟨hin, hfits⟩ := hok c hc
    rw [List.forall₂_iff_get] at hfits ⊢
    refine ⟨hfits.1, fun i hi hi' => ?_⟩
    exact (hfits.2 i hi hi').located hord hlen (hin _ (List.get_mem new ⟨i, hi⟩))

/-- Unsorted queries in a descending grid: two on the same inner point, and one beyond
each end. -/
theorem locate_spec_descending :
    ∃ c, locate (NdArray.vector [3, 1, 0, -2]) (NdArray.vector [1, 4, -3, 1 / 2, 1]) (1 / 2 : ℚ)
        (some .lower) = .ok c ∧
      List.Forall₂ (Grid.Located .descending [3, 1, 0, -2] (1 / 2)) [1, 4, -3, 1 / 2, 1]
        c.toList := by
  have hord : Grid.Ordered .descending ([3, 1, 0, -2] : List ℚ) := by decide +kernel
  have hin : ∀ x ∈ ([1, 4, -3, 1 / 2, 1] : List ℚ),
      Grid.InEnvelope .descending [3, 1, 0, -2] (1 / 2) x := by decide +kernel
  obtain ⟨hiff, hall⟩ := locate_spec hord (by decide) (show (0 : ℚ) ≤ 1 / 2 by decide +kernel)
    .lower [1, 4, -3, 1 / 2, 1]
  obtain ⟨c, hc⟩ := hiff.2 hin
  exact ⟨c, hc, hall c hc⟩

end Locate
end Regrid
