import Regrid.Proofs.Grid.Admission
import Regrid.Proofs.Sample.Protocols

/-!
# Locating among numbers and infinities

For a reference grid and queries in its range nothing goes wrong in a location: the bracket to start
from is estimated from finite limits that differ, every bracket is one of the grid, and the
distances of its points are finite and not nought (`Extended.exists_run`).  So a location succeeds
exactly if the grid is a reference grid and all queries are in its range, and if it does not, the
grid is told to be malformed or the first query out of range is named.

The check of two grids for one another asks the same in another way: it looks for a query that is no
number, and then at the least and the greatest query only.  It ends alike
(`Backend.locate_decidedAlike`).
-/
namespace Regrid

/-! ## Positions with finite distances -/

/-- A position with finite distances. -/
def Position.finite {K : Type} (p : Position K) : Position (Extended K) :=
  ⟨p.idx, .finite p.fraction, .finite p.complement⟩

namespace Extended

variable {K : Type} [Field K] [LinearOrder K]

/-- A position is sound on an axis of `n` points if its distances are finite and the numbers make
it sound. -/
def Sound (n : Nat) (p : Position (Extended K)) : Prop :=
  ∃ q : Position K, Sample.Sound n q ∧ p = q.finite

/-- What a scan finds for a query in a grid of `n` points: a bracket of the grid and a finite
fraction. -/
def Found (n : Nat) (found : Int × Extended K) : Prop :=
  0 ≤ found.1 ∧ found.1 + 2 ≤ (n : Int) ∧ ∃ t, found.2 = finite t

variable [FloorRing K] [Elementary K] {n : Nat} {found : Int × Extended K}

theorem Found.sound (h : Found n found) : Sound n (Position.ofFraction found.1 found.2) := by
  obtain ⟨i, f⟩ := found
  obtain ⟨h0, hn, t, rfl⟩ := h
  refine ⟨⟨i, t, 1 - t⟩, ⟨⟨h0, hn⟩, sub_add_cancel 1 t⟩, ?_⟩
  rw [Position.ofFraction, one_eq, finite_sub]
  rfl

/-- A broken tie leaves a bracket of the grid and a finite fraction. -/
theorem Found.move (h : Found n found) (t : TieBreak) : Found n (t.move n found) := by
  have h0 : 0 ≤ found.1 := h.1
  have hn : found.1 + 2 ≤ (n : Int) := h.2.1
  rcases t.move_cases n found with hmove | ⟨habove, hmove⟩ | ⟨hbelow, hmove⟩
  · rwa [hmove]
  · rw [hmove]
    exact ⟨by omega, by omega, 0, zero_eq⟩
  · rw [hmove]
    exact ⟨by omega, by omega, 1, one_eq⟩

/-! ## The scan of a reference grid -/

theorem divide_finite {x y : K} (h : y ≠ 0) :
    divide (finite x) (finite y) = .ok (finite (x / y)) := by
  have hne : ¬ Scalar.eq (finite y) (Scalar.zero : Extended K) = true := by
    rw [zero_eq]
    simpa [Scalar.eq, same] using h
  have hquotient : (finite x / finite y : Extended K) = finite (x / y) := if_neg h
  rw [divide, if_neg hne, hquotient]

section Scan
variable {d : Direction} {points : List K} (hord : Grid.Ordered d points)
include hord

/-- Along a path every bracket gives its query a finite fraction. -/
theorem exists_fractions {i : Nat} (hi : i + 2 ≤ points.length) {queries : List K} {js : List Nat}
    (h : Locate.Path d (fun k => finite (Grid.point points k)) points.length i
      (queries.map finite) js) :
    ∃ found, Locate.fractions (js.map (Locate.bracketOf fun k => finite (Grid.point points k)))
        (queries.map finite) = .ok found ∧
      found.length = queries.length ∧ ∀ f ∈ found, Found points.length f := by
  induction queries generalizing i js with
  | nil =>
    cases h
    exact ⟨[], rfl, rfl, by simp⟩
  | cons x xs ih =>
    cases h with
    | @step _ j _ _ js move rest =>
      have hj := move.last hi
      obtain ⟨found, hrun, hlen, hfound⟩ := ih hj rest
      have hwidth := hord.width_ne (Int.natCast_nonneg j) (by omega)
      rw [← Nat.cast_succ] at hwidth
      obtain ⟨t, ht⟩ : ∃ t, Locate.fractionIn
          (Locate.bracketOf (fun k => finite (Grid.point points k)) j) (finite x) =
            .ok (finite t) := by
        rw [Locate.fractionIn, Locate.bracketOf, finite_sub, finite_sub]
        exact ⟨_, divide_finite hwidth⟩
      have hlast : (j : Int) + 2 ≤ points.length := by omega
      have hhere : Found points.length ((j : Int), finite t) :=
        ⟨Int.natCast_nonneg j, hlast, t, rfl⟩
      refine ⟨((j : Int), finite t) :: found, ?_, congrArg Nat.succ hlen,
        List.forall_mem_cons.2 ⟨hhere, hfound⟩⟩
      rw [List.map_cons, List.map_cons, Locate.fractions, ht, Outcome.ok_bind, hrun]
      rfl

/-- The scan finds something for every query, wherever it starts. -/
theorem exists_scan {start : Int} (h0 : 0 ≤ start) (hlast : start + 2 ≤ points.length)
    (queries : List K) :
    ∃ found, Locate.scan Locate.Walk.stepping (points.map finite) d start (queries.map finite) =
        .ok found ∧
      found.length = queries.length ∧ ∀ f ∈ found, Found points.length f := by
  obtain ⟨i, rfl⟩ := Int.eq_ofNat_of_zero_le h0
  have hi : i + 2 ≤ points.length := by omega
  have hreads : Locate.Reads (Locate.pointAt (points.map finite).toArray)
      (fun k => finite (Grid.point points k)) points.length := by
    have hmap := Locate.reads_pointAt (points.map finite) (finite 0)
    rw [List.length_map] at hmap
    intro k hk
    have hpoint : (points.map finite).getD k (finite 0) = finite (Grid.point points k) := by
      rw [List.getD_map, Grid.point_natCast]
    exact (hmap k hk).trans (congrArg Except.ok hpoint)
  obtain ⟨js, hrun, hpath⟩ := Locate.brackets_bracketOf hreads d hi (queries.map finite)
  obtain ⟨found, hfractions, hfound⟩ := exists_fractions hord hi hpath
  refine ⟨found, ?_, hfound⟩
  rw [Locate.scan, Locate.bracketAt_eq_ok hreads hi, Outcome.ok_bind, List.length_map, hrun,
    Outcome.ok_bind, hfractions]

/-- **A task with a bracket of the grid is carried out**, and all positions are sound. -/
theorem exists_run {start : Int} (h0 : 0 ≤ start) (hlast : start + 2 ≤ points.length)
    (queries : List K) (t : TieBreak) :
    ∃ c, Locate.run Locate.Walk.stepping (some t)
        ⟨points.map finite, queries.map finite, d, start⟩ = .ok c ∧
      c.length = queries.length ∧ ∀ p ∈ c.toList, Sound points.length p := by
  cases queries with
  | nil => exact ⟨Column.empty, rfl, rfl, by simp [Column.toList, Column.empty]⟩
  | cons x xs =>
    obtain ⟨found, hscan, hlen, hfound⟩ := exists_scan hord h0 hlast (x :: xs)
    refine ⟨Column.ofFound (found.map (t.move points.length)), ?_, ?_, ?_⟩
    · rw [Locate.run, if_neg (by simp)]
      simp only [hscan, Outcome.ok_bind, Locate.breakTies, List.length_map, Outcome.pure_eq_ok]
    · simp [Column.length, Column.ofFound, hlen]
    · rw [Column.toList_ofFound, List.map_map]
      intro p hp
      obtain ⟨f, hf, rfl⟩ := List.mem_map.1 hp
      exact ((hfound f hf).move t).sound

end Scan

/-! ## Grid and queries, checked -/

theorem exists_startBracket (first : K) {low high : K} (hspan : low < high) {n : Int} (hn : 2 ≤ n)
    (d : Direction) :
    ∃ start, Locate.startBracket (finite first) (finite low) (finite high) n d = .ok start ∧
      0 ≤ start ∧ start + 2 ≤ n := by
  have hwidth : high - low ≠ 0 := sub_ne_zero.2 hspan.ne'
  obtain ⟨estimate, hestimate⟩ : ∃ estimate : Int, Locate.startBracket (finite first) (finite low)
      (finite high) n d = .ok (min (max estimate 0) (n - 2)) := by
    rw [Locate.startBracket, finite_sub, finite_sub, divide_finite hwidth, Outcome.ok_bind]
    cases d with
    | ascending => exact ⟨_, rfl⟩
    | descending => exact ⟨_, rfl⟩
  exact ⟨_, hestimate, by omega, by omega⟩

variable [IsStrictOrderedRing K] {grid : List (Extended K)} {points : List K} {extpolfac : K}

/-- Of a reference grid only the queries are left to check. -/
theorem exists_prepare_eq (h : Grid.IsReference grid points) (he : 0 ≤ extpolfac)
    (new : List (Extended K)) :
    ∃ d, Grid.Ordered d points ∧
      Locate.prepare (NdArray.vector grid) (NdArray.vector new) (finite extpolfac) =
        Grid.checkWithin new (finite (Grid.firstLimit (Grid.upward points) extpolfac))
          (finite (Grid.lastLimit (Grid.upward points) extpolfac)) (finite extpolfac) >>= fun _ =>
        match new with
        | [] => .ok ⟨grid, new, d, 0⟩
        | first :: _ => do
          let start ← Locate.startBracket first
            (finite (Grid.firstLimit (Grid.upward points) extpolfac))
            (finite (Grid.lastLimit (Grid.upward points) extpolfac)) grid.length d
          return ⟨grid, new, d, start⟩ := by
  have hlen : Grid.linearPoints ≤ points.length := Int.ofNat_le.2 h.two
  obtain ⟨d, hreference⟩ := (exists_checkReference_iff _ "").2 ⟨points, h, hlen⟩
  have hnotneg : ¬ Scalar.lt (finite extpolfac) (Scalar.zero : Extended K) = true := by
    rw [zero_eq, lt_finite]
    simpa using he
  refine ⟨d, ?_, ?_⟩
  · rw [h.finite, checkReference_map_finite, Grid.checkReference_linear_iff] at hreference
    exact hreference.2
  · rw [Locate.prepare, if_neg hnotneg]
    simp only [Grid.ofArray_vector, Outcome.ok_bind, hreference, limits_of_reference h]
    cases new with
    | nil => rfl
    | cons first rest => rfl

/-- Queries in the range pass, and the scan starts at a bracket of the grid. -/
theorem exists_prepare (h : Grid.IsReference grid points) (he : 0 ≤ extpolfac)
    {new : List (Extended K)} (hnew : ∀ x ∈ new, IsIn (Grid.range points extpolfac) x) :
    ∃ (d : Direction) (start : Int), Grid.Ordered d points ∧ 0 ≤ start ∧
      start + 2 ≤ points.length ∧
      Locate.prepare (NdArray.vector grid) (NdArray.vector new) (finite extpolfac) =
        .ok ⟨grid, new, d, start⟩ := by
  obtain ⟨d, hord, hprepare⟩ := exists_prepare_eq h he new
  rw [checkWithin_eq_ok hnew, Outcome.ok_bind] at hprepare
  have htwo := h.two
  cases new with
  | nil => exact ⟨d, 0, hord, le_rfl, by omega, hprepare⟩
  | cons first rest =>
    obtain ⟨x, -, rfl⟩ := hnew first (List.mem_cons_self ..)
    obtain ⟨start, hstart, h0, hlast⟩ := exists_startBracket x (h.firstLimit_lt_lastLimit he)
      (n := points.length) (by omega) d
    rw [h.length_eq] at hprepare
    simp only [hstart, Outcome.ok_bind] at hprepare
    exact ⟨d, start, hord, h0, hlast, hprepare⟩

/-- The first query out of range is named. -/
theorem prepare_eq_error (h : Grid.IsReference grid points) (he : 0 ≤ extpolfac)
    {new : List (Extended K)} (hnew : ¬ ∀ x ∈ new, IsIn (Grid.range points extpolfac) x) :
    ∃ value position, new[position]? = some value ∧ ¬ IsIn (Grid.range points extpolfac) value ∧
      (∀ x ∈ new.take position, IsIn (Grid.range points extpolfac) x) ∧
      Locate.prepare (NdArray.vector grid) (NdArray.vector new) (finite extpolfac) =
        .error (.outOfRange (.outsideEnvelope value position
          (finite (Grid.firstLimit (Grid.upward points) extpolfac))
          (finite (Grid.lastLimit (Grid.upward points) extpolfac)) (finite extpolfac))) := by
  obtain ⟨d, -, hprepare⟩ := exists_prepare_eq h he new
  obtain ⟨value, position, hvalue, hout, hbefore, hcheck⟩ :=
    checkWithin_eq_error hnew (finite extpolfac)
  rw [hcheck, Outcome.error_bind] at hprepare
  exact ⟨value, position, hvalue, hout, hbefore, hprepare⟩

/-- What is no reference grid is malformed, whatever the queries are. -/
theorem prepare_malformed (hgrid : ¬ ∃ points, Grid.IsReference grid points) (he : 0 ≤ extpolfac)
    (new : List (Extended K)) : Outcome.Refused .malformedGrid
      (Locate.prepare (NdArray.vector grid) (NdArray.vector new) (finite extpolfac)) := by
  have hnotneg : ¬ Scalar.lt (finite extpolfac) (Scalar.zero : Extended K) = true := by
    rw [zero_eq, lt_finite]
    simpa using he
  rw [Locate.prepare, if_neg hnotneg, Grid.ofArray_vector, Outcome.ok_bind, Grid.ofArray_vector,
    Outcome.ok_bind]
  exact (checkReference_malformed hgrid (le_refl Grid.linearPoints) "").bind _

/-! ## Locating -/

/-- Queries in the range are located, each at a sound position. -/
theorem exists_locate (b : Backend) (t : TieBreak) (h : Grid.IsReference grid points)
    (he : 0 ≤ extpolfac) {new : List (Extended K)}
    (hnew : ∀ x ∈ new, IsIn (Grid.range points extpolfac) x) :
    ∃ c, b.locate (NdArray.vector grid) (NdArray.vector new) (finite extpolfac) (some t) = .ok c ∧
      c.length = new.length ∧ ∀ p ∈ c.toList, Sound points.length p := by
  obtain ⟨d, start, hord, h0, hlast, hprepare⟩ := exists_prepare h he hnew
  have hfinite : ∀ x ∈ new, Scalar.isFinite x = true := by
    intro x hx
    obtain ⟨q, -, rfl⟩ := hnew x hx
    rfl
  obtain ⟨queries, rfl⟩ := exists_map_finite hfinite
  obtain ⟨c, hrun, hlen, hsound⟩ := exists_run hord h0 hlast queries t
  refine ⟨c, ?_, by rw [hlen, List.length_map], hsound⟩
  rw [Backend.locate_eq, hprepare, Outcome.ok_bind, ← hrun, h.finite]

/-- The first query out of range is named. -/
theorem locate_outOfRange (b : Backend) (t : TieBreak) (h : Grid.IsReference grid points)
    (he : 0 ≤ extpolfac) {new : List (Extended K)}
    (hnew : ¬ ∀ x ∈ new, IsIn (Grid.range points extpolfac) x) :
    ∃ value position, new[position]? = some value ∧ ¬ IsIn (Grid.range points extpolfac) value ∧
      (∀ x ∈ new.take position, IsIn (Grid.range points extpolfac) x) ∧
      b.locate (NdArray.vector grid) (NdArray.vector new) (finite extpolfac) (some t) =
        .error (.outOfRange (.outsideEnvelope value position
          (finite (Grid.firstLimit (Grid.upward points) extpolfac))
          (finite (Grid.lastLimit (Grid.upward points) extpolfac)) (finite extpolfac))) := by
  obtain ⟨value, position, hvalue, hout, hbefore, hprepare⟩ := prepare_eq_error h he hnew
  refine ⟨value, position, hvalue, hout, hbefore, ?_⟩
  rw [Backend.locate_eq, hprepare]
  rfl

theorem locate_malformed (b : Backend) (t : TieBreak)
    (hgrid : ¬ ∃ points, Grid.IsReference grid points) (he : 0 ≤ extpolfac)
    (new : List (Extended K)) : Outcome.Refused .malformedGrid
      (b.locate (NdArray.vector grid) (NdArray.vector new) (finite extpolfac) (some t)) := by
  rw [Backend.locate_eq]
  exact (prepare_malformed hgrid he new).bind _

/-! ## The check of two grids for one another -/

omit [IsStrictOrderedRing K] in
/-- Of numbers and infinities the extremes are looked at, for all of them. -/
theorem checkExtremes_eq_ok_iff {which : String} {low high : K} {new : List (Extended K)}
    (hgrid : grid ≠ []) (hnan : ∀ x ∈ new, Scalar.isNaN x = false) :
    Grid.checkExtremes which grid (finite low) (finite high) new = .ok () ↔
      ∀ x ∈ new, IsIn (Set.Icc low high) x := by
  obtain ⟨o, os, rfl⟩ := List.exists_cons_of_ne_nil hgrid
  cases new with
  | nil => simp [Grid.checkExtremes]
  | cons x rest =>
    have hne : ∀ y ∈ x :: rest, y ≠ nan := by
      rintro y hy rfl
      cases hnan nan hy
    have hpass : (∀ y ∈ x :: rest, IsIn (Set.Icc low high) y) ↔
        ¬ Scalar.lt (Scalar.least x rest) (finite low) = true ∧
          ¬ Scalar.lt (finite high) (Scalar.greatest x rest) = true := by
      rw [least_lt_iff hne (finite_ne_nan low), lt_greatest_iff hne (finite_ne_nan high)]
      simp only [not_exists, not_and]
      rw [← forall₂_and]
      refine forall₂_congr fun y hy => ?_
      rw [← isOutside_eq_false_iff, Grid.isOutside, hnan y hy]
      simp
    rw [hpass, Grid.checkExtremes]
    by_cases hbelow : Scalar.lt (Scalar.least x rest) (finite low) = true
    · rw [if_pos hbelow]
      exact ⟨fun h => (by cases h), fun h => absurd hbelow h.1⟩
    · rw [if_neg hbelow]
      by_cases habove : Scalar.lt (finite high) (Scalar.greatest x rest) = true
      · rw [if_pos habove]
        exact ⟨fun h => (by cases h), fun h => absurd habove h.2⟩
      · rw [if_neg habove]
        exact ⟨fun _ => ⟨hbelow, habove⟩, fun _ => rfl⟩

omit [IsStrictOrderedRing K] in
theorem checkExtremes_failsWithin (which : String) (hgrid : grid ≠ []) (low high : Extended K)
    (new : List (Extended K)) :
    Outcome.FailsWithin [.outOfRange] (Grid.checkExtremes which grid low high new) := by
  obtain ⟨o, os, rfl⟩ := List.exists_cons_of_ne_nil hgrid
  cases new with
  | nil => exact .of_ok ()
  | cons x rest =>
    exact .ite (fun _ => .of_error (List.mem_cons_self ..)) fun _ =>
      .ite (fun _ => .of_error (List.mem_cons_self ..)) fun _ => .of_ok ()

/-- The check of two grids passes exactly if all queries are in the range of the reference grid,
and fails because of the range only. -/
theorem checkPair_of_reference (h : Grid.IsReference grid points) (extpolfac : K) (which : String)
    (new : List (Extended K)) :
    (Grid.checkPair which (NdArray.vector grid) (NdArray.vector new) 1 (finite extpolfac) = .ok () ↔
      ∀ x ∈ new, IsIn (Grid.range points extpolfac) x) ∧
    Outcome.FailsWithin [.outOfRange]
      (Grid.checkPair which (NdArray.vector grid) (NdArray.vector new) 1 (finite extpolfac)) := by
  have hlen : (1 + 1 : Int) ≤ points.length := Int.ofNat_le.2 h.two
  obtain ⟨d, hreference⟩ := (exists_checkReference_iff _ which).2 ⟨points, h, hlen⟩
  have hgrid : grid ≠ [] := by
    rintro rfl
    have hnone := h.length_eq
    have htwo := h.two
    rw [List.length_nil] at hnone
    omega
  rw [Grid.checkPair]
  simp only [Grid.ofArray_vector, Outcome.ok_bind, hreference, limits_of_reference h]
  by_cases hempty : new = []
  · subst hempty
    exact ⟨⟨fun _ => by simp, fun _ => rfl⟩, .of_ok ()⟩
  · rw [if_neg (by simpa using hempty)]
    split
    · next value position hfirst =>
      obtain ⟨hmem, hnan⟩ := Grid.mem_of_firstWith_eq_some hfirst
      refine ⟨⟨nofun, fun hall => ?_⟩, .of_error (List.mem_cons_self ..)⟩
      obtain ⟨q, -, rfl⟩ := hall value hmem
      cases hnan
    · next hfirst =>
      exact ⟨checkExtremes_eq_ok_iff hgrid (Grid.firstWith_eq_none_iff.1 hfirst),
        checkExtremes_failsWithin which hgrid _ _ new⟩

theorem checkPair_malformed (hgrid : ¬ ∃ points, Grid.IsReference grid points) {order : Int}
    (horder : 1 ≤ order) (which : String) (new : List (Extended K)) (e : Extended K) :
    Outcome.Refused .malformedGrid
      (Grid.checkPair which (NdArray.vector grid) (NdArray.vector new) order e) := by
  rw [Grid.checkPair, Grid.ofArray_vector, Outcome.ok_bind, Grid.ofArray_vector, Outcome.ok_bind]
  exact (checkReference_malformed hgrid (show 2 ≤ order + 1 by omega) which).bind _

end Extended

/-! ## Orders -/

namespace Grid

variable {α : Type} [Scalar α] {grid : List α} {order : Int} (which : String) (new : List α)
  (extpolfac : α)

/-- An order asks for points only, one more than it is. -/
theorem checkPair_of_le (horder : 1 ≤ order) (h : order + 1 ≤ grid.length) :
    checkPair which (NdArray.vector grid) (NdArray.vector new) order extpolfac =
      checkPair which (NdArray.vector grid) (NdArray.vector new) 1 extpolfac := by
  have hlinear : (1 + 1 : Int) ≤ grid.length := by omega
  rw [checkPair, checkPair, ofArray_vector, Outcome.ok_bind, ofArray_vector, Outcome.ok_bind,
    checkReference_congr h hlinear]
  rfl

theorem checkPair_of_lt (h : (grid.length : Int) < order + 1) : Outcome.Refused .malformedGrid
    (checkPair which (NdArray.vector grid) (NdArray.vector new) order extpolfac) := by
  rw [checkPair, ofArray_vector, Outcome.ok_bind, ofArray_vector, Outcome.ok_bind,
    checkReference_of_lt h]
  exact ⟨_, rfl, rfl⟩

end Grid

/-! ## Decided twice -/

variable {K : Type} [Field K] [LinearOrder K]

open Extended in
/-- **What is accepted of a grid and of queries**, by a location and by a check of the two grids for
an order of interpolation. -/
structure Grid.DecidedAlike (grid new : List (Extended K)) (extpolfac : K) {β : Type}
    (located : Except (Fault (Extended K)) β)
    (checked : Int → Except (Fault (Extended K)) Unit) : Prop where
  /-- Queries are located exactly if the grid is a reference grid and all of them are numbers in
  its range. -/
  accepted : (∃ c, located = .ok c) ↔ ∃ points, IsReference grid points ∧
    ∀ x ∈ new, IsIn (range points extpolfac) x
  /-- The grid is malformed exactly if it is no reference grid. -/
  malformed : Outcome.Refused .malformedGrid located ↔ ¬ ∃ points, IsReference grid points
  /-- All else that is refused is the first query that is not in the range. -/
  named : ∀ points f, IsReference grid points → located = .error f →
    ∃ value position, new[position]? = some value ∧ ¬ IsIn (range points extpolfac) value ∧
      (∀ x ∈ new.take position, IsIn (range points extpolfac) x) ∧
      f = .outOfRange (.outsideEnvelope value position
        (finite (firstLimit (upward points) extpolfac))
        (finite (lastLimit (upward points) extpolfac)) (finite extpolfac))
  /-- The check for linear interpolation ends alike. -/
  checked_linear : Outcome.EndAlike (located.map fun _ => ()) (checked 1)
  /-- With enough points the check for any order ends alike, too. -/
  checked_order : ∀ order : Int, 1 ≤ order → order + 1 ≤ grid.length →
    Outcome.EndAlike (checked order) (checked 1)
  /-- With less points than the order asks for, the grid is malformed. -/
  checked_short : ∀ order : Int, 1 ≤ order → (grid.length : Int) < order + 1 →
    Outcome.Refused .malformedGrid (checked order)

namespace Backend

variable [IsStrictOrderedRing K] [FloorRing K] [Elementary K]

open Extended

section Locating
variable {extpolfac : K} (b : Backend) (t : TieBreak) {grid new : List (Extended K)}
  (he : 0 ≤ extpolfac)
include he

theorem exists_locate_iff :
    (∃ c, b.locate (NdArray.vector grid) (NdArray.vector new) (finite extpolfac) (some t) = .ok c) ↔
      ∃ points, Grid.IsReference grid points ∧
        ∀ x ∈ new, IsIn (Grid.range points extpolfac) x := by
  constructor
  · intro hok
    by_cases hgrid : ∃ points, Grid.IsReference grid points
    · obtain ⟨points, h⟩ := hgrid
      refine ⟨points, h, ?_⟩
      by_contra hnew
      obtain ⟨value, position, -, -, -, hlocate⟩ := locate_outOfRange b t h he hnew
      rw [hlocate] at hok
      obtain ⟨c, hc⟩ := hok
      cases hc
    · exact absurd hok (locate_malformed b t hgrid he new).not_ok
  · rintro ⟨points, h, hnew⟩
    obtain ⟨c, hc, -⟩ := exists_locate b t h he hnew
    exact ⟨c, hc⟩

theorem locate_named {points : List K} (h : Grid.IsReference grid points) {f : Fault (Extended K)}
    (hf : b.locate (NdArray.vector grid) (NdArray.vector new) (finite extpolfac) (some t) =
      .error f) :
    ∃ value position, new[position]? = some value ∧ ¬ IsIn (Grid.range points extpolfac) value ∧
      (∀ x ∈ new.take position, IsIn (Grid.range points extpolfac) x) ∧
      f = .outOfRange (.outsideEnvelope value position
        (finite (Grid.firstLimit (Grid.upward points) extpolfac))
        (finite (Grid.lastLimit (Grid.upward points) extpolfac)) (finite extpolfac)) := by
  by_cases hnew : ∀ x ∈ new, IsIn (Grid.range points extpolfac) x
  · obtain ⟨c, hc, -⟩ := exists_locate b t h he hnew
    rw [hc] at hf
    cases hf
  · obtain ⟨value, position, hvalue, hout, hbefore, hlocate⟩ := locate_outOfRange b t h he hnew
    rw [hlocate] at hf
    cases hf
    exact ⟨value, position, hvalue, hout, hbefore, rfl⟩

theorem locate_malformed_iff :
    Outcome.Refused .malformedGrid
        (b.locate (NdArray.vector grid) (NdArray.vector new) (finite extpolfac) (some t)) ↔
      ¬ ∃ points, Grid.IsReference grid points := by
  refine ⟨?_, fun hgrid => locate_malformed b t hgrid he new⟩
  rintro ⟨f, hf, hkind⟩ ⟨points, h⟩
  obtain ⟨value, position, -, -, -, rfl⟩ := b.locate_named t he h hf
  cases hkind

/-- The two checks end alike. -/
theorem locate_endAlike_checkPair (which : String) : Outcome.EndAlike
    ((b.locate (NdArray.vector grid) (NdArray.vector new) (finite extpolfac) (some t)).map
      fun _ => ())
    (Grid.checkPair which (NdArray.vector grid) (NdArray.vector new) 1 (finite extpolfac)) := by
  by_cases hgrid : ∃ points, Grid.IsReference grid points
  · obtain ⟨points, h⟩ := hgrid
    obtain ⟨hpair, hkinds⟩ := checkPair_of_reference h extpolfac which new
    by_cases hnew : ∀ x ∈ new, IsIn (Grid.range points extpolfac) x
    · obtain ⟨c, hlocate, -⟩ := exists_locate b t h he hnew
      rw [hlocate, hpair.2 hnew]
      exact .refl _
    · obtain ⟨value, position, -, -, -, hlocate⟩ := locate_outOfRange b t h he hnew
      have hlocated : Outcome.Refused .outOfRange
          (b.locate (NdArray.vector grid) (NdArray.vector new) (finite extpolfac) (some t)) :=
        ⟨_, hlocate, rfl⟩
      have hchecked : Outcome.Refused .outOfRange (Grid.checkPair which (NdArray.vector grid)
          (NdArray.vector new) 1 (finite extpolfac)) := by
        cases hcheck : Grid.checkPair which (NdArray.vector grid) (NdArray.vector new) 1
            (finite extpolfac) with
        | ok u => exact absurd (hpair.1 hcheck) hnew
        | error f => exact ⟨f, rfl, List.mem_singleton.1 (hkinds f hcheck)⟩
      exact (hlocated.map _).endAlike hchecked
  · have hlocated := locate_malformed b t hgrid he new
    exact (hlocated.map _).endAlike (checkPair_malformed hgrid le_rfl which new _)

end Locating

/-- **Which grids and queries are accepted is decided twice, and alike**: by a location, on every
backend and with every tie-break, and by the check of the two grids for one another.  Entries may be
infinite or no numbers at all. -/
theorem locate_decidedAlike (b : Backend) (t : TieBreak) (which : String)
    (grid new : List (Extended K)) {extpolfac : K} (he : 0 ≤ extpolfac) :
    Grid.DecidedAlike grid new extpolfac
      (b.locate (NdArray.vector grid) (NdArray.vector new) (finite extpolfac) (some t))
      fun order =>
        Grid.checkPair which (NdArray.vector grid) (NdArray.vector new) order
          (finite extpolfac) where
  accepted := b.exists_locate_iff t he
  malformed := b.locate_malformed_iff t he
  named _ _ h hf := b.locate_named t he h hf
  checked_linear := b.locate_endAlike_checkPair t he which
  checked_order _ horder hlen := .of_eq (Grid.checkPair_of_le which new _ horder hlen)
  checked_short _ _ hlen := Grid.checkPair_of_lt which new _ hlen

/-- A descending grid, and queries of which the second is infinite and the third no number. -/
theorem locate_decidedAlike_descending :
    Grid.IsReference [.finite 3, .finite 1, .finite (0 : ℚ)] [3, 1, 0] ∧
      Grid.DecidedAlike [.finite 3, .finite 1, .finite 0] [.finite 4, .posInf, .nan] (1 / 2 : ℚ)
        (fused.locate (NdArray.vector [.finite 3, .finite 1, .finite 0])
          (NdArray.vector [.finite 4, .posInf, .nan]) (.finite (1 / 2)) (some .lower))
        fun order => Grid.checkPair "" (NdArray.vector [.finite 3, .finite 1, .finite 0])
          (NdArray.vector [.finite 4, .posInf, .nan]) order (.finite (1 / 2)) := by
  have hsorted : ([3, 1, 0] : List ℚ).Pairwise (· > ·) := by decide +kernel
  exact ⟨⟨rfl, by decide, .inr hsorted⟩,
    locate_decidedAlike fused .lower "" _ _ (show (0 : ℚ) ≤ 1 / 2 by decide +kernel)⟩

end Backend
end Regrid
