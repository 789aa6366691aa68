import Regrid.Proofs.Locate.Located
import Regrid.Proofs.Locate.Turns

/-!
# How good the estimate is

A scan starts from an estimate of the first bracket.  The estimate divides the envelope evenly and not
the grid, so it need not be right; but it is a bracket of the grid, and on an equidistant grid it is off
by one at most (`Locate.startFor_near`).

Counted in steps from the first point, a query that bracket `k` holds is between `k` and `k + 1`.  The
estimate adds the factor, since its way begins at the first limit, and then shrinks the sum, since the
way is longer than the number of the last bracket.  Shrinking tells the most in the last bracket and the
factor in the first one, and against each other they come to less than `1 + extpolfac` on either side,
however many brackets there are (`sub_lt_estimate`, `estimate_lt_add`).  With a factor of a half at most
this is less than one and a half, and is rounded to a neighbour at most; beyond the ends of the grid the
estimate is cut back.

The directions need no two arguments.  The estimate for a descending grid is mirrored, and told in steps
from the first point it is the same (`Locate.startBracket_eq_ok`).
-/
namespace Regrid

variable {K : Type} [Field K] [LinearOrder K]

/-! ## Equidistant grids -/

namespace Grid

/-- Equidistant points: from each point to the next it is the same step. -/
def Equidistant (grid : List K) : Prop := ∃ step, grid.IsChain fun x y => y - x = step

variable {d : Direction} {grid : List K} {x : K}

omit [LinearOrder K] in
/-- In steps of one length each point is reached from the first one. -/
theorem point_of_isChain {step : K} (h : grid.IsChain fun x y => y - x = step) {j : Nat}
    (hj : j < grid.length) : point grid j = point grid 0 + j * step := by
  induction j with
  | zero => rw [Nat.cast_zero, Nat.cast_zero, zero_mul, add_zero]
  | succ j ih =>
    have hstep : point grid (j + 1 : Nat) - point grid j = step := by
      rw [point_natCast, point_natCast, List.getD_eq_getElem _ _ hj,
        List.getD_eq_getElem _ _ (by omega)]
      exact List.isChain_iff_getElem.1 h j hj
    calc point grid (j + 1 : Nat) = point grid j + step := by rw [← hstep, add_sub_cancel]
      _ = point grid 0 + j * step + step := by rw [ih (by omega)]
      _ = point grid 0 + (j + 1 : Nat) * step := by
        rw [Nat.cast_succ, add_mul, one_mul, add_assoc]

namespace Equidistant

variable (h : Equidistant grid) (hlen : 2 ≤ grid.length)
include h hlen

omit [LinearOrder K] in
/-- The points are numbered by steps, and the first two points tell the length of a step. -/
theorem point_eq {i : Int} (h0 : 0 ≤ i) (hi : i < grid.length) :
    point grid i = point grid 0 + i * (point grid 1 - point grid 0) := by
  obtain ⟨step, hchain⟩ := h
  have hone : point grid 1 = point grid 0 + step := by
    have hpoint := point_of_isChain hchain (j := 1) (by omega)
    simpa using hpoint
  obtain ⟨j, rfl⟩ := Int.eq_ofNat_of_zero_le h0
  rw [hone, add_sub_cancel_left, point_of_isChain hchain (by omega), Int.cast_natCast]

variable (hord : Ordered d grid)
include hord

/-- The part of the way from the first limit to the last one that a query has gone, in steps. -/
theorem along_eq (extpolfac x : K) :
    (x - firstLimit grid extpolfac) / (lastLimit grid extpolfac - firstLimit grid extpolfac) =
      (fractionAt grid 0 x + extpolfac) / ((grid.length - 2 : Int) + 1 + 2 * extpolfac) := by
  have hstep : point grid 1 - point grid 0 ≠ 0 := hord.width_ne le_rfl (by omega)
  have hgone : x - firstLimit grid extpolfac =
      (fractionAt grid 0 x + extpolfac) * (point grid 1 - point grid 0) := by
    rw [firstLimit, fractionAt, zero_add, add_mul, div_mul_cancel₀ _ hstep]
    ring
  have hwhole : lastLimit grid extpolfac - firstLimit grid extpolfac =
      ((grid.length - 2 : Int) + 1 + 2 * extpolfac) * (point grid 1 - point grid 0) := by
    rw [lastLimit, firstLimit, h.point_eq hlen (i := grid.length - 1) (by omega) (by omega),
      h.point_eq hlen (i := grid.length - 2) (by omega) (by omega)]
    push_cast
    ring
  rw [hgone, hwhole, mul_div_mul_right _ _ hstep]

variable [IsStrictOrderedRing K]

/-- A bracket that holds a query is no more steps away than the query is, and one step more is not
less, unless the query is beyond an end. -/
theorem steps_of_holds {k : Int} (hk : Holds d grid k x) :
    (k = 0 ∨ (k : K) ≤ fractionAt grid 0 x) ∧
      (k + 2 = grid.length ∨ fractionAt grid 0 x ≤ k + 1) := by
  have hnonneg := hk.nonneg
  have hlast := hk.last
  have hfirst : d.Before (point grid 0) (point grid 1) := hord.before le_rfl zero_lt_one (by omega)
  constructor
  · rcases hk.front with h0 | hfront
    · exact .inl h0
    · rw [h.point_eq hlen hnonneg (by omega), Direction.before_at_iff' hfirst, not_lt] at hfront
      exact .inr hfront
  · rcases hk.back with hend | hback
    · exact .inl hend
    · rw [h.point_eq hlen (by omega) (by omega), Direction.before_at_iff hfirst, not_lt,
        Int.cast_add, Int.cast_one] at hback
      exact .inr hback

end Equidistant
end Grid

namespace Locate

variable [IsStrictOrderedRing K]

/-! ## Before rounding -/

section Estimates
variable {last extpolfac k steps : K} (he : 0 ≤ extpolfac) (h0 : 0 ≤ k) (hk : k ≤ last)
include he h0 hk

/-- **Not too low**: at the lower point of its bracket a query is estimated the lowest in the last
bracket. -/
theorem sub_lt_estimate (hsteps : k ≤ steps) :
    k - (1 + extpolfac) < (steps + extpolfac) / (last + 1 + 2 * extpolfac) * last := by
  have hlast : 0 ≤ last := h0.trans hk
  have hwhole : 0 < last + 1 + 2 * extpolfac := by linarith
  have hgone : k * last ≤ steps * last := mul_le_mul_of_nonneg_right hsteps hlast
  have hworst : k * extpolfac ≤ last * extpolfac := mul_le_mul_of_nonneg_right hk he
  have hrest : 0 < (1 + extpolfac) * (1 + 2 * extpolfac) := by positivity
  rw [div_mul_eq_mul_div, lt_div_iff₀ hwhole]
  linarith

/-- **Not too high**: at the upper point of its bracket a query is estimated the highest in the first
bracket. -/
theorem estimate_lt_add (hsteps : steps ≤ k + 1) :
    (steps + extpolfac) / (last + 1 + 2 * extpolfac) * last < k + (1 + extpolfac) := by
  have hlast : 0 ≤ last := h0.trans hk
  have hwhole : 0 < last + 1 + 2 * extpolfac := by linarith
  have hgone : steps * last ≤ (k + 1) * last := mul_le_mul_of_nonneg_right hsteps hlast
  have hworst : 0 ≤ k * extpolfac := mul_nonneg h0 he
  have hrest : 0 < (1 + extpolfac) * (1 + 2 * extpolfac) := by positivity
  rw [div_mul_eq_mul_div, div_lt_iff₀ hwhole]
  linarith

end Estimates

/-! ## The first query -/

variable [FloorRing K] [Elementary K] {d : Direction} {grid : List K} {x : K}

omit [Elementary K] in
/-- **On an equidistant grid the estimate is off by one at most**, whichever bracket holds the query. -/
theorem startFor_near (hord : Grid.Ordered d grid) (hlen : 2 ≤ grid.length)
    (hequidistant : Grid.Equidistant grid) {extpolfac : K} (he : 0 ≤ extpolfac)
    (hhalf : extpolfac ≤ 1 / 2) (rest : List K) {k : Int} (hk : Grid.Holds d grid k x) :
    |startFor grid extpolfac (x :: rest) - k| ≤ 1 := by
  have hnonneg := hk.nonneg
  have hlast := hk.last
  have h0 : (0 : K) ≤ k := Int.cast_nonneg hnonneg
  have hle : (k : K) ≤ (grid.length - 2 : Int) := Int.cast_le.2 (by omega)
  obtain ⟨hfront, hback⟩ := hequidistant.steps_of_holds hlen hord hk
  have hmargin : 1 + extpolfac ≤ 3 / 2 := by linarith
  have hlow := hfront.imp_right fun hsteps => Exact.sub_one_le_nearest
    (lt_of_le_of_lt (sub_le_sub_left hmargin _) (sub_lt_estimate he h0 hle hsteps))
  have hhigh := hback.imp_right fun hsteps => Exact.nearest_le_add_one
    (lt_of_lt_of_le (estimate_lt_add he h0 hle hsteps) (add_le_add_right hmargin _))
  -- In the first bracket the estimate cannot be too low, and in the last one not too high.
  rw [startFor, hequidistant.along_eq hlen hord, abs_le]
  omega

/-- The first query is looked for from a bracket of the grid until a bracket holds it. -/
theorem exists_visits (hord : Grid.Ordered d grid) {start : Int} (h0 : 0 ≤ start)
    (hlast : start + 2 ≤ grid.length) (form : Form) (x : K) :
    ∃ b visited b', bracketAt (pointAt grid.toArray) start = .ok b ∧ b.index = start ∧
      moveTo form.walk (pointAt grid.toArray) grid.length d b x = .ok b' ∧
      Visits form (pointAt grid.toArray) grid.length d b x visited b' ∧
      Grid.Holds d grid b'.index x := by
  obtain ⟨i, rfl⟩ := Int.eq_ofNat_of_zero_le h0
  have hi : i + 2 ≤ grid.length := by omega
  have hreads := reads_point grid
  obtain ⟨j, hmove, hmoves⟩ := moveTo_bracketOf hreads d hi x
  rw [← form.walk_eq] at hmove
  obtain ⟨visited, hvisits⟩ := moveTo_eq_ok_iff.1 hmove
  exact ⟨_, visited, _, bracketAt_eq_ok hreads hi, rfl, hmove, hvisits,
    (hmoves.fits hord hi).holds hord⟩

/-- **The first query is a step away at most** from the bracket to start from. -/
structure OneStep (d : Direction) (grid : List K) (x : K) (start : Int) : Prop where
  /-- No bracket that holds the query is farther away. -/
  near : ∀ k, Grid.Holds d grid k x → |start - k| ≤ 1
  /-- Both forms of the walk find such a bracket, and take one turn at most. -/
  turns : ∀ form : Form, ∃ b visited b', bracketAt (pointAt grid.toArray) start = .ok b ∧
    moveTo form.walk (pointAt grid.toArray) grid.length d b x = .ok b' ∧
    Visits form (pointAt grid.toArray) grid.length d b x visited b' ∧
    Grid.Holds d grid b'.index x ∧ visited.length ≤ 1

/-- **The bracket to start from.**  On an ordered grid of two points or more the checks are passed
exactly if all queries are within the envelope, and what is then to be scanned is the grid and the queries
as they were given, from a bracket of the grid.  If the grid is equidistant and the factor a half at most,
no bracket that holds the first query is more than one away, and the scan takes one turn at most to find
such a bracket. -/
theorem start_is_near (hord : Grid.Ordered d grid) (hlen : 2 ≤ grid.length) {extpolfac : K}
    (he : 0 ≤ extpolfac) (x : K) (rest : List K) :
    ((∃ task, prepare (NdArray.vector grid) (NdArray.vector (x :: rest)) extpolfac = .ok task) ↔
      ∀ y ∈ x :: rest, Grid.InEnvelope d grid extpolfac y) ∧
    ∀ task, prepare (NdArray.vector grid) (NdArray.vector (x :: rest)) extpolfac = .ok task →
      task.old = grid ∧ task.new = x :: rest ∧ task.direction = d ∧
      0 ≤ task.start ∧ task.start ≤ grid.length - 2 ∧
      (Grid.Equidistant grid → extpolfac ≤ 1 / 2 → OneStep d grid x task.start) := by
  constructor
  · constructor
    · rintro ⟨task, htask⟩
      exact inEnvelope_of_prepare_eq_ok hord hlen htask
    · intro hin
      exact ⟨_, prepare_eq_ok hord hlen he hin⟩
  intro task htask
  have hin := inEnvelope_of_prepare_eq_ok hord hlen htask
  rw [prepare_eq_ok hord hlen he hin] at htask
  obtain rfl := Except.ok.inj htask
  obtain ⟨h0, hlast⟩ := startFor_bounds hlen extpolfac (x :: rest)
  have hend : startFor grid extpolfac (x :: rest) ≤ grid.length - 2 := by omega
  refine ⟨rfl, rfl, rfl, h0, hend, fun hequidistant hhalf => ?_⟩
  have hnear : ∀ k, Grid.Holds d grid k x → |startFor grid extpolfac (x :: rest) - k| ≤ 1 :=
    fun k hk => startFor_near hord hlen hequidistant he hhalf rest hk
  refine ⟨hnear, fun form => ?_⟩
  obtain ⟨b, visited, b', hstart, hindex, hmove, hvisits, hholds⟩ :=
    exists_visits hord h0 hlast form x
  refine ⟨b, visited, b', hstart, hmove, hvisits, hholds, ?_⟩
  -- There are as many turns as the bracket is moved by.
  have hle := abs_le.1 (hnear b'.index hholds)
  rw [hvisits.length_eq, hindex]
  omega

/-- A descending grid, where the estimate is off by one: the query is in the first bracket, and the scan
starts from the second one. -/
theorem start_is_near_descending :
    ∃ task, prepare (NdArray.vector [3, 2, 1, 0]) (NdArray.vector [21 / 10]) (1 / 2 : ℚ) = .ok task ∧
      task.start = 1 ∧ Grid.Holds .descending [3, 2, 1, 0] 0 (21 / 10 : ℚ) ∧
      OneStep .descending [3, 2, 1, 0] (21 / 10 : ℚ) task.start := by
  have hord : Grid.Ordered .descending ([3, 2, 1, 0] : List ℚ) := by decide +kernel
  have hin : ∀ y ∈ ([21 / 10] : List ℚ), Grid.InEnvelope .descending [3, 2, 1, 0] (1 / 2) y := by
    decide +kernel
  have hequidistant : Grid.Equidistant ([3, 2, 1, 0] : List ℚ) := ⟨-1, by decide +kernel⟩
  obtain ⟨hiff, hall⟩ :=
    start_is_near hord (by decide) (show (0 : ℚ) ≤ 1 / 2 by decide +kernel) (21 / 10) []
  obtain ⟨task, htask⟩ := hiff.2 hin
  obtain ⟨-, -, -, -, -, hnear⟩ := hall task htask
  have hstart : (prepare (NdArray.vector [3, 2, 1, 0]) (NdArray.vector [21 / 10])
      (1 / 2 : ℚ)).toOption.map Task.start = some 1 := by decide +kernel
  rw [htask] at hstart
  have hholds : Grid.Holds .descending [3, 2, 1, 0] 0 (21 / 10 : ℚ) :=
    ⟨le_rfl, by decide, .inl rfl, .inr (by decide +kernel)⟩
  exact ⟨task, htask, Option.some.inj hstart, hholds, hnear hequidistant le_rfl⟩

end Locate
end Regrid
