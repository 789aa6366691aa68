import Regrid.Proofs.Locate.Walk
import Regrid.Scalar.Double

/-!
# The turns of the walk

The definitions of the walks end by an index that is used up, or a room.  Here their loops are told turn
by turn and without either.  A `Loop` moves its position, looks at one point of the grid, and decides
by this point and its position whether there is another turn; it asks after each turn
(`Loop.MovesFirst`) or before it (`Loop.AsksFirst`).  Such a run is finite, and it tells the positions
that it visits.  The positions are the same in both forms (`Loop.movesFirst_iff`), and none is beyond the
brackets of the grid (`Loop.MovesFirst.downward_bounds`, `Loop.MovesFirst.upward_bounds`).

One query takes at most one such run (`Visits`), and all queries make a `Tour`.  The walks compute
exactly what these end with (`moveTo_eq_ok_iff`, `brackets_eq_ok_iff`).  So nothing has to be known of
the points or of the comparisons for a scan to be safe (`scan_is_safe`): its loops end, it looks at no
index outside the grid, and the points that it keeps are those of its bracket.
-/
namespace Regrid

/-- **A bracket of a grid**: it keeps the two points at its index. -/
structure Bracket.IsOf {α : Type} (b : Bracket α) (grid : List α) : Prop where
  nonneg : 0 ≤ b.index
  last : b.index + 2 ≤ grid.length
  lower : grid[b.index.toNat]? = some b.lower
  upper : grid[b.index.toNat + 1]? = some b.upper

namespace Locate

variable {α : Type}

/-! ## Loops -/

/-- **A loop that walks along the grid.** -/
structure Loop (α : Type) where
  /-- The position after a turn. -/
  move : Int → Int
  /-- The index of the point that is looked at from a position. -/
  looksAt : Int → Int
  /-- There is another turn, from a position with the point that was looked at there. -/
  goesOn : Int → α → Bool

namespace Loop

/-- Down, as long as the query is in front of the lower point and there is a bracket below. -/
def downward (before : α → Bool) : Loop α :=
  ⟨fun pos => pos - 1, fun pos => pos, fun pos lower => before lower && decide (0 < pos)⟩

/-- Up, as long as the query is behind the upper point and the bracket is not the last one. -/
def upward (behind : α → Bool) (last : Int) : Loop α :=
  ⟨fun pos => pos + 1, fun pos => pos + 1, fun pos upper => behind upper && decide (pos < last)⟩

section Runs
variable (L : Loop α) (read : Int → Except (Fault α) α)

/-- **Move and look, then ask**: the positions that the loop visits from a position on, the one
that it ends at, and the point that it has looked at there. -/
inductive MovesFirst : Int → List Int → Int × α → Prop
  | stop {pos next : Int} {point : α} (move : L.move pos = next)
      (look : read (L.looksAt next) = .ok point) (ends : L.goesOn next point = false) :
      MovesFirst pos [next] (next, point)
  | turn {pos next : Int} {point : α} {visited : List Int} {r : Int × α} (move : L.move pos = next)
      (look : read (L.looksAt next) = .ok point) (on : L.goesOn next point = true)
      (rest : MovesFirst next visited r) : MovesFirst pos (next :: visited) r

/-- **Ask, then move and look**, from a position with the point that was looked at there. -/
inductive AsksFirst : Int → α → List Int → Int × α → Prop
  | stop {pos : Int} {point : α} (ends : L.goesOn pos point = false) :
      AsksFirst pos point [] (pos, point)
  | turn {pos next : Int} {point point' : α} {visited : List Int} {r : Int × α}
      (on : L.goesOn pos point = true) (move : L.move pos = next)
      (look : read (L.looksAt next) = .ok point') (rest : AsksFirst next point' visited r) :
      AsksFirst pos point (next :: visited) r

end Runs

variable {L : Loop α} {read : Int → Except (Fault α) α} {pos : Int} {visited : List Int} {r : Int × α}

/-- **Turn by turn both forms are the same**, but for the first turn, before which nothing is asked. -/
theorem movesFirst_iff : L.MovesFirst read pos visited r ↔
    ∃ next point rest, L.move pos = next ∧ read (L.looksAt next) = .ok point ∧
      visited = next :: rest ∧ L.AsksFirst read next point rest r := by
  constructor
  · intro h
    induction h with
    | @stop pos next point move look ends => exact ⟨next, point, [], move, look, rfl, .stop ends⟩
    | @turn pos next point visited r move look on _ ih =>
      obtain ⟨next', point', rest, move', look', rfl, hrest⟩ := ih
      exact ⟨next, point, next' :: rest, move, look, rfl, .turn on move' look' hrest⟩
  · rintro ⟨next, point, rest, move, look, rfl, h⟩
    induction h generalizing pos with
    | stop ends => exact .stop move look ends
    | turn on move' look' _ ih => exact .turn move look on (ih move' look')

/-- A run looks at the points of the positions that it visits, and at nothing else. -/
theorem MovesFirst.congr {read' : Int → Except (Fault α) α} (h : L.MovesFirst read pos visited r)
    (hread : ∀ v ∈ visited, read' (L.looksAt v) = read (L.looksAt v)) :
    L.MovesFirst read' pos visited r := by
  induction h with
  | stop move look ends =>
    exact .stop move ((hread _ (List.mem_singleton_self _)).trans look) ends
  | turn move look on _ ih =>
    obtain ⟨hnext, hvisited⟩ := List.forall_mem_cons.1 hread
    exact .turn move (hnext.trans look) on (ih hvisited)

/-- A loop ends at a position that it visits. -/
theorem MovesFirst.end_mem (h : L.MovesFirst read pos visited r) : r.1 ∈ visited := by
  induction h with
  | stop => exact List.mem_singleton_self _
  | turn _ _ _ _ ih => exact List.mem_cons_of_mem _ ih

/-- **On the way down** no position is below nought: there is another turn only above it. -/
theorem MovesFirst.downward_bounds {before : α → Bool}
    (h : (downward before).MovesFirst read pos visited r) (hpos : 0 < pos) :
    ∀ v ∈ visited, 0 ≤ v ∧ v < pos := by
  induction h with
  | @stop pos next point move =>
    have hnext : pos - 1 = next := move
    rw [List.forall_mem_singleton]
    omega
  | @turn pos next point visited r move look on _ ih =>
    have hnext : pos - 1 = next := move
    have habove : 0 < next := of_decide_eq_true (Bool.and_eq_true_iff.1 on).2
    rw [List.forall_mem_cons]
    refine ⟨by omega, fun v hv => ?_⟩
    have hv := ih habove v hv
    omega

/-- **On the way up** no position is above the last bracket. -/
theorem MovesFirst.upward_bounds {behind : α → Bool} {last : Int}
    (h : (upward behind last).MovesFirst read pos visited r) (hpos : pos < last) :
    ∀ v ∈ visited, pos < v ∧ v ≤ last := by
  induction h with
  | @stop pos next point move =>
    have hnext : pos + 1 = next := move
    rw [List.forall_mem_singleton]
    omega
  | @turn pos next point visited r move look on _ ih =>
    have hnext : pos + 1 = next := move
    have hbelow : next < last := of_decide_eq_true (Bool.and_eq_true_iff.1 on).2
    rw [List.forall_mem_cons]
    refine ⟨by omega, fun v hv => ?_⟩
    have hv := ih hbelow v hv
    omega

/-- Every turn goes down by one. -/
theorem MovesFirst.downward_length {before : α → Bool}
    (h : (downward before).MovesFirst read pos visited r) : r.1 + visited.length = pos := by
  induction h with
  | @stop pos next point move =>
    have hnext : pos - 1 = next := move
    rw [List.length_singleton]
    omega
  | @turn pos next point visited r move _ _ _ ih =>
    have hnext : pos - 1 = next := move
    rw [List.length_cons]
    omega

/-- Every turn goes up by one. -/
theorem MovesFirst.upward_length {behind : α → Bool} {last : Int}
    (h : (upward behind last).MovesFirst read pos visited r) : pos + visited.length = r.1 := by
  induction h with
  | @stop pos next point move =>
    have hnext : pos + 1 = next := move
    rw [List.length_singleton]
    omega
  | @turn pos next point visited r move _ _ _ ih =>
    have hnext : pos + 1 = next := move
    rw [List.length_cons]
    omega

/-! ## What the loops compute -/

/-- The way down is computed by counting the index down. -/
theorem descend_eq_ok_iff {before : α → Bool} {i : Nat} :
    descend read before i = .ok r ↔
      ∃ visited, (downward before).MovesFirst read (i + 1) visited r := by
  -- At nought the index is used up, and the loop itself has no other turn either.
  induction i with
  | zero =>
    rw [descend, Outcome.bind_eq_ok_iff]
    constructor
    · rintro ⟨lower, hread, h⟩
      cases h
      exact ⟨[0], .stop rfl hread (Bool.and_false _)⟩
    · rintro ⟨visited, h⟩
      cases h with
      | @stop _ next point move look =>
        obtain rfl : (0 : Int) = next := move
        exact ⟨point, look, rfl⟩
      | @turn _ next point _ _ move _ on =>
        obtain rfl : (0 : Int) = next := move
        exact absurd on (by simp [downward])
  | succ i ih =>
    have hmove : ∀ next : Int, (downward before).move ((i + 1 : Nat) + 1) = next ↔
        ((i + 1 : Nat) : Int) = next := by
      intro next
      show ((i + 1 : Nat) : Int) + 1 - 1 = next ↔ _
      rw [add_sub_cancel_right]
    rw [descend, Outcome.bind_eq_ok_iff]
    constructor
    · rintro ⟨lower, hread, h⟩
      by_cases hb : before lower = true
      · rw [if_pos hb] at h
        obtain ⟨visited, hrest⟩ := ih.1 h
        refine ⟨_, .turn ((hmove _).2 rfl) hread ?_ (by rwa [Nat.cast_succ])⟩
        exact Bool.and_eq_true_iff.2 ⟨hb, decide_eq_true (Int.natCast_pos.2 (Nat.succ_pos i))⟩
      · rw [if_neg hb] at h
        cases h
        refine ⟨_, .stop ((hmove _).2 rfl) hread ?_⟩
        exact Bool.and_eq_false_imp.2 fun h => absurd h hb
    · rintro ⟨visited, h⟩
      cases h with
      | @stop _ next point move look ends =>
        obtain rfl := (hmove next).1 move
        refine ⟨point, look, ?_⟩
        have habove : (0 : Int) < (i + 1 : Nat) := by omega
        have hb : ¬ before point = true := by simpa [downward, habove] using ends
        rw [if_neg hb]
        rfl
      | @turn _ next point visited _ move look on rest =>
        obtain rfl := (hmove next).1 move
        refine ⟨point, look, ?_⟩
        rw [if_pos (Bool.and_eq_true_iff.1 on).1]
        exact ih.2 ⟨visited, by rwa [Nat.cast_succ] at rest⟩

/-- The way up is computed by counting the room down. -/
theorem ascend_eq_ok_iff {behind : α → Bool} {room : Nat} {i last : Int} (hlast : i + room = last) :
    ascend read behind room i = .ok r ↔
      ∃ visited, (upward behind last).MovesFirst read (i - 1) visited r := by
  -- Without room the position is the last one, and the loop itself has no other turn either.
  have hmove : ∀ i next : Int, (upward behind last).move (i - 1) = next ↔ i = next := by
    intro i next
    show i - 1 + 1 = next ↔ _
    rw [sub_add_cancel]
  induction room generalizing i with
  | zero =>
    rw [ascend, Outcome.bind_eq_ok_iff]
    have hend : ¬ i < last := by omega
    constructor
    · rintro ⟨upper, hread, h⟩
      cases h
      exact ⟨_, .stop ((hmove i _).2 rfl) hread (by simp [upward, hend])⟩
    · rintro ⟨visited, h⟩
      cases h with
      | @stop _ next point move look =>
        obtain rfl := (hmove i next).1 move
        exact ⟨point, look, rfl⟩
      | @turn _ next point _ _ move _ on =>
        obtain rfl := (hmove i next).1 move
        exact absurd on (by simp [upward, hend])
  | succ room ih =>
    rw [ascend, Outcome.bind_eq_ok_iff]
    have hbelow : i < last := by omega
    have hrest := ih (i := i + 1) (by omega)
    rw [add_sub_cancel_right] at hrest
    constructor
    · rintro ⟨upper, hread, h⟩
      by_cases hb : behind upper = true
      · rw [if_pos hb] at h
        obtain ⟨visited, hvisited⟩ := hrest.1 h
        exact ⟨_, .turn ((hmove i _).2 rfl) hread (by simp [upward, hb, hbelow]) hvisited⟩
      · rw [if_neg hb] at h
        cases h
        exact ⟨_, .stop ((hmove i _).2 rfl) hread (by simp [upward, hb])⟩
    · rintro ⟨visited, h⟩
      cases h with
      | @stop _ next point move look ends =>
        obtain rfl := (hmove i next).1 move
        refine ⟨point, look, ?_⟩
        have hb : ¬ behind point = true := by simpa [upward, hbelow] using ends
        rw [if_neg hb]
        rfl
      | @turn _ next point visited _ move look on rest =>
        obtain rfl := (hmove i next).1 move
        refine ⟨point, look, ?_⟩
        rw [if_pos (Bool.and_eq_true_iff.1 on).1]
        exact hrest.2 ⟨visited, rest⟩

end Loop

/-! ## The two forms -/

/-- **When a loop asks**: after each turn, or before it. -/
inductive Form where
  | stepping
  | asking
deriving DecidableEq, Repr

namespace Form

variable {read : Int → Except (Fault α) α} {L : Loop α} {pos : Int} {visited : List Int} {r : Int × α}

/-- The walk of a form. -/
def walk : Form → Walk α
  | stepping => Walk.stepping
  | asking => Walk.asking

theorem walk_eq (form : Form) : (form.walk : Walk α) = Walk.stepping := by
  cases form with
  | stepping => rfl
  | asking => exact Walk.asking_eq_stepping

/-- A run of a loop in a form.  The form that asks makes a first turn unasked. -/
def Runs (form : Form) (read : Int → Except (Fault α) α) (L : Loop α) (pos : Int) (visited : List Int)
    (r : Int × α) : Prop :=
  match form with
  | stepping => L.MovesFirst read pos visited r
  | asking => ∃ next point rest, L.move pos = next ∧ read (L.looksAt next) = .ok point ∧
      visited = next :: rest ∧ L.AsksFirst read next point rest r

/-- The forms visit the same positions. -/
theorem runs_iff (form : Form) :
    form.Runs read L pos visited r ↔ L.MovesFirst read pos visited r := by
  cases form with
  | stepping => rfl
  | asking => exact Loop.movesFirst_iff.symm

end Form

/-! ## One query -/

variable [Scalar α]

/-- **The positions visited for one query**, from the bracket for the one before to its own.  One loop
looks at the lower points and the other one at the upper ones; the point that a loop does not look at
is looked up when it has ended. -/
inductive Visits (form : Form) (read : Int → Except (Fault α) α) (n : Int) (d : Direction)
    (b : Bracket α) (x : α) : List Int → Bracket α → Prop
  | down {visited : List Int} {j : Int} {lower upper : α}
      (front : precedes d x b.lower = true ∧ 0 < b.index)
      (runs : form.Runs read (.downward (precedes d x)) b.index visited (j, lower))
      (look : read (j + 1) = .ok upper) : Visits form read n d b x visited ⟨j, lower, upper⟩
  | up {visited : List Int} {j : Int} {lower upper : α}
      (front : ¬ (precedes d x b.lower = true ∧ 0 < b.index))
      (back : succeeds d x b.upper = true ∧ b.index < n - 2)
      (runs : form.Runs read (.upward (succeeds d x) (n - 2)) b.index visited (j, upper))
      (look : read j = .ok lower) : Visits form read n d b x visited ⟨j, lower, upper⟩
  | stay (front : ¬ (precedes d x b.lower = true ∧ 0 < b.index))
      (back : ¬ (succeeds d x b.upper = true ∧ b.index < n - 2)) : Visits form read n d b x [] b

section Query
variable {form : Form} {read : Int → Except (Fault α) α} {n : Int} {d : Direction} {b b' : Bracket α}
  {x : α} {visited : List Int}

/-- One form visits what the other one does. -/
theorem Visits.of_form (h : Visits form read n d b x visited b') (form' : Form) :
    Visits form' read n d b x visited b' := by
  cases h with
  | down front runs look => exact .down front (form'.runs_iff.2 (form.runs_iff.1 runs)) look
  | up front back runs look => exact .up front back (form'.runs_iff.2 (form.runs_iff.1 runs)) look
  | stay front back => exact .stay front back

/-- From a bracket of the grid only such brackets are visited, and the query ends in one. -/
theorem Visits.bounds (h : Visits form read n d b x visited b') (h0 : 0 ≤ b.index)
    (hlast : b.index + 2 ≤ n) :
    (∀ v ∈ visited, 0 ≤ v ∧ v + 2 ≤ n) ∧ 0 ≤ b'.index ∧ b'.index + 2 ≤ n := by
  cases h with
  | down front runs =>
    have hrun := form.runs_iff.1 runs
    have hall : ∀ v ∈ visited, 0 ≤ v ∧ v + 2 ≤ n := by
      intro v hv
      have hv := hrun.downward_bounds front.2 v hv
      omega
    exact ⟨hall, hall _ hrun.end_mem⟩
  | up front back runs =>
    have hrun := form.runs_iff.1 runs
    have hall : ∀ v ∈ visited, 0 ≤ v ∧ v + 2 ≤ n := by
      intro v hv
      have hv := hrun.upward_bounds back.2 v hv
      omega
    exact ⟨hall, hall _ hrun.end_mem⟩
  | stay => exact ⟨nofun, h0, hlast⟩

/-- There are as many turns as the bracket is moved by. -/
theorem Visits.length_eq (h : Visits form read n d b x visited b') :
    visited.length = (b'.index - b.index).natAbs := by
  cases h with
  | @down visited j lower upper front runs look =>
    have hlength : j + visited.length = b.index := (form.runs_iff.1 runs).downward_length
    show visited.length = (j - b.index).natAbs
    omega
  | @up visited j lower upper front back runs look =>
    have hlength : b.index + visited.length = j := (form.runs_iff.1 runs).upward_length
    show visited.length = (j - b.index).natAbs
    omega
  | stay => rw [sub_self, Int.natAbs_zero, List.length_nil]

/-- Only the points of the grid are looked at. -/
theorem Visits.congr {read' : Int → Except (Fault α) α} (h : Visits form read n d b x visited b')
    (h0 : 0 ≤ b.index) (hlast : b.index + 2 ≤ n)
    (hread : ∀ k : Int, 0 ≤ k → k < n → read' k = read k) : Visits form read' n d b x visited b' := by
  obtain ⟨hvisited, hend⟩ := h.bounds h0 hlast
  cases h with
  | @down visited j lower upper front runs look =>
    obtain ⟨hj, hj'⟩ : 0 ≤ j ∧ j + 2 ≤ n := hend
    have hruns : (Loop.downward (precedes d x)).MovesFirst read' b.index visited (j, lower) := by
      apply (form.runs_iff.1 runs).congr
      intro v hv
      obtain ⟨hv0, hv2⟩ := hvisited v hv
      exact hread v hv0 (by omega)
    exact .down front (form.runs_iff.2 hruns) ((hread _ (by omega) (by omega)).trans look)
  | @up visited j lower upper front back runs look =>
    obtain ⟨hj, hj'⟩ : 0 ≤ j ∧ j + 2 ≤ n := hend
    have hruns : (Loop.upward (succeeds d x) (n - 2)).MovesFirst read' b.index visited (j, upper) := by
      apply (form.runs_iff.1 runs).congr
      intro v hv
      obtain ⟨hv0, hv2⟩ := hvisited v hv
      exact hread (v + 1) (by omega) (by omega)
    exact .up front back (form.runs_iff.2 hruns) ((hread _ hj (by omega)).trans look)
  | stay front back => exact .stay front back

/-- **The bracket for one query is where the loops end.** -/
theorem moveTo_eq_ok_iff : moveTo form.walk read n d b x = .ok b' ↔
    ∃ visited, Visits form read n d b x visited b' := by
  have hdown : 0 < b.index → ((b.index - 1).toNat : Int) + 1 = b.index := by omega
  have hup : b.index < n - 2 → b.index + 1 + (n - 2 - (b.index + 1)).toNat = n - 2 := by omega
  rw [form.walk_eq, moveTo]
  by_cases hfront : precedes d x b.lower = true ∧ 0 < b.index
  · rw [if_pos (by simpa using hfront)]
    simp only [Walk.stepping, Outcome.bind_eq_ok_iff, Loop.descend_eq_ok_iff, hdown hfront.2,
      Prod.exists]
    constructor
    · rintro ⟨j, lower, ⟨visited, hrun⟩, upper, hlook, h⟩
      cases h
      exact ⟨visited, .down hfront (form.runs_iff.2 hrun) hlook⟩
    · rintro ⟨visited, h⟩
      cases h with
      | down _ runs look => exact ⟨_, _, ⟨visited, form.runs_iff.1 runs⟩, _, look, rfl⟩
      | up front => exact absurd hfront front
      | stay front => exact absurd hfront front
  · rw [if_neg (by simpa using hfront)]
    by_cases hback : succeeds d x b.upper = true ∧ b.index < n - 2
    · rw [if_pos (by simpa using hback)]
      simp only [Walk.stepping, Outcome.bind_eq_ok_iff, Loop.ascend_eq_ok_iff (hup hback.2),
        add_sub_cancel_right, Prod.exists]
      constructor
      · rintro ⟨j, upper, ⟨visited, hrun⟩, lower, hlook, h⟩
        cases h
        exact ⟨visited, .up hfront hback (form.runs_iff.2 hrun) hlook⟩
      · rintro ⟨visited, h⟩
        cases h with
        | down front => exact absurd front hfront
        | up _ _ runs look => exact ⟨_, _, ⟨visited, form.runs_iff.1 runs⟩, _, look, rfl⟩
        | stay _ back => exact absurd hback back
    · rw [if_neg (by simpa using hback)]
      constructor
      · intro h
        cases h
        exact ⟨[], .stay hfront hback⟩
      · rintro ⟨visited, h⟩
        cases h with
        | down front => exact absurd front hfront
        | up _ back => exact absurd back hback
        | stay => rfl

end Query

/-! ## All queries -/

/-- **The positions visited along the queries**, those for each, and the brackets that they end in. -/
inductive Tour (form : Form) (read : Int → Except (Fault α) α) (n : Int) (d : Direction) :
    Bracket α → List α → List (List Int) → List (Bracket α) → Prop
  | done (b : Bracket α) : Tour form read n d b [] [] []
  | step {b b' : Bracket α} {x : α} {xs : List α} {visited : List Int} {visits : List (List Int)}
      {bs : List (Bracket α)} (here : Visits form read n d b x visited b')
      (rest : Tour form read n d b' xs visits bs) :
      Tour form read n d b (x :: xs) (visited :: visits) (b' :: bs)

section Queries
variable {form : Form} {read : Int → Except (Fault α) α} {n : Int} {d : Direction} {b : Bracket α}
  {xs : List α} {visits : List (List Int)} {bs : List (Bracket α)}

theorem Tour.of_form (h : Tour form read n d b xs visits bs) (form' : Form) :
    Tour form' read n d b xs visits bs := by
  induction h with
  | done b => exact .done b
  | step here _ ih => exact .step (here.of_form form') ih

theorem Tour.congr {read' : Int → Except (Fault α) α} (h : Tour form read n d b xs visits bs)
    (h0 : 0 ≤ b.index) (hlast : b.index + 2 ≤ n)
    (hread : ∀ k : Int, 0 ≤ k → k < n → read' k = read k) : Tour form read' n d b xs visits bs := by
  induction h with
  | done b => exact .done b
  | step here _ ih =>
    obtain ⟨-, h0', hlast'⟩ := here.bounds h0 hlast
    exact .step (here.congr h0 hlast hread) (ih h0' hlast')

/-- A tour stays among the brackets of the grid. -/
theorem Tour.bounds (h : Tour form read n d b xs visits bs) (h0 : 0 ≤ b.index)
    (hlast : b.index + 2 ≤ n) : ∀ visited ∈ visits, ∀ v ∈ visited, 0 ≤ v ∧ v + 2 ≤ n := by
  induction h with
  | done => exact nofun
  | step here _ ih =>
    obtain ⟨hvisited, h0', hlast'⟩ := here.bounds h0 hlast
    exact List.forall_mem_cons.2 ⟨hvisited, ih h0' hlast'⟩

/-- **The brackets of the queries are where the loops end**, query by query. -/
theorem brackets_eq_ok_iff : brackets form.walk read n d b xs = .ok bs ↔
    ∃ visits, Tour form read n d b xs visits bs := by
  induction xs generalizing b bs with
  | nil =>
    constructor
    · intro h
      cases h
      exact ⟨[], .done b⟩
    · rintro ⟨visits, h⟩
      cases h
      rfl
  | cons x xs ih =>
    simp only [brackets, Outcome.bind_eq_ok_iff, moveTo_eq_ok_iff, ih]
    constructor
    · rintro ⟨b', ⟨visited, hhere⟩, bs', ⟨visits, hrest⟩, h⟩
      cases h
      exact ⟨visited :: visits, .step hhere hrest⟩
    · rintro ⟨_, h⟩
      cases h with
      | step here rest => exact ⟨_, ⟨_, here⟩, _, ⟨_, rest⟩, rfl⟩

end Queries

/-! ## The scan -/

omit [Scalar α] in
/-- The bracket at an index is one of the grid. -/
theorem isOf_bracketOf {old : List α} (default : α) {k : Nat} (hk : k + 2 ≤ old.length) :
    (bracketOf (old.getD · default) k).IsOf old where
  nonneg := Int.natCast_nonneg k
  last := by
    show (k : Int) + 2 ≤ old.length
    omega
  lower := by
    have hlt : k < old.length := by omega
    simp [bracketOf, List.getElem?_eq_getElem hlt]
  upper := by
    have hlt : k + 1 < old.length := by omega
    simp [bracketOf, List.getElem?_eq_getElem hlt]

/-- The fractions of the queries in their brackets, one by one. -/
theorem fractions_eq_mapM (bs : List (Bracket α)) (new : List α) :
    fractions bs new = (bs.zip new).mapM fun (b, x) => do
      return (b.index, ← divide (x - b.lower) (b.upper - b.lower)) := by
  induction bs generalizing new with
  | nil => rfl
  | cons b bs ih =>
    cases new with
    | nil => rfl
    | cons x xs =>
      rw [fractions, ih xs, List.zip_cons_cons, List.mapM_cons, fractionIn, bind_assoc]
      rfl

/-- The brackets of a path are brackets of the grid, one for each query. -/
theorem Path.brackets_isOf {d : Direction} {old : List α} {default : α} {i : Nat} {new : List α}
    {js : List Nat} (h : Path d (old.getD · default) old.length i new js) (hi : i + 2 ≤ old.length) :
    js.length = new.length ∧ ∀ j ∈ js, (bracketOf (old.getD · default) j).IsOf old := by
  induction h with
  | done => exact ⟨rfl, nofun⟩
  | step move _ ih =>
    have hj := move.last hi
    obtain ⟨hlen, hall⟩ := ih hj
    exact ⟨congrArg Nat.succ hlen, List.forall_mem_cons.2 ⟨isOf_bracketOf default hj, hall⟩⟩

/-- **A scan is safe on whatever it is given.**  The grid may be out of order, with repetitions, with
infinities and with what is no number, and so may the queries; a comparison may answer anything.  From
any bracket of the grid, in both directions and for every list of queries:
* there is one bracket for each query, which keeps the two points of the grid at its index;
* both forms give the index of this bracket, and the same quotient of the same two differences;
* the loops of both forms end, having visited the same positions, all of which are brackets of the
  grid; and this is so for every way of reading that gives the points of the grid, be it refused or
  not where there are none, so they look nowhere else. -/
theorem scan_is_safe {old : List α} {start : Int} (h0 : 0 ≤ start) (hlast : start + 2 ≤ old.length)
    (d : Direction) (new : List α) :
    ∃ (bs : List (Bracket α)) (visits : List (List Int)),
      bs.length = new.length ∧ (∀ b ∈ bs, b.IsOf old) ∧
      (∀ visited ∈ visits, ∀ pos ∈ visited, 0 ≤ pos ∧ pos + 2 ≤ old.length) ∧
      (∀ form : Form, scan form.walk old d start new = (bs.zip new).mapM fun (b, x) => do
        return (b.index, ← divide (x - b.lower) (b.upper - b.lower))) ∧
      ∀ read : Int → Except (Fault α) α, (∀ (k : Nat) (x : α), old[k]? = some x → read k = .ok x) →
        ∃ first, bracketAt read start = .ok first ∧ first.index = start ∧ first.IsOf old ∧
          ∀ form : Form, Tour form read old.length d first new visits bs ∧
            brackets form.walk read old.length d first new = .ok bs := by
  obtain ⟨i, rfl⟩ := Int.eq_ofNat_of_zero_le h0
  have hi : i + 2 ≤ old.length := by omega
  let pt : Nat → α := (old.getD · Scalar.zero)
  have hpoints : Reads (pointAt old.toArray) pt old.length := reads_pointAt old Scalar.zero
  obtain ⟨js, hbrackets, hpath⟩ := brackets_bracketOf hpoints d hi new
  obtain ⟨hlen, hall⟩ := hpath.brackets_isOf hi
  obtain ⟨visits, htour⟩ : ∃ visits, Tour .stepping (pointAt old.toArray) old.length d (bracketOf pt i)
      new visits (js.map (bracketOf pt)) := brackets_eq_ok_iff.1 hbrackets
  refine ⟨js.map (bracketOf pt), visits, by rw [List.length_map, hlen], List.forall_mem_map.2 hall,
    htour.bounds h0 hlast, ?_, ?_⟩
  · intro form
    rw [form.walk_eq, scan, bracketAt_eq_ok hpoints hi, Outcome.ok_bind, hbrackets, Outcome.ok_bind,
      fractions_eq_mapM]
  · intro read hread
    have hreads : Reads read pt old.length := by
      intro k hk
      apply hread
      simp [pt, List.getElem?_eq_getElem hk]
    -- Where the grid has points, both ways of reading give them.
    have hagree : ∀ k : Int, 0 ≤ k → k < old.length → read k = pointAt old.toArray k := by
      intro k hk0 hk
      obtain ⟨k, rfl⟩ := Int.eq_ofNat_of_zero_le hk0
      rw [hreads k (by omega), hpoints k (by omega)]
    refine ⟨bracketOf pt i, bracketAt_eq_ok hreads hi, rfl, isOf_bracketOf Scalar.zero hi,
      fun form => ?_⟩
    have hform := (htour.of_form form).congr h0 hlast hagree
    exact ⟨hform, brackets_eq_ok_iff.2 ⟨visits, hform⟩⟩

/-- Doubles out of order, with a repetition, an infinite one and one that is no number. -/
theorem scan_is_safe_disordered :
    let inf : Float := 1 / 0
    let nan : Float := 0 / 0
    let old : List Float := [3, 3, nan, -inf, 0]
    let new : List Float := [inf, -inf, nan]
    ∃ (bs : List (Bracket Float)) (visits : List (List Int)),
      bs.map Bracket.index = [0, 1, 1] ∧ (∀ b ∈ bs, b.IsOf old) ∧
        ∀ form : Form, Tour form (pointAt old.toArray) 5 .descending ⟨1, 3, nan⟩ new visits bs := by
  intro inf nan old new
  obtain ⟨bs, visits, -, hof, -, -, hsafe⟩ :=
    scan_is_safe (show (0 : Int) ≤ 1 by decide) (show 1 + 2 ≤ (old.length : Int) by decide) .descending
      new
  have hread : ∀ (k : Nat) (x : Float), old[k]? = some x → pointAt old.toArray k = .ok x := by
    intro k x hx
    obtain ⟨hk, rfl⟩ := List.getElem?_eq_some_iff.1 hx
    exact (reads_pointAt old 0 k hk).trans (congrArg Except.ok (List.getD_eq_getElem old 0 hk))
  obtain ⟨first, hfirst, -, -, htours⟩ := hsafe (pointAt old.toArray) hread
  obtain rfl : ⟨1, 3, nan⟩ = first := Except.ok.inj hfirst
  have hfound : brackets Walk.stepping (pointAt old.toArray) 5 .descending ⟨1, 3, nan⟩ new = .ok bs :=
    (htours .stepping).2
  have hindices : (brackets Walk.stepping (pointAt old.toArray) 5 .descending ⟨1, 3, nan⟩
      new).toOption.map (List.map Bracket.index) = some [0, 1, 1] := by decide +kernel
  rw [hfound] at hindices
  exact ⟨bs, visits, Option.some.inj hindices, hof, fun form => (htours form).1⟩

end Locate
end Regrid
