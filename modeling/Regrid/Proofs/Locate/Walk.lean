import Regrid.Locate
import Regrid.Proofs.Outcome

/-!
# The way of the bracket

The scan keeps two points beside the index of its bracket, and moves all three by
loops.  Nothing is needed to say what they do but that the grid can be read: the
comparisons may answer anything.  A bracket that is the one at some index of the grid
(`bracketOf`) is moved to the one at another index (`moveTo_bracketOf`), so the cached
points are always those at the index; and how far it is moved is told by the
comparisons alone (`Moves`): it passes the points that the query is beyond, and stops
where it is not, or at an end of the grid.  Along a list of queries the brackets make a
`Path` (`brackets_bracketOf`).

The two forms of the walk are one, so all of this is said of `Walk.stepping`.
-/
namespace Regrid
namespace Locate

variable {α : Type}

/-- The grid can be read: below `n`, every index gives its point. -/
def Reads (read : Int → Except (Fault α) α) (pt : Nat → α) (n : Nat) : Prop :=
  ∀ k < n, read k = .ok (pt k)

/-- **The bracket at an index.** -/
def bracketOf (pt : Nat → α) (k : Nat) : Bracket α := ⟨k, pt k, pt (k + 1)⟩

/-! ## The loops -/

section Loops
variable {read : Int → Except (Fault α) α} {pt : Nat → α} {n : Nat}

theorem Reads.succ (h : Reads read pt n) {k : Nat} (hk : k + 1 < n) :
    read ((k : Int) + 1) = .ok (pt (k + 1)) := by
  have := h (k + 1) hk
  rwa [Nat.cast_succ] at this

/-- Down to the first point that the query is not in front of, or to nought. -/
theorem descend_spec (h : Reads read pt n) (before : α → Bool) {i : Nat} (hi : i < n) :
    ∃ j ≤ i, descend read before i = .ok ((j : Int), pt j) ∧ (j = 0 ∨ before (pt j) = false) ∧
      ∀ k, j < k → k ≤ i → before (pt k) = true := by
  induction i with
  | zero =>
    refine ⟨0, le_rfl, ?_, .inl rfl, fun k hk hk' => absurd hk' (by omega)⟩
    have h0 := h 0 hi
    rw [Nat.cast_zero] at h0
    rw [descend, h0]
    rfl
  | succ i ih =>
    rw [descend, h (i + 1) hi, Outcome.ok_bind]
    by_cases hb : before (pt (i + 1)) = true
    · obtain ⟨j, hj, hrun, hstop, hpassed⟩ := ih (by omega)
      rw [if_pos hb]
      refine ⟨j, by omega, hrun, hstop, fun k hk hk' => ?_⟩
      rcases Nat.le_or_eq_of_le_succ hk' with hle | rfl
      · exact hpassed k hk hle
      · exact hb
    · rw [if_neg hb]
      exact ⟨i + 1, le_rfl, rfl, .inr (by simpa using hb), fun k hk hk' => absurd hk' (by omega)⟩

/-- Up to the first bracket whose upper point the query is not behind, or as far as
there is room. -/
theorem ascend_spec (h : Reads read pt n) (behind : α → Bool) (room : Nat)
    {i : Nat} (hi : i + room + 1 < n) :
    ∃ j, i ≤ j ∧ j ≤ i + room ∧ ascend read behind room i = .ok ((j : Int), pt (j + 1)) ∧
      (j = i + room ∨ behind (pt (j + 1)) = false) ∧
      ∀ k, i < k → k ≤ j → behind (pt k) = true := by
  -- The room shrinks as the index grows, so their sum is the same at every turn.
  induction room generalizing i with
  | zero =>
    refine ⟨i, le_rfl, le_rfl, ?_, .inl rfl, fun k hk hk' => absurd hk' (by omega)⟩
    rw [ascend, h.succ (by omega)]
    rfl
  | succ room ih =>
    rw [ascend, h.succ (by omega), Outcome.ok_bind]
    by_cases hb : behind (pt (i + 1)) = true
    · obtain ⟨j, hj, hj', hrun, hstop, hpassed⟩ := ih (i := i + 1) (by omega)
      rw [if_pos hb]
      refine ⟨j, by omega, by omega, by exact_mod_cast hrun, ?_, fun k hk hk' => ?_⟩
      · exact hstop.imp_left fun he => by omega
      · rcases Nat.eq_or_lt_of_le (Nat.succ_le_of_lt hk) with rfl | hlt
        · exact hb
        · exact hpassed k hlt hk'
    · rw [if_neg hb]
      exact ⟨i, le_rfl, by omega, rfl, .inr (by simpa using hb),
        fun k hk hk' => absurd hk' (by omega)⟩

theorem bracketAt_eq_ok (h : Reads read pt n) {k : Nat} (hk : k + 2 ≤ n) :
    bracketAt read k = .ok (bracketOf pt k) := by
  rw [bracketAt, h k (by omega), h.succ (by omega)]
  rfl

end Loops

/-! ## One query -/

section Queries
variable [Scalar α] {read : Int → Except (Fault α) α} {pt : Nat → α} {n : Nat}

/-- **How one query moves the bracket** from index `i`, on a grid of `n` points. -/
inductive Moves (d : Direction) (pt : Nat → α) (n : Nat) (x : α) (i : Nat) : Nat → Prop
  /-- Down, since the query is in front of the lower points that are passed. -/
  | down {j : Nat} (lt : j < i) (passed : ∀ k, j < k → k ≤ i → precedes d x (pt k) = true)
      (stop : j = 0 ∨ precedes d x (pt j) = false) : Moves d pt n x i j
  /-- Up, since the query is behind the upper points that are passed. -/
  | up {j : Nat} (lt : i < j) (last : j + 2 ≤ n) (front : i = 0 ∨ precedes d x (pt i) = false)
      (passed : ∀ k, i < k → k ≤ j → succeeds d x (pt k) = true)
      (stop : j + 2 = n ∨ succeeds d x (pt (j + 1)) = false) : Moves d pt n x i j
  /-- Not at all, since the bracket holds the query, or the grid has no other one. -/
  | stay (front : i = 0 ∨ precedes d x (pt i) = false)
      (back : i + 2 = n ∨ succeeds d x (pt (i + 1)) = false) : Moves d pt n x i i

theorem Moves.last {d : Direction} {x : α} {i j : Nat} (h : Moves d pt n x i j)
    (hi : i + 2 ≤ n) : j + 2 ≤ n := by
  cases h with
  | down lt => omega
  | up _ last => exact last
  | stay => exact hi

/-- A query in front of the bracket moves it down. -/
theorem moveTo_down (h : Reads read pt n) {d : Direction} {i : Nat} (hi : i + 2 ≤ n) {x : α}
    (hfront : precedes d x (pt i) = true) (hpos : 0 < i) :
    ∃ j, moveTo Walk.stepping read n d (bracketOf pt i) x = .ok (bracketOf pt j) ∧
      Moves d pt n x i j := by
  obtain ⟨j, hj, hrun, hstop, hpassed⟩ := descend_spec h (precedes d x) (i := i - 1) (by omega)
  refine ⟨j, ?_, .down (by omega) (fun k hk hk' => ?_) hstop⟩
  · have hdown : ((i : Int) - 1).toNat = i - 1 := by omega
    rw [moveTo, if_pos (by simpa [bracketOf] using ⟨hfront, hpos⟩)]
    simp only [Walk.stepping, bracketOf, hdown, hrun, Outcome.ok_bind]
    rw [h.succ (by omega)]
    rfl
  · by_cases hki : k = i
    · exact hki ▸ hfront
    · exact hpassed k hk (by omega)

/-- A query behind the bracket moves it up. -/
theorem moveTo_up (h : Reads read pt n) {d : Direction} {i : Nat} {x : α}
    (front : i = 0 ∨ precedes d x (pt i) = false) (hback : succeeds d x (pt (i + 1)) = true)
    (hlast : i + 2 < n) :
    ∃ j, moveTo Walk.stepping read n d (bracketOf pt i) x = .ok (bracketOf pt j) ∧
      Moves d pt n x i j := by
  obtain ⟨j, hj, hj', hrun, hstop, hpassed⟩ :=
    ascend_spec h (succeeds d x) (n - 2 - (i + 1)) (i := i + 1) (by omega)
  refine ⟨j, ?_, .up (by omega) (by omega) front (fun k hk hk' => ?_)
    (hstop.imp_left fun he => by omega)⟩
  · have hroom : ((n : Int) - 2 - (i + 1)).toNat = n - 2 - (i + 1) := by omega
    have hbelow : (i : Int) < n - 2 := by omega
    have hnot : ¬ (precedes d x (pt i) = true ∧ 0 < i) := by
      rintro ⟨hp, hpos⟩
      rcases front with h0 | hnp
      · omega
      · rw [hnp] at hp
        cases hp
    rw [Nat.cast_succ] at hrun
    rw [moveTo, if_neg (by simpa [bracketOf] using hnot), if_pos (by simp [bracketOf, hback, hbelow])]
    simp only [Walk.stepping, bracketOf, hroom, hrun, Outcome.ok_bind]
    rw [h j (by omega)]
    rfl
  · by_cases hki : k = i + 1
    · exact hki ▸ hback
    · exact hpassed k (by omega) hk'

/-- **One query moves a bracket of the grid to a bracket of the grid.** -/
theorem moveTo_bracketOf (h : Reads read pt n) (d : Direction) {i : Nat} (hi : i + 2 ≤ n) (x : α) :
    ∃ j, moveTo Walk.stepping read n d (bracketOf pt i) x = .ok (bracketOf pt j) ∧
      Moves d pt n x i j := by
  by_cases hfront : precedes d x (pt i) = true ∧ 0 < i
  · exact moveTo_down h hi hfront.1 hfront.2
  · have front : i = 0 ∨ precedes d x (pt i) = false := by
      by_cases h0 : i = 0
      · exact .inl h0
      · exact .inr (Bool.eq_false_iff.2 fun hp => hfront ⟨hp, by omega⟩)
    by_cases hback : succeeds d x (pt (i + 1)) = true ∧ i + 2 < n
    · exact moveTo_up h front hback.1 hback.2
    · refine ⟨i, ?_, .stay front ?_⟩
      · rw [moveTo, if_neg (by simpa [bracketOf] using hfront), if_neg]
        · rfl
        · rw [Bool.and_eq_true]
          rintro ⟨hs, hn⟩
          have hbelow : (i : Int) < n - 2 := of_decide_eq_true hn
          exact hback ⟨hs, by omega⟩
      · by_cases hn : i + 2 = n
        · exact .inl hn
        · exact .inr (Bool.eq_false_iff.2 fun hs => hback ⟨hs, by omega⟩)

/-! ## All queries -/

/-- **The way of the bracket along the queries**: from an index, to an index per
query. -/
inductive Path (d : Direction) (pt : Nat → α) (n : Nat) : Nat → List α → List Nat → Prop
  | done (i : Nat) : Path d pt n i [] []
  | step {i j : Nat} {x : α} {xs : List α} {js : List Nat} (move : Moves d pt n x i j)
      (rest : Path d pt n j xs js) : Path d pt n i (x :: xs) (j :: js)

/-- **Along all queries the brackets are brackets of the grid.** -/
theorem brackets_bracketOf (h : Reads read pt n) (d : Direction) {i : Nat} (hi : i + 2 ≤ n)
    (xs : List α) :
    ∃ js, brackets Walk.stepping read n d (bracketOf pt i) xs = .ok (js.map (bracketOf pt)) ∧
      Path d pt n i xs js := by
  induction xs generalizing i with
  | nil => exact ⟨[], rfl, .done i⟩
  | cons x xs ih =>
    obtain ⟨j, hmove, hmoves⟩ := moveTo_bracketOf h d hi x
    obtain ⟨js, hrun, hpath⟩ := ih (hmoves.last hi)
    exact ⟨j :: js, by rw [brackets, hmove, Outcome.ok_bind, hrun]; rfl, .step hmoves hpath⟩

end Queries

/-- The points of a list can be read. -/
theorem reads_pointAt (old : List α) (default : α) :
    Reads (pointAt old.toArray) (old.getD · default) old.length := by
  intro k hk
  rw [pointAt, Outcome.orBadIndex_eq_ok_iff, Index.resolve_of_lt (by omega) (by simpa using hk)]
  simp [List.getElem?_eq_getElem hk]

end Locate
end Regrid
