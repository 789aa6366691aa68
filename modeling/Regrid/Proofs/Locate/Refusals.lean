import Regrid.Proofs.Grid.Admission
import Regrid.Proofs.Locate.Located
import Regrid.Proofs.Locate.Turns

/-!
# What a location is refused for

A location may be refused for its factor, for its grid, or where a number has no nearest integer or is
divided by nought.  Out of range it is for one reason only: there are limits, and a query is outside of
them (`Backend.limits_of_locate_outOfRange`).  What is located was inside, and its positions are in
brackets of the grid (`Backend.of_locate_eq_ok`).

None of this needs exact arithmetic.  The bracket to start from is cut back to those of the grid
whatever its estimate is (`Locate.startBracket_bounds`), and from one bracket of the grid a scan comes
only to others.
-/
namespace Regrid

open Outcome

variable {α : Type} [Scalar α] {old new : List α} {extpolfac : α}

/-! ## Limits -/

namespace Grid

variable {low high : α}

/-- Queries pass if none of them is outside the limits. -/
theorem checkWithin_eq_ok_iff_inside :
    checkWithin new low high extpolfac = .ok () ↔ ∀ x ∈ new, isOutside low high x = false := by
  rw [← firstWith_eq_none_iff, checkWithin]
  cases firstWith (isOutside low high) new with
  | none => simp
  | some entry => simp

theorem exists_isOutside_of_checkWithin {f : Fault α}
    (h : checkWithin new low high extpolfac = .error f) : ∃ x ∈ new, isOutside low high x = true := by
  by_contra hnone
  have hinside : ∀ x ∈ new, isOutside low high x = false := fun x hx =>
    Bool.eq_false_iff.2 fun hout => hnone ⟨x, hx, hout⟩
  rw [checkWithin_eq_ok_iff_inside.2 hinside] at h
  cases h

theorem limits_failsWithin (grid : List α) (extpolfac : α) :
    FailsWithin [.badIndex] (limits grid extpolfac) := by
  unfold limits
  split
  · exact .ite (fun _ => .of_ok _) fun _ => .of_ok _
  · exact .of_error (List.mem_singleton_self _)

/-- A reference grid has enough points. -/
theorem le_of_checkReference {least : Int} {which : String} {grid : List α} {d : Direction}
    (h : checkReference least which grid = .ok d) : least ≤ grid.length := by
  by_contra hlt
  rw [checkReference_of_lt (not_le.1 hlt)] at h
  cases h

end Grid

/-! ## The bracket to start from -/

theorem divide_failsWithin (x y : α) : FailsWithin [.zeroDivision] (divide x y) :=
  .ite (fun _ => .of_error (List.mem_singleton_self _)) fun _ => .of_ok _

theorem nearestInteger_failsWithin (x : α) :
    FailsWithin [.invalidArgument, .overflow] (nearestInteger x) := by
  unfold nearestInteger
  cases Scalar.nearest x with
  | ok n => exact .of_ok n
  | error e =>
    cases e with
    | nan => exact .of_error (List.mem_cons_self ..)
    | infinite => exact .of_error (List.mem_cons_of_mem _ (List.mem_singleton_self _))

namespace Locate

theorem startBracket_failsWithin (first low high : α) (n : Int) (d : Direction) :
    FailsWithin [.zeroDivision, .invalidArgument, .overflow] (startBracket first low high n d) := by
  refine .bind ?_ fun along _ => .bind ?_ fun _ _ => .of_ok _
  · exact (divide_failsWithin _ _).mono (by decide)
  · exact (nearestInteger_failsWithin _).mono (by decide)

/-- **The estimate is cut back** to the brackets of the grid. -/
theorem startBracket_bounds {first low high : α} {n start : Int} {d : Direction} (hn : 2 ≤ n)
    (h : startBracket first low high n d = .ok start) : 0 ≤ start ∧ start + 2 ≤ n := by
  obtain ⟨along, -, h⟩ := bind_eq_ok_iff.1 h
  obtain ⟨estimate, -, h⟩ := bind_eq_ok_iff.1 h
  obtain rfl : min (max estimate 0) (n - 2) = start := Except.ok.inj h
  omega

/-! ## Grid and queries, checked -/

/-- **What the checks leave** of a grid and queries: a bracket of the grid to start from, and limits
that no query is outside of. -/
structure Prepared (old new : List α) (extpolfac : α) (task : Task α) : Prop where
  points : task.old = old
  queries : task.new = new
  nonneg : 0 ≤ task.start
  last : task.start + 2 ≤ old.length
  inside : ∃ low high, Grid.limits old extpolfac = .ok (low, high) ∧
    ∀ x ∈ new, Grid.isOutside low high x = false

theorem prepared_of_prepare {task : Task α}
    (h : prepare (NdArray.vector old) (NdArray.vector new) extpolfac = .ok task) :
    Prepared old new extpolfac task := by
  unfold prepare at h
  obtain ⟨-, h⟩ := guard_eq_ok_iff.1 h
  simp only [Grid.ofArray_vector, ok_bind] at h
  obtain ⟨d, hreference, h⟩ := bind_eq_ok_iff.1 h
  obtain ⟨⟨low, high⟩, hlimits, h⟩ := bind_eq_ok_iff.1 h
  obtain ⟨_, hcheck, h⟩ := bind_eq_ok_iff.1 h
  have htwo : (2 : Int) ≤ old.length := Grid.le_of_checkReference hreference
  have hinside := Grid.checkWithin_eq_ok_iff_inside.1 hcheck
  cases new with
  | nil =>
    cases h
    exact ⟨rfl, rfl, le_rfl, (zero_add (2 : Int)).trans_le htwo, low, high, hlimits, hinside⟩
  | cons first rest =>
    obtain ⟨start, hstart, h⟩ := bind_eq_ok_iff.1 h
    cases h
    obtain ⟨h0, hlast⟩ := startBracket_bounds htwo hstart
    exact ⟨rfl, rfl, h0, hlast, low, high, hlimits, hinside⟩

/-- Out of range is a query that is outside the limits. -/
theorem limits_of_prepare_outOfRange {cause : RangeFault α}
    (h : prepare (NdArray.vector old) (NdArray.vector new) extpolfac = .error (.outOfRange cause)) :
    ∃ low high, Grid.limits old extpolfac = .ok (low, high) ∧
      ∃ x ∈ new, Grid.isOutside low high x = true := by
  unfold prepare at h
  by_cases hneg : Scalar.lt extpolfac Scalar.zero = true
  · rw [if_pos hneg] at h
    cases h
  rw [if_neg hneg] at h
  simp only [Grid.ofArray_vector, ok_bind] at h
  rcases bind_eq_error_iff.1 h with h | ⟨d, -, h⟩
  · exact absurd h ((Grid.checkReference_failsWithin (le_refl Grid.linearPoints) "" old).ne_outOfRange
      (by decide) cause)
  rcases bind_eq_error_iff.1 h with h | ⟨⟨low, high⟩, hlimits, h⟩
  · exact absurd h ((Grid.limits_failsWithin old extpolfac).ne_outOfRange (by decide) cause)
  rcases bind_eq_error_iff.1 h with h | ⟨-, -, h⟩
  · exact ⟨low, high, hlimits, Grid.exists_isOutside_of_checkWithin h⟩
  -- Behind the check of the limits only the bracket to start from is left.
  cases new with
  | nil => cases h
  | cons first rest =>
    rcases bind_eq_error_iff.1 h with h | ⟨start, -, h⟩
    · exact absurd h ((startBracket_failsWithin _ _ _ _ _).ne_outOfRange (by decide) cause)
    · cases h

/-! ## The scan -/

/-- From a bracket of the grid a scan gives every query its fraction in such a bracket. -/
theorem exists_scan_eq_fractions {start : Int} (h0 : 0 ≤ start) (hlast : start + 2 ≤ old.length)
    (d : Direction) (new : List α) :
    ∃ bs : List (Bracket α), (∀ b ∈ bs, b.IsOf old) ∧
      scan Walk.stepping old d start new = fractions bs new := by
  obtain ⟨i, rfl⟩ := Int.eq_ofNat_of_zero_le h0
  have hi : i + 2 ≤ old.length := by omega
  have hpoints := reads_pointAt old Scalar.zero
  obtain ⟨js, hbrackets, hpath⟩ := brackets_bracketOf hpoints d hi new
  refine ⟨_, List.forall_mem_map.2 (hpath.brackets_isOf hi).2, ?_⟩
  rw [scan, bracketAt_eq_ok hpoints hi, ok_bind, hbrackets, ok_bind]

theorem fractions_failsWithin (bs : List (Bracket α)) (new : List α) :
    FailsWithin [.zeroDivision] (fractions bs new) := by
  rw [fractions_eq_mapM]
  exact .mapM fun _ _ => (divide_failsWithin _ _).bind fun _ _ => .of_ok _

theorem exists_bracket_of_fractions {bs : List (Bracket α)} {found : List (Int × α)}
    (h : fractions bs new = .ok found) : ∀ f ∈ found, ∃ b ∈ bs, f.1 = b.index := by
  induction bs generalizing new found with
  | nil =>
    cases h
    exact nofun
  | cons b bs ih =>
    cases new with
    | nil =>
      cases h
      exact nofun
    | cons x xs =>
      obtain ⟨t, -, h⟩ := bind_eq_ok_iff.1 h
      obtain ⟨rest, hrest, h⟩ := bind_eq_ok_iff.1 h
      cases h
      refine List.forall_mem_cons.2 ⟨⟨b, List.mem_cons_self .., rfl⟩, fun f hf => ?_⟩
      obtain ⟨b', hb', hidx⟩ := ih hrest f hf
      exact ⟨b', List.mem_cons_of_mem _ hb', hidx⟩

/-- A broken tie leaves a bracket of the grid. -/
theorem move_bounds (t : TieBreak) {n : Int} {found : Int × α} (h0 : 0 ≤ found.1)
    (hlast : found.1 + 2 ≤ n) : 0 ≤ (t.move n found).1 ∧ (t.move n found).1 + 2 ≤ n := by
  rcases t.move_cases n found with hmove | ⟨habove, hmove⟩ | ⟨hbelow, hmove⟩
  · rw [hmove]
    exact ⟨h0, hlast⟩
  · rw [hmove]
    omega
  · rw [hmove]
    omega

section Run
variable {task : Task α} (h : Prepared old new extpolfac task) (t : TieBreak)
include h

theorem exists_scan_of_prepared : ∃ bs : List (Bracket α), (∀ b ∈ bs, b.IsOf old) ∧
    scan Walk.stepping task.old task.direction task.start task.new = fractions bs new := by
  rw [h.points, h.queries]
  exact exists_scan_eq_fractions h.nonneg h.last task.direction new

/-- The scan of a task fails only if a grid has points that are not apart. -/
theorem run_failsWithin : FailsWithin [.zeroDivision] (run Walk.stepping (some t) task) := by
  obtain ⟨bs, -, hscan⟩ := exists_scan_of_prepared h
  rw [run, hscan]
  exact .ite (fun _ => .of_ok _) fun _ => (fractions_failsWithin bs new).bind fun _ _ => .of_ok _

theorem brackets_of_run {c : Column α} (hrun : run Walk.stepping (some t) task = .ok c) :
    ∀ p ∈ c.toList, 0 ≤ p.idx ∧ p.idx + 2 ≤ old.length := by
  obtain ⟨bs, hbs, hscan⟩ := exists_scan_of_prepared h
  rw [run, hscan] at hrun
  by_cases hempty : task.new.isEmpty = true
  · rw [if_pos hempty] at hrun
    cases hrun
    exact nofun
  · rw [if_neg hempty] at hrun
    obtain ⟨found, hfound, hmoved⟩ := bind_eq_ok_iff.1 hrun
    obtain rfl : Column.ofFound (found.map (t.move task.old.length)) = c := Except.ok.inj hmoved
    rw [Column.toList_ofFound, List.map_map, List.forall_mem_map]
    intro f hf
    obtain ⟨b, hb, hidx⟩ := exists_bracket_of_fractions hfound f hf
    have hof := hbs b hb
    rw [h.points]
    exact move_bounds t (hidx ▸ hof.nonneg) (hidx ▸ hof.last)

end Run
end Locate

/-! ## All backends -/

namespace Backend

variable {b : Backend} {t : TieBreak}

/-- **A location is out of range** only for a query that is outside the limits. -/
theorem limits_of_locate_outOfRange {cause : RangeFault α}
    (h : b.locate (NdArray.vector old) (NdArray.vector new) extpolfac (some t) =
      .error (.outOfRange cause)) :
    ∃ low high, Grid.limits old extpolfac = .ok (low, high) ∧
      ∃ x ∈ new, Grid.isOutside low high x = true := by
  rw [locate_eq] at h
  rcases bind_eq_error_iff.1 h with h | ⟨task, hprepare, h⟩
  · exact Locate.limits_of_prepare_outOfRange h
  · have hprepared := Locate.prepared_of_prepare hprepare
    exact absurd h ((Locate.run_failsWithin hprepared t).ne_outOfRange (by decide) cause)

/-- **Located queries** are not outside the limits, and their brackets are brackets of the grid. -/
theorem of_locate_eq_ok {c : Column α}
    (h : b.locate (NdArray.vector old) (NdArray.vector new) extpolfac (some t) = .ok c) :
    (∃ low high, Grid.limits old extpolfac = .ok (low, high) ∧
      ∀ x ∈ new, Grid.isOutside low high x = false) ∧
    ∀ p ∈ c.toList, 0 ≤ p.idx ∧ p.idx + 2 ≤ old.length := by
  rw [locate_eq] at h
  obtain ⟨task, hprepare, hrun⟩ := bind_eq_ok_iff.1 h
  have hprepared := Locate.prepared_of_prepare hprepare
  exact ⟨hprepared.inside, Locate.brackets_of_run hprepared t hrun⟩

end Backend
end Regrid
