import Regrid.Proofs.Sample.Sums
import Regrid.Proofs.Weights.Corners

/-!
# What the checks before sampling let pass

The brackets pass exactly when there is an axis of the field for each column and both
points of every bracket are among the points of that axis (`checkField_eq_ok_iff`); the
checks look at the least and the greatest bracket of an axis only.  With that it is known
what each protocol lets pass (`checkRed_eq_ok_iff`, `checkBlue_eq_ok_iff`,
`checkGreen_eq_ok_iff`).  That the indices of single positions are made machine words takes
nothing away from it (`checkWords_of_checkField`).

Weights that are made for positions have the shape that is asked for, so positions pass
with their own weights as soon as the brackets are on the field and the weights pass the
spot check (`Passing`).  In exact arithmetic that is the case for weights that sum to one
(`SumCheck.run_eq_ok`).
-/
namespace Regrid

theorem Column.map_idx_toList {α : Type} (c : Column α) : c.toList.map Position.idx = c.idx :=
  congrArg Column.idx c.ofPositions_toList

namespace Sample

variable {α : Type}

theorem le_foldl_min_iff {a i : Int} {rest : List Int} :
    a ≤ rest.foldl min i ↔ ∀ j ∈ i :: rest, a ≤ j := by
  induction rest generalizing i with
  | nil => simp
  | cons k rest ih =>
    rw [List.foldl_cons, ih]
    simp only [List.forall_mem_cons, le_min_iff, and_assoc]

theorem foldl_max_le_iff {a i : Int} {rest : List Int} :
    rest.foldl max i ≤ a ↔ ∀ j ∈ i :: rest, j ≤ a := by
  induction rest generalizing i with
  | nil => simp
  | cons k rest ih =>
    rw [List.foldl_cons, ih]
    simp only [List.forall_mem_cons, max_le_iff, and_assoc]

/-- The brackets of one axis pass exactly when both points of each are on the axis. -/
theorem checkAxis_eq_ok_iff {axis size : Nat} {idx : List Int} :
    (checkAxis axis size idx : Except (Fault α) Unit) = .ok () ↔
      ∀ i ∈ idx, 0 ≤ i ∧ i + 2 ≤ size := by
  cases idx with
  | nil => simp [checkAxis]
  | cons i rest =>
    have hfirst := @le_foldl_min_iff 0 i rest
    have hlast := @foldl_max_le_iff ((size : Int) - 2) i rest
    -- Only the least and the greatest bracket are looked at.
    have hpass : (∀ j ∈ i :: rest, 0 ≤ j ∧ j + 2 ≤ (size : Int)) ↔
        ¬ (rest.foldl min i < 0 ∨ (size : Int) ≤ rest.foldl max i + 1) := by
      rw [not_or, not_lt, hfirst, show ¬ (size : Int) ≤ rest.foldl max i + 1 ↔
        rest.foldl max i ≤ (size : Int) - 2 by omega, hlast, ← forall₂_and]
      exact forall₂_congr fun j _ => and_congr_right' (by omega)
    rw [hpass, checkAxis]
    split <;> simp_all

theorem checkAxes_eq_ok_iff {axis : Nat} {shape : List Nat} {idx : List (List Int)}
    (hlen : shape.length = idx.length) :
    (checkAxes axis shape idx : Except (Fault α) Unit) = .ok () ↔
      List.Forall₂ (fun (n : Nat) is => ∀ i ∈ is, 0 ≤ i ∧ i + 2 ≤ (n : Int)) shape idx := by
  induction shape generalizing axis idx with
  | nil =>
    obtain rfl := List.length_eq_zero_iff.1 hlen.symm
    simp [checkAxes]
  | cons n shape ih =>
    cases idx with
    | nil => cases hlen
    | cons is idx =>
      rw [checkAxes, List.forall₂_cons, Outcome.bind_eq_ok_iff]
      have hlater := @ih (axis + 1) idx (Nat.succ.inj hlen)
      constructor
      · rintro ⟨⟨⟩, haxis, haxes⟩
        exact ⟨checkAxis_eq_ok_iff.1 haxis, hlater.1 haxes⟩
      · rintro ⟨haxis, haxes⟩
        exact ⟨(), checkAxis_eq_ok_iff.2 haxis, hlater.2 haxes⟩

/-- **The brackets of all axes pass** exactly when there is an axis for each column, and
both points of every bracket are on its axis. -/
theorem checkField_eq_ok_iff {shape : List Nat} {idx : List (List Int)} :
    (checkField shape idx : Except (Fault α) Unit) = .ok () ↔
      List.Forall₂ (fun (n : Nat) is => ∀ i ∈ is, 0 ≤ i ∧ i + 2 ≤ (n : Int)) shape idx := by
  rw [checkField]
  by_cases hlen : shape.length = idx.length
  · rw [if_neg (not_not.2 hlen), checkAxes_eq_ok_iff hlen]
  · rw [if_pos hlen]
    exact ⟨nofun, fun h => absurd h.length_eq hlen⟩

/-! ## Indices that are machine words -/

theorem checkWords_eq_ok_iff {shape : List Nat} {idx : List Int} :
    (checkWords shape idx : Except (Fault α) Unit) = .ok () ↔ ∀ i ∈ idx, FitsWord shape i := by
  rw [checkWords]
  split <;> simp_all

/-- In a field that a machine can hold, the indices that fit are the machine words. -/
theorem fitsWord_iff {shape : List Nat} (h : ∀ n ∈ shape, n ≤ 2 ^ 63) {i : Int} :
    FitsWord shape i ↔ -2 ^ 63 ≤ i ∧ i < 2 ^ 63 := by
  have hword : (2 : Int) ^ 63 = 0x8000000000000000 := by norm_num
  rw [FitsWord, hword]
  refine and_congr_right' (or_iff_left_of_imp ?_)
  rintro ⟨n, hn, hi⟩
  exact lt_of_lt_of_le hi (by exact_mod_cast h n hn)

/-- **Brackets on the field are machine words.** -/
theorem checkWords_of_checkField {shape : List Nat} {ps : List (Position α)}
    (h : (checkField shape (ps.map fun p => [p.idx]) : Except (Fault α) Unit) = .ok ()) :
    (checkWords shape (ps.map Position.idx) : Except (Fault α) Unit) = .ok () := by
  rw [checkField_eq_ok_iff, List.forall₂_map_right_iff] at h
  refine checkWords_eq_ok_iff.2 (List.forall_mem_map.2 fun p hp => ?_)
  obtain ⟨k, hk, rfl⟩ := List.mem_iff_getElem.1 hp
  have hk' : k < shape.length := h.length_eq ▸ hk
  obtain ⟨h0, hlast⟩ := (List.forall₂_iff_get.1 h).2 k hk' hk _ (List.mem_singleton_self _)
  simp only [List.get_eq_getElem] at h0 hlast
  exact ⟨by omega, .inr ⟨shape[k], List.getElem_mem hk', by omega⟩⟩

/-! ## What each protocol lets pass -/

section Protocols
variable [Scalar α] {weights field : NdArray α} {check : SumCheck α}

theorem checkRed_eq_ok_iff {ps : List (Position α)} :
    checkRed weights field ps check = .ok () ↔ weights.shape = [Corner.count ps.length] ∧
      (checkField field.shape (ps.map fun p => [p.idx]) : Except (Fault α) Unit) = .ok () ∧
        check.run [weights.toList] = .ok () := by
  rw [checkRed, Outcome.guard_eq_ok_iff, not_not]
  simp only [Outcome.check_bind_eq_ok_iff]
  exact and_congr_right' (and_iff_right_of_imp fun h => checkWords_of_checkField h.1)

theorem checkBlue_eq_ok_iff {cs : List (Column α)} (hne : cs ≠ []) :
    checkBlue weights field cs check = .ok () ↔
      (∃ n, (∀ c ∈ cs, c.length = n) ∧ weights.shape = [n, Corner.count cs.length]) ∧
        (checkField field.shape (cs.map Column.idx) : Except (Fault α) Unit) = .ok () ∧
          check.run weights.rows = .ok () := by
  obtain ⟨c, ds, rfl⟩ := List.exists_cons_of_ne_nil hne
  simp only [checkBlue, List.map_cons, List.headD_cons]
  cases hfirst : Weights.firstUneven c.length (c :: ds) with
  | some entry =>
    constructor
    · exact nofun
    · rintro ⟨⟨n, hn, -⟩, -⟩
      have hc : c.length = n := hn c (List.mem_cons_self ..)
      rw [hc, Weights.firstUneven_eq_none hn] at hfirst
      cases hfirst
  | none =>
    have hlen := Weights.length_eq_of_firstUneven hfirst
    simp only [Outcome.guard_eq_ok_iff, not_not]
    refine and_congr ⟨fun h => ⟨_, hlen, h⟩, ?_⟩ Outcome.check_bind_eq_ok_iff
    rintro ⟨n, hn, h⟩
    rw [hn c (List.mem_cons_self ..)]
    exact h

theorem checkGreen_eq_ok_iff {cs : List (Column α)} :
    checkGreen weights field cs check = .ok () ↔
      weights.shape = cs.map Column.length ++ [Corner.count cs.length] ∧
        (checkField field.shape (cs.map Column.idx) : Except (Fault α) Unit) = .ok () ∧
          check.run weights.rows = .ok () := by
  simp only [checkGreen, Outcome.guard_eq_ok_iff, not_not]
  exact and_congr_right' Outcome.check_bind_eq_ok_iff

/-- **Positions pass with their own weights**, given axis by axis: their brackets are on the field,
and the weights of any choice of them pass the spot check. -/
structure Passing (field : NdArray α) (check : SumCheck α) (lists : List (List (Position α))) :
    Prop where
  brackets : (checkField field.shape (lists.map (List.map Position.idx)) :
    Except (Fault α) Unit) = .ok ()
  weights : ∀ pss : List (List (Position α)), (∀ ps ∈ pss, List.Forall₂ (· ∈ ·) ps lists) →
    check.run (pss.map Weights.cornerRow) = .ok ()

namespace Passing

/-- One position per axis passes. -/
theorem checkRed {ps : List (Position α)} (h : Passing field check (ps.map fun p => [p])) :
    checkRed (NdArray.vector (Weights.cornerRow ps)) field ps check = .ok () := by
  have hown : ∀ rs ∈ [ps], List.Forall₂ (· ∈ ·) rs (ps.map fun p => [p]) := by
    intro rs hrs
    rw [List.mem_singleton.1 hrs, List.forall₂_map_right_iff, List.forall₂_same]
    exact fun p _ => List.mem_singleton_self p
  have hbrackets := h.brackets
  rw [List.map_map] at hbrackets
  refine checkRed_eq_ok_iff.2 ⟨by simp [Weights.cornerRow], hbrackets, ?_⟩
  rw [NdArray.toList_vector]
  exact h.weights _ hown

variable {cs : List (Column α)} (h : Passing field check (cs.map Column.toList))
include h

theorem columns :
    (checkField field.shape (cs.map Column.idx) : Except (Fault α) Unit) = .ok () := by
  have hidx : (cs.map Column.toList).map (List.map Position.idx) = cs.map Column.idx := by
    rw [List.map_map]
    exact List.map_congr_left fun c _ => c.map_idx_toList
  rw [← hidx]
  exact h.brackets

/-- A sequence of positions passes. -/
theorem checkBlue (hne : cs ≠ []) {n : Nat} (hlen : ∀ c ∈ cs, c.length = n)
    (hshape : weights.shape = [n, Corner.count cs.length])
    (hrows : weights.rows = (Weights.sideBySide (cs.map Column.toList)).map Weights.cornerRow) :
    checkBlue weights field cs check = .ok () := by
  refine (checkBlue_eq_ok_iff hne).2 ⟨⟨n, hlen, hshape⟩, h.columns, ?_⟩
  rw [hrows]
  exact h.weights _ fun ps hps => Weights.mem_sideBySide (by simpa using hne) hps

/-- A grid of positions passes. -/
theorem checkGreen (hshape : weights.shape = cs.map Column.length ++ [Corner.count cs.length])
    (hrows : weights.rows = (mesh (cs.map Column.toList)).map Weights.cornerRow) :
    checkGreen weights field cs check = .ok () := by
  refine checkGreen_eq_ok_iff.2 ⟨hshape, h.columns, ?_⟩
  rw [hrows]
  exact h.weights _ fun ps hps => mem_mesh.1 hps

end Passing
end Protocols

end Sample

namespace SumCheck

variable {K : Type} [Field K] [LinearOrder K] [FloorRing K] [Elementary K]

/-- **Weights that sum to one pass** the spot check. -/
theorem run_eq_ok {check : SumCheck K} (htolerance : 0 < check.tolerance) {rows : List (List K)}
    (h : ∀ row ∈ rows, row.sum = 1) : check.run rows = .ok () := by
  cases rows with
  | nil => rfl
  | cons row rows =>
    have hsum : Sum.pairwise row = 1 := by
      rw [Sum.pairwise_eq_sum, h row (List.mem_cons_self ..)]
    have hrow : checkRow check.tolerance row = .ok () := by
      simp [checkRow, hsum, Scalar.abs, htolerance, htolerance.le]
    rw [run, hrow, ite_self]

end SumCheck
end Regrid
