import Regrid.Index
import Regrid.Proofs.Selections

/-!
# Slices of lists

A slice names entries by their places in a row, which it computes from its bounds.  What it takes out
of a list can be said without places (`Slice.ofList`): what is left of the list when it is cut at both
bounds, from the end on if the step is negative, and of this every so many entries.  Cutting a list
takes no notice of bounds beyond its ends, so they need not be cut back; a slice that cuts them back
names just these entries (`Slice.pick_entries`).
-/
namespace Regrid
namespace Slice

variable {β : Type}

/-- Every entry number `m` of a list, the first `skip` of them left out. -/
def strided (m : Nat) : Nat → List β → List β
  | _, [] => []
  | 0, x :: xs => x :: strided m (m - 1) xs
  | skip + 1, _ :: xs => strided m skip xs

/-- A bound of a slice, counted from the front, for a list of `n`. -/
def fromFront (n : Nat) (i : Int) : Int := if i < 0 then i + n else i

/-- **What a slice takes out of a list**; nothing is taken with a step of nought. -/
def ofList (s : Slice) (xs : List β) : Option (List β) :=
  let step := s.step.getD 1
  let start := s.start.map (fromFront xs.length)
  let stop := s.stop.map (fromFront xs.length)
  if step = 0 then none
  else if 0 < step then
    some (strided step.toNat 0
      ((xs.take (stop.getD xs.length).toNat).drop (start.getD 0).toNat))
  else
    some (strided (-step).toNat 0
      ((xs.take (start.getD (xs.length - 1) + 1).toNat).drop (stop.getD (-1) + 1).toNat).reverse)

/-! ## Steps -/

theorem getElem?_strided {m : Nat} (hm : 0 < m) (skip : Nat) (xs : List β) (j : Nat) :
    (strided m skip xs)[j]? = xs[skip + j * m]? := by
  induction xs generalizing skip j with
  | nil => cases skip <;> simp [strided]
  | cons x xs ih =>
    cases skip with
    | zero =>
      cases j with
      | zero => simp [strided]
      | succ j =>
        have hplace : 0 + (j + 1) * m = (m - 1 + j * m) + 1 := by
          rw [Nat.succ_mul]
          omega
        rw [strided, List.getElem?_cons_succ, ih, hplace, List.getElem?_cons_succ]
    | succ skip =>
      have hplace : skip + 1 + j * m = (skip + j * m) + 1 := by omega
      rw [strided, ih, hplace, List.getElem?_cons_succ]

/-- As long as a step goes upwards, the entries stay in front of the stop. -/
theorem lt_count_iff_upwards {start stop step : Int} (hstep : 0 < step) (k : Nat) :
    k < count start stop step ↔ start + k * step < stop := by
  rw [count, if_pos hstep, Int.lt_toNat, ← Int.add_one_le_iff, Int.le_ediv_iff_mul_le hstep,
    Int.add_mul]
  omega

theorem lt_count_iff_downwards {start stop step : Int} (hstep : step < 0) (k : Nat) :
    k < count start stop step ↔ stop < start + k * step := by
  rw [count, if_neg (by omega), Int.lt_toNat, ← Int.add_one_le_iff,
    Int.le_ediv_iff_mul_le (by omega), Int.add_mul, Int.mul_neg]
  omega

/-- Places at equal distances pick every so many entries of a run of a list. -/
theorem pick_eq_strided {xs run : List β} {start step : Int} {m count : Nat} (hm : 0 < m)
    (hcount : ∀ k : Nat, k < count ↔ k * m < run.length)
    (hrun : ∀ k : Nat, k * m < run.length → xs[(start + k * step).toNat]? = run[k * m]?) :
    Column.pick xs ((List.range count).map fun (k : Nat) => (start + (k : Int) * step).toNat) =
      strided m 0 run := by
  have hplaces : ∀ k ∈ (List.range count).map fun (k : Nat) => (start + (k : Int) * step).toNat,
      k < xs.length := by
    intro place hplace
    obtain ⟨k, hk, rfl⟩ := List.mem_map.1 hplace
    have hinside := (hcount k).1 (List.mem_range.1 hk)
    have hsome := hrun k hinside
    rw [List.getElem?_eq_getElem hinside] at hsome
    exact (List.getElem?_eq_some_iff.1 hsome).1
  refine List.ext_getElem? fun k => ?_
  rw [Column.getElem?_pick hplaces, getElem?_strided hm, Nat.zero_add, List.getElem?_map]
  by_cases hk : k < count
  · rw [List.getElem?_range hk]
    exact hrun k ((hcount k).1 hk)
  · rw [List.getElem?_eq_none (by simpa using hk),
      List.getElem?_eq_none (not_lt.1 (mt (hcount k).2 hk))]
    rfl

/-! ## Bounds -/

/-- A bound that is cut back to a list of `n`; a slice that goes downwards may stop in front of the
first entry, and one that goes upwards behind the last. -/
def cutBack (n : Nat) (backwards : Bool) (i : Int) : Int :=
  if backwards then min (max i (-1)) (n - 1) else min (max i 0) n

theorem bound_eq (n : Nat) (backwards : Bool) (i : Int) :
    bound n backwards i = cutBack n backwards (fromFront n i) := by
  unfold bound cutBack fromFront
  by_cases hi : i < 0
  · rw [if_pos hi, if_pos hi]
    cases backwards with
    | false =>
      simp only [Bool.false_eq_true, if_false]
      omega
    | true =>
      simp only [if_true]
      omega
  · rw [if_neg hi, if_neg hi]
    cases backwards with
    | false =>
      simp only [Bool.false_eq_true, if_false]
      omega
    | true =>
      simp only [if_true]
      omega

/-- A bound that is left out stands for one that need not be cut back. -/
theorem getD_bound {n : Nat} {backwards : Bool} (i : Option Int) {e : Int}
    (he : cutBack n backwards e = e) :
    (i.map (bound n backwards)).getD e = cutBack n backwards ((i.map (fromFront n)).getD e) := by
  cases i with
  | none => exact he.symm
  | some i => exact bound_eq n backwards i

theorem bounds_upwards (s : Slice) (n : Nat) : s.bounds n false =
    (cutBack n false ((s.start.map (fromFront n)).getD 0),
      cutBack n false ((s.stop.map (fromFront n)).getD n)) := by
  have hfirst : min (max 0 0) (n : Int) = 0 := by omega
  have hpast : min (max (n : Int) 0) n = n := by omega
  exact Prod.ext (getD_bound s.start hfirst) (getD_bound s.stop hpast)

theorem bounds_downwards (s : Slice) (n : Nat) : s.bounds n true =
    (cutBack n true ((s.start.map (fromFront n)).getD (n - 1)),
      cutBack n true ((s.stop.map (fromFront n)).getD (-1))) := by
  have hfirst : min (max ((n : Int) - 1) (-1)) (n - 1) = n - 1 := by omega
  have hpast : min (max (-1) (-1)) ((n : Int) - 1) = -1 := by omega
  exact Prod.ext (getD_bound s.start hfirst) (getD_bound s.stop hpast)

/-! ## Entries -/

theorem pick_upwards (xs : List β) (start stop : Int) {step : Int} (hstep : 0 < step) :
    Column.pick xs ((List.range (count (cutBack xs.length false start)
      (cutBack xs.length false stop) step)).map fun (k : Nat) =>
        (cutBack xs.length false start + (k : Int) * step).toNat) =
      strided step.toNat 0 ((xs.take stop.toNat).drop start.toNat) := by
  obtain ⟨m, rfl⟩ := Int.eq_ofNat_of_zero_le hstep.le
  simp only [cutBack, Bool.false_eq_true, if_false]
  have hlength : ((xs.take stop.toNat).drop start.toNat).length =
      min stop.toNat xs.length - start.toNat := by
    rw [List.length_drop, List.length_take]
  refine pick_eq_strided (by omega) (fun k => ?_) fun k hk => ?_
  · rw [lt_count_iff_upwards hstep, hlength, Int.toNat_natCast]
    have hcast : ((k * m : Nat) : Int) = (k : Int) * (m : Int) := Nat.cast_mul k m
    omega
  · rw [hlength, Int.toNat_natCast] at hk
    have hcast : ((k * m : Nat) : Int) = (k : Int) * (m : Int) := Nat.cast_mul k m
    have hplace : (min (max start 0) (xs.length : Int) + (k : Int) * (m : Int)).toNat =
        start.toNat + k * m := by omega
    rw [hplace, Int.toNat_natCast, List.getElem?_drop, List.getElem?_take_of_lt (by omega)]

theorem pick_downwards (xs : List β) (start stop : Int) {step : Int} (hstep : step < 0) :
    Column.pick xs ((List.range (count (cutBack xs.length true start)
      (cutBack xs.length true stop) step)).map fun (k : Nat) =>
        (cutBack xs.length true start + (k : Int) * step).toNat) =
      strided (-step).toNat 0 ((xs.take (start + 1).toNat).drop (stop + 1).toNat).reverse := by
  obtain ⟨m, hm⟩ := Int.eq_ofNat_of_zero_le (show 0 ≤ -step by omega)
  obtain rfl : step = -m := by omega
  simp only [cutBack, if_true]
  have hlength : ((xs.take (start + 1).toNat).drop (stop + 1).toNat).length =
      min (start + 1).toNat xs.length - (stop + 1).toNat := by
    rw [List.length_drop, List.length_take]
  refine pick_eq_strided (by omega) (fun k => ?_) fun k hk => ?_
  · rw [lt_count_iff_downwards hstep, List.length_reverse, hlength, neg_neg, Int.toNat_natCast]
    have hcast : ((k * m : Nat) : Int) = (k : Int) * (m : Int) := Nat.cast_mul k m
    rw [Int.mul_neg]
    omega
  · rw [List.length_reverse, neg_neg, Int.toNat_natCast] at hk
    have hcast : ((k * m : Nat) : Int) = (k : Int) * (m : Int) := Nat.cast_mul k m
    rw [neg_neg, Int.toNat_natCast, List.getElem?_reverse hk]
    rw [hlength] at hk ⊢
    have hplace : (min (max start (-1)) ((xs.length : Int) - 1) + (k : Int) * -(m : Int)).toNat =
        (stop + 1).toNat + (min (start + 1).toNat xs.length - (stop + 1).toNat - 1 - k * m) := by
      rw [Int.mul_neg]
      omega
    rw [hplace, List.getElem?_drop, List.getElem?_take_of_lt (by omega)]

/-- **The entries that a slice names** are what it takes out of a list. -/
theorem pick_entries (s : Slice) (xs : List β) :
    (s.entries xs.length).map (Column.pick xs) = s.ofList xs := by
  unfold entries ofList
  by_cases hzero : s.step.getD 1 = 0
  · simp only [hzero, if_true]
    rfl
  · by_cases hpos : 0 < s.step.getD 1
    · have hup : decide (s.step.getD 1 < 0) = false := decide_eq_false (by omega)
      simp only [hzero, hpos, hup, if_false, if_true, bounds_upwards, Option.map_some]
      exact congrArg some (pick_upwards xs _ _ hpos)
    · have hneg : s.step.getD 1 < 0 := by omega
      have hdown : decide (s.step.getD 1 < 0) = true := decide_eq_true hneg
      simp only [hzero, hpos, hdown, if_false, bounds_downwards, Option.map_some]
      exact congrArg some (pick_downwards xs _ _ hneg)

end Slice
end Regrid
