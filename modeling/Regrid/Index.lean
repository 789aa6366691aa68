/-!
# Indices

An index into a row of `n` entries is an integer: from nought it counts from the
front, below nought from the end, so that `-1` names the last entry.
`Index.resolve` finds the entry, if there is one.  A **slice** names a run of
entries by a start, a stop and a step, each of which may be left out; ends beyond
the row are cut back to it, so only a step of nought is refused.
-/
namespace Regrid

namespace Index

/-- **The entry that an index names**, counted from the front. -/
def resolve (n : Nat) (i : Int) : Option Nat :=
  if 0 ≤ i then
    if i < n then some i.toNat else none
  else if 0 ≤ i + n then some (i + n).toNat else none

/-- The entry nearest to the one that an index names, counted from the front. -/
def nearest (n : Nat) (i : Int) : Nat :=
  min (if 0 ≤ i then i else i + n).toNat (n - 1)

theorem resolve_lt {n : Nat} {i : Int} {k : Nat} (h : resolve n i = some k) : k < n := by
  unfold resolve at h
  split at h
  · split at h
    · cases h; omega
    · cases h
  · split at h
    · cases h; omega
    · cases h

theorem resolve_of_lt {n : Nat} {i : Int} (h₀ : 0 ≤ i) (h : i < n) :
    resolve n i = some i.toNat := by
  simp [resolve, h₀, h]

/-- An index names an entry exactly when it lies within `n` places of nought on
its side. -/
theorem resolve_isSome_iff {n : Nat} {i : Int} :
    (resolve n i).isSome ↔ -(n : Int) ≤ i ∧ i < n := by
  unfold resolve
  repeat' split
  all_goals simp
  all_goals omega

/-- Inside the row the nearest entry is the entry itself. -/
theorem nearest_of_lt {n : Nat} {i : Int} (h₀ : 0 ≤ i) (h : i < n) : nearest n i = i.toNat := by
  simp only [nearest, h₀, if_true]; omega

/-- The entry of a row that an index names. -/
def item? {β : Type} (row : List β) (i : Int) : Option β := (resolve row.length i).bind (row[·]?)

/-- An index inside the row names the entry it counts. -/
theorem item?_of_lt {β : Type} {row : List β} {i : Int} (h₀ : 0 ≤ i) (h : i < row.length) :
    item? row i = row[i.toNat]? := by
  simp [item?, resolve_of_lt h₀ h]

end Index

/-! ## Slices -/

/-- **A run of entries**; what is left out is an end of the row, and the step one. -/
structure Slice where
  start : Option Int
  stop : Option Int
  step : Option Int
deriving DecidableEq, Repr

namespace Slice

/-- A bound of a slice of a row of `n`, counted from the front and cut back to the
row.  A slice that runs backwards may stop in front of the first entry. -/
def bound (n : Nat) (backwards : Bool) (i : Int) : Int :=
  let low : Int := if backwards then -1 else 0
  let high : Int := if backwards then (n : Int) - 1 else n
  if i < 0 then max (i + n) low else min i high

/-- The first entry of a slice and the one it stops in front of. -/
def bounds (s : Slice) (n : Nat) (backwards : Bool) : Int × Int :=
  let first : Int := if backwards then (n : Int) - 1 else 0
  let past : Int := if backwards then -1 else n
  ((s.start.map (bound n backwards)).getD first, (s.stop.map (bound n backwards)).getD past)

/-- The number of steps of length `step` from `start` that stay in front of `stop`. -/
def count (start stop step : Int) : Nat :=
  if 0 < step then ((stop - start + step - 1) / step).toNat
  else ((start - stop - step - 1) / (-step)).toNat

/-- The entries of a row of `n` that a slice names, in its order; nothing for a
step of nought. -/
def entries (s : Slice) (n : Nat) : Option (List Nat) :=
  let step := s.step.getD 1
  if step = 0 then none
  else
    let (start, stop) := s.bounds n (decide (step < 0))
    some ((List.range (count start stop step)).map fun (k : Nat) =>
      (start + (k : Int) * step).toNat)

/-- A slice that is left blank names the whole row. -/
example : entries ⟨none, none, none⟩ 4 = some [0, 1, 2, 3] := by decide

/-- Backwards from the end, every second entry. -/
example : entries ⟨none, none, some (-2)⟩ 5 = some [4, 2, 0] := by decide

/-- Ends beyond the row are cut back to it. -/
example : entries ⟨some (-15), some 11, some 3⟩ 8 = some [0, 3, 6] := by decide

/-- An empty run is not refused, a step of nought is. -/
example : entries ⟨some 3, some 2, none⟩ 5 = some [] ∧ entries ⟨none, none, some 0⟩ 5 = none := by
  decide

end Slice

end Regrid
