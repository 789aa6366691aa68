import Mathlib
import Regrid.Sample

/-!
# Addresses

An array keeps its entries in a row, and an entry is reached through its place.  Two
enumerations are tied to places here.  The rows under leading extents stand one behind
the other (`get?_ofRows`), and the mesh of some lists enumerates their choices in the
order of the places of the shape that their lengths span (`getElem?_mesh`).

`entries?` is the choice that a multi-index makes: one entry from each list.
-/
namespace Regrid

namespace NdArray

variable {α : Type}

/-! ## Rows under leading extents -/

theorem place?_concat (lead ix : List Nat) (width c : Nat) :
    place? (lead ++ [width]) (ix ++ [c]) =
      (place? lead ix).bind fun r => if c < width then some (r * width + c) else none := by
  induction lead generalizing ix with
  | nil =>
    cases ix with
    | nil => by_cases h : c < width <;> simp [place?, h]
    | cons i is => cases is <;> simp [place?]
  | cons n ns ih =>
    cases ix with
    | nil => cases ns <;> simp [place?]
    | cons i is =>
      by_cases hi : i < n
      · simp only [List.cons_append, place?, hi, if_true, ih, volume_append,
          volume_singleton]
        cases place? ns is with
        | none => rfl
        | some r =>
          by_cases hc : c < width
          · simp [hc, Nat.add_mul, Nat.mul_assoc, Nat.add_assoc]
          · simp [hc]
      · simp [place?, hi]

/-- Rows of one length, one behind the other: the entry in column `c` of row `r`. -/
theorem getElem?_flatten {rows : List (List α)} {width : Nat}
    (widths : ∀ r ∈ rows, r.length = width) (r : Nat) {c : Nat} (hc : c < width) :
    rows.flatten[r * width + c]? = rows[r]?.bind (·[c]?) := by
  induction rows generalizing r with
  | nil => simp
  | cons row rest ih =>
    have hrow : row.length = width := widths row (List.mem_cons_self ..)
    rw [List.flatten_cons]
    cases r with
    | zero => rw [Nat.zero_mul, Nat.zero_add, List.getElem?_append_left (by omega)]; rfl
    | succ r =>
      have hle : row.length ≤ (r + 1) * width + c := by rw [Nat.add_mul]; omega
      have heq : (r + 1) * width + c - row.length = r * width + c := by
        rw [Nat.add_mul]; omega
      rw [List.getElem?_append_right hle, heq, ih (fun s hs => widths s (List.mem_cons_of_mem _ hs))]
      rfl

/-- **The entry in a column of a row** of an array that was made of rows. -/
theorem get?_ofRows (lead : List Nat) (width : Nat) (rows : List (List α))
    (count : rows.length = volume lead) (widths : ∀ r ∈ rows, r.length = width)
    (ix : List Nat) (c : Nat) :
    (ofRows lead width rows count widths).get? (ix ++ [c]) =
      ((place? lead ix).bind (rows[·]?)).bind (·[c]?) := by
  simp only [get?, shape_ofRows, place?_concat]
  cases hr : place? lead ix with
  | none => rfl
  | some r =>
    by_cases hc : c < width
    · simp only [Option.bind_some, hc, if_true]
      rw [← getElem?_flatten widths r hc]
      simp [ofRows]
    · have hnone : ∀ row, rows[r]? = some row → row[c]? = none := fun row hrow => by
        have := widths row (List.mem_of_getElem? hrow)
        rw [List.getElem?_eq_none_iff]
        omega
      cases hrow : rows[r]? with
      | none => simp [hc, hrow]
      | some row => simp [hc, hrow, hnone row hrow]

@[simp] theorem shape_vector (xs : List α) : (vector xs).shape = [xs.length] := rfl

theorem get?_vector (xs : List α) (i : Nat) : (vector xs).get? [i] = xs[i]? := by
  by_cases hi : i < xs.length <;> simp [get?, vector, place?, hi]

/-! ## The shape of some lists -/

theorem place?_isSome_cons {n i : Nat} {ns is : List Nat} :
    (place? (n :: ns) (i :: is)).isSome ↔ i < n ∧ (place? ns is).isSome := by
  by_cases h : i < n <;> simp [place?, h]

end NdArray

namespace Sample

variable {β : Type}

/-- **One entry from each list**, at the places of a multi-index. -/
def entries? : List (List β) → List Nat → Option (List β)
  | [], [] => some []
  | xs :: rest, i :: is => xs[i]?.bind fun x => (entries? rest is).map (x :: ·)
  | _, _ => none

theorem entries?_cons_eq_some_iff {xs : List β} {rest : List (List β)} {i : Nat} {is : List Nat}
    {ys : List β} :
    entries? (xs :: rest) (i :: is) = some ys ↔
      ∃ y zs, xs[i]? = some y ∧ entries? rest is = some zs ∧ y :: zs = ys := by
  simp [entries?, Option.bind_eq_some_iff]

/-- A multi-index makes a choice exactly when it is inside the shape of the lists. -/
theorem entries?_isSome_iff (lists : List (List β)) (ix : List Nat) :
    (entries? lists ix).isSome ↔ (NdArray.place? (lists.map List.length) ix).isSome := by
  induction lists generalizing ix with
  | nil => cases ix <;> simp [entries?, NdArray.place?]
  | cons xs rest ih =>
    cases ix with
    | nil => simp [entries?, NdArray.place?]
    | cons i is =>
      rw [List.map_cons, NdArray.place?_isSome_cons, ← ih is]
      by_cases hi : i < xs.length
      · simp [entries?, hi]
      · simp [entries?, hi]

/-- **The mesh is in the order of places**: behind the place of a multi-index stands the
choice that the multi-index makes. -/
theorem getElem?_mesh {lists : List (List β)} {ix : List Nat} {r : Nat}
    (h : NdArray.place? (lists.map List.length) ix = some r) :
    (mesh lists)[r]? = entries? lists ix := by
  induction lists generalizing ix r with
  | nil =>
    cases ix with
    | nil => cases h; rfl
    | cons i is => simp [NdArray.place?] at h
  | cons xs rest ih =>
    cases ix with
    | nil => simp [NdArray.place?] at h
    | cons i is =>
      simp only [List.map_cons, NdArray.place?] at h
      split at h
      · next hi =>
        obtain ⟨q, hq, rfl⟩ := Option.map_eq_some_iff.1 h
        have hlt : q < volume (rest.map List.length) := NdArray.place?_lt hq
        have hwidth : ∀ row ∈ xs.map fun x => (mesh rest).map (x :: ·),
            row.length = volume (rest.map List.length) := by
          intro row hrow
          obtain ⟨x, -, rfl⟩ := List.mem_map.1 hrow
          rw [List.length_map, length_mesh]
        rw [mesh, List.flatMap_def, NdArray.getElem?_flatten hwidth i hlt, entries?, ← ih hq]
        simp only [List.getElem?_map]
        cases xs[i]? with
        | none => rfl
        | some x => simp
      · cases h

/-- The entries at one place of all lists stand side by side. -/
theorem getElem?_sideBySide {lists : List (List β)} (hne : lists ≠ []) {i : Nat} {ys : List β} :
    (Weights.sideBySide lists)[i]? = some ys ↔
      List.Forall₂ (fun (xs : List β) y => xs[i]? = some y) lists ys := by
  induction lists generalizing ys with
  | nil => exact absurd rfl hne
  | cons xs rest ih =>
    cases rest with
    | nil =>
      simp only [Weights.sideBySide, List.getElem?_map, Option.map_eq_some_iff,
        List.forall₂_cons_left_iff, List.forall₂_nil_left_iff]
      constructor
      · rintro ⟨y, hy, rfl⟩
        exact ⟨y, [], hy, rfl, rfl⟩
      · rintro ⟨y, zs, hy, rfl, rfl⟩
        exact ⟨y, hy, rfl⟩
    | cons xs' rest =>
      rw [Weights.sideBySide, List.getElem?_zipWith_eq_some, List.forall₂_cons_left_iff]
      · constructor
        · rintro ⟨y, zs, hy, hzs, rfl⟩
          exact ⟨y, zs, hy, (ih (List.cons_ne_nil _ _)).1 hzs, rfl⟩
        · rintro ⟨y, zs, hy, hzs, rfl⟩
          exact ⟨y, zs, hy, (ih (List.cons_ne_nil _ _)).2 hzs, rfl⟩
      · exact List.cons_ne_nil _ _

end Sample
end Regrid
