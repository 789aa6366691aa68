import Regrid.Proofs.Flips
import Regrid.Proofs.Selections

/-!
# Axes in another order

A list `s` that is a permutation of the numbers of the axes puts the axes in another order: on
place `j` there is axis `s[j]`.  Grids, queries and positions are picked in this order, and a field
is transposed (`NdArray.transposed`), which moves every entry to the multi-index picked in this
order (`NdArray.get?_transposed`).

The corners of a cell are renumbered and the factors of their weights change their order, but they
are the same corners with the same weights (`Corner.map_pick_perm`).  So the value in a cell is that
in the cell with its axes in another order (`Cell.value_pick`), of a transposed field
(`Cell.value_transposed`).
-/
namespace Regrid

/-! ## Corners -/

namespace Corner

theorem nodup_offsets (n : Nat) : (offsets n).Nodup := by
  induction n with
  | zero => decide
  | succ n ih =>
    rw [offsets_succ]
    have hcons : ∀ b : Nat, ((offsets n).map (b :: ·)).Nodup := fun b =>
      ih.map (List.cons_injective (a := b))
    refine List.Nodup.append (hcons 0) (hcons 1) ?_
    intro bits h₀ h₁
    obtain ⟨later, -, rfl⟩ := List.mem_map.1 h₀
    obtain ⟨later', -, h⟩ := List.mem_map.1 h₁
    cases h

/-- Every choice of bits is that of a corner. -/
theorem mem_offsets_of {n : Nat} {bits : List Nat} (hlen : bits.length = n)
    (hbits : ∀ b ∈ bits, b = 0 ∨ b = 1) : bits ∈ offsets n := by
  induction n generalizing bits with
  | zero =>
    obtain rfl := List.length_eq_zero_iff.1 hlen
    decide
  | succ n ih =>
    cases bits with
    | nil => cases hlen
    | cons b later =>
      obtain ⟨hb, hlater⟩ := List.forall_mem_cons.1 hbits
      have hmem := ih (Nat.succ.inj hlen) hlater
      rw [offsets_succ, List.mem_append, List.mem_map, List.mem_map]
      rcases hb with rfl | rfl
      · exact .inl ⟨later, hmem, rfl⟩
      · exact .inr ⟨later, hmem, rfl⟩

/-- **The corners renumbered** are the corners. -/
theorem map_pick_perm {n : Nat} {s : List Nat} (hs : s.Perm (List.range n)) :
    ((offsets n).map (Column.pick · s)).Perm (offsets n) := by
  have hinj : ∀ bits ∈ offsets n, ∀ bits' ∈ offsets n,
      Column.pick bits s = Column.pick bits' s → bits = bits' := by
    intro bits hbits bits' hbits' h
    rw [← Column.pick_inverse hs (mem_offsets hbits).1, h,
      Column.pick_inverse hs (mem_offsets hbits').1]
  have hnodup : ((offsets n).map (Column.pick · s)).Nodup := (nodup_offsets n).map_on hinj
  -- Renumbering is one to one and leads to corners, and there are as many of them as before.
  have hsub : (offsets n).map (Column.pick · s) ⊆ offsets n := by
    intro row hrow
    obtain ⟨bits, hbits, rfl⟩ := List.mem_map.1 hrow
    obtain ⟨hlen, hbit⟩ := mem_offsets hbits
    subst hlen
    exact mem_offsets_of (Column.length_pick_of_perm hs) fun b hb => hbit b (Column.mem_of_mem_pick hb)
  exact (List.subperm_of_subset hnodup hsub).perm_of_length_le (by rw [List.length_map])

end Corner

/-! ## Cells -/

namespace Cell

variable {K : Type} [Field K]

/-- **The axes of a cell in another order.** -/
theorem value_pick {ps : List (Position K)} {s : List Nat} (hs : s.Perm (List.range ps.length))
    (f : List Int → K) :
    value (Column.pick ps s) f = value ps fun ix => f (Column.pick ix s) := by
  -- One corner's term: the same entry, and the same factors in another order.
  have hterm : ∀ bits ∈ Corner.offsets ps.length,
      f (corner (Column.pick ps s) (Column.pick bits s)) *
          (List.zipWith Position.factor (Column.pick ps s) (Column.pick bits s)).prod =
        f (Column.pick (corner ps bits) s) * (List.zipWith Position.factor ps bits).prod := by
    intro bits hbits
    have hlen : ps.length = bits.length := (Corner.mem_offsets hbits).1.symm
    have hcount : (List.zipWith Position.factor ps bits).length = ps.length := by
      rw [List.length_zipWith, hlen, min_self]
    rw [corner, corner, ← Column.pick_map, ← Column.pick_zipWith _ hlen,
      ← Column.pick_zipWith _ (by rw [List.length_map, hlen]),
      (Column.pick_perm (by rwa [hcount])).prod_eq]
  rw [← sum_corners, ← sum_corners, Column.length_pick_of_perm hs,
    ← ((Corner.map_pick_perm hs).map _).sum_eq, List.map_map]
  exact congrArg List.sum (List.map_congr_left hterm)

end Cell

/-! ## Fields -/

namespace NdArray

/-- Each index of a multi-index inside a shape is below its extent. -/
theorem place?_isSome_iff_forall₂ {shape ix : List Nat} :
    (place? shape ix).isSome ↔ List.Forall₂ (fun n i => i < n) shape ix := by
  induction shape generalizing ix with
  | nil => cases ix <;> simp [place?]
  | cons n ns ih =>
    cases ix with
    | nil => simp [place?]
    | cons i is => rw [place?_isSome_cons, List.forall₂_cons, ih]

/-- **The array with its axes in another order.** -/
def transposed {α : Type} [Zero α] (a : NdArray α) (s : List Nat) : NdArray α :=
  tabulate (Column.pick a.shape s) fun ix => (a.get? (Column.pick ix (Column.inverse s))).getD 0

variable {α : Type} [Zero α] {a : NdArray α} {s : List Nat}

@[simp] theorem shape_transposed : (a.transposed s).shape = Column.pick a.shape s := rfl

/-- **An entry is moved** to the multi-index in the order of the axes. -/
theorem get?_transposed (hs : s.Perm (List.range a.rank)) {ix : List Nat}
    (h : (place? a.shape ix).isSome) : (a.transposed s).get? (Column.pick ix s) = a.get? ix := by
  have hinside := place?_isSome_iff_forall₂.1 h
  have hpick := place?_isSome_iff_forall₂.2 (Column.forall₂_pick hinside s)
  rw [transposed, get?_tabulate _ hpick, Column.pick_inverse hs hinside.length_eq.symm]
  obtain ⟨v, hv⟩ := Option.isSome_iff_exists.1 ((a.get?_isSome_iff ix).2 h)
  rw [hv]
  rfl

/-- The last axis first: the rows of three become rows of two. -/
example : ((⟨[1, 2, 3], #[1, 2, 3, 4, 5, 6], rfl⟩ : NdArray Int).transposed [2, 0, 1]).toList =
    [1, 4, 2, 5, 3, 6] := by decide

/-- An array is a transposed one if it has the shape for it and every entry where it is
moved. -/
theorem eq_transposed (hs : s.Perm (List.range a.rank)) {b : NdArray α}
    (hshape : b.shape = Column.pick a.shape s)
    (h : ∀ ix, (place? a.shape ix).isSome → b.get? (Column.pick ix s) = a.get? ix) :
    b = a.transposed s := by
  refine ext_get? hshape fun jx hjx => ?_
  rw [hshape] at hjx
  have hinside := place?_isSome_iff_forall₂.1 hjx
  have hlen : jx.length = a.rank := by
    rw [← hinside.length_eq, Column.length_pick_of_perm hs, rank]
  have hback := Column.forall₂_pick hinside (Column.inverse s)
  rw [Column.pick_inverse hs rfl] at hback
  have hsome := place?_isSome_iff_forall₂.2 hback
  rw [← Column.pick_of_inverse hs hlen, h _ hsome, get?_transposed hs hsome]

end NdArray

/-- **In a transposed field** the value in a cell is that with the axes in the order of the
field. -/
theorem Cell.value_transposed {K : Type} [Field K] {a : NdArray K} {ps : List (Position K)}
    (h : List.Forall₂ Sample.Among a.shape ps) {s : List Nat} (hs : s.Perm (List.range a.rank)) :
    value (Column.pick ps s) (a.transposed s).entry = value ps a.entry := by
  rw [value_pick (by rwa [← h.length_eq])]
  refine value_congr h fun ix hix => ?_
  rw [NdArray.entry, ← Column.pick_map,
    NdArray.get?_transposed hs (NdArray.place?_isSome_of_inside hix)]
  rfl

end Regrid
