import Regrid.Proofs.Addresses

/-!
# Arrays by their entries

An array is known by its shape and the row of its entries (`NdArray.ext_toList`), and also by
its shape and the entries at all multi-indices (`NdArray.ext_get?`), since every place of the
row is that of a multi-index (`NdArray.exists_place?`).  An array without a dimension is a
single number.
-/
namespace Regrid
namespace NdArray

variable {α β : Type}

theorem get?_eq_toList (a : NdArray α) (ix : List Nat) :
    a.get? ix = (place? a.shape ix).bind (a.toList[·]?) := by
  simp [get?, toList]

/-! ## When two arrays are one -/

/-- Arrays of one shape that hold the same row of entries are one. -/
theorem ext_toList {a b : NdArray α} (hshape : a.shape = b.shape) (h : a.toList = b.toList) :
    a = b := by
  obtain ⟨s, d, hd⟩ := a
  obtain ⟨s', d', hd'⟩ := b
  have hdata : d = d' := Array.ext' h
  subst hdata
  cases hshape
  rfl

/-- **Every place is that of a multi-index.** -/
theorem exists_place? {shape : List Nat} {r : Nat} (h : r < volume shape) :
    ∃ ix, place? shape ix = some r := by
  induction shape generalizing r with
  | nil =>
    rw [volume_nil] at h
    obtain rfl : r = 0 := by omega
    exact ⟨[], rfl⟩
  | cons n ns ih =>
    rw [volume_cons] at h
    have hpos : 0 < volume ns := by
      rcases Nat.eq_zero_or_pos (volume ns) with h0 | hpos
      · rw [h0] at h
        omega
      · exact hpos
    obtain ⟨is, his⟩ := ih (Nat.mod_lt r hpos)
    refine ⟨r / volume ns :: is, ?_⟩
    rw [place?, if_pos (Nat.div_lt_of_lt_mul (by rwa [Nat.mul_comm])), his, Option.map_some,
      Nat.div_add_mod']

/-- **Arrays of one shape that agree at every multi-index inside it** are one. -/
theorem ext_get? {a b : NdArray α} (hshape : a.shape = b.shape)
    (h : ∀ ix, (place? a.shape ix).isSome → a.get? ix = b.get? ix) : a = b := by
  refine ext_toList hshape (List.ext_getElem? fun r => ?_)
  by_cases hr : r < volume a.shape
  · obtain ⟨ix, hix⟩ := exists_place? hr
    have hget := h ix (by rw [hix]; rfl)
    rwa [get?_eq_toList, get?_eq_toList, ← hshape, hix] at hget
  · rw [List.getElem?_eq_none (by rw [length_toList]; omega),
      List.getElem?_eq_none (by rw [length_toList, ← hshape]; omega)]

/-! ## Functions of the entries -/

@[simp] theorem shape_map (f : α → β) (a : NdArray α) : (a.map f).shape = a.shape := rfl

@[simp] theorem toList_map (f : α → β) (a : NdArray α) : (a.map f).toList = a.toList.map f := by
  simp [map, toList]

theorem get?_map (f : α → β) (a : NdArray α) (ix : List Nat) :
    (a.map f).get? ix = (a.get? ix).map f := by
  rw [get?_eq_toList, get?_eq_toList, shape_map, toList_map]
  cases place? a.shape ix with
  | none => rfl
  | some r => simp

/-! ## Rows and single numbers -/

/-- A row or a single number. -/
theorem rank_le_one_iff {a : NdArray α} : a.rank ≤ 1 ↔ a.shape = [] ∨ ∃ n, a.shape = [n] := by
  unfold rank
  rcases a.shape with _ | ⟨n, _ | ⟨m, ns⟩⟩ <;> simp

theorem map_vector (f : α → β) (xs : List α) : (vector xs).map f = vector (xs.map f) := by
  simp [map, vector]

/-- An array of one dimension has one row. -/
theorem rows_of_shape {a : NdArray α} {n : Nat} (h : a.shape = [n]) : a.rows = [a.toList] := by
  have hlead : a.lead = [] := by rw [lead, h]; rfl
  have hwidth : a.width = a.toList.length := by
    rw [width, h, length_toList, h, volume_singleton]
    rfl
  rw [rows, hlead, hwidth, volume_nil, chunks, chunks, List.take_length]

theorem rows_vector (xs : List α) : (vector xs).rows = [xs] := by
  rw [rows_of_shape (n := xs.length) rfl, toList_vector]

theorem map_toList_vector (xss : List (List α)) : (xss.map vector).map toList = xss := by
  rw [List.map_map]
  exact (List.map_congr_left fun xs _ => toList_vector xs).trans (List.map_id xss)

/-- A row is a row of its entries, if there is not just one of them. -/
theorem eq_vector {a : NdArray α} (h : a.rank ≤ 1) (hlen : a.toList.length ≠ 1) :
    a = vector a.toList := by
  rcases rank_le_one_iff.1 h with hshape | ⟨n, hshape⟩
  · rw [length_toList, hshape] at hlen
    exact absurd rfl hlen
  · refine ext_toList ?_ (toList_vector _).symm
    rw [shape_vector, length_toList, hshape, volume_singleton]

/-- An array without a dimension is a single number. -/
theorem exists_scalar_of_shape {a : NdArray α} (h : a.shape = []) : ∃ x, a = scalar x := by
  have hlen : a.toList.length = 1 := by rw [length_toList, h, volume_nil]
  obtain ⟨x, hx⟩ := List.length_eq_one_iff.1 hlen
  exact ⟨x, ext_toList h hx⟩

theorem exists_scalars_of_shapes {as : List (NdArray α)} (h : ∀ a ∈ as, a.shape = []) :
    ∃ xs : List α, as = xs.map scalar := by
  induction as with
  | nil => exact ⟨[], rfl⟩
  | cons a as ih =>
    obtain ⟨ha, has⟩ := List.forall_mem_cons.1 h
    obtain ⟨x, rfl⟩ := exists_scalar_of_shape ha
    obtain ⟨xs, rfl⟩ := ih has
    exact ⟨x :: xs, rfl⟩

end NdArray
end Regrid
