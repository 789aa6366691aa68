import Regrid.Fault
import Regrid.Index

/-!
# Arrays of several dimensions

A field, a table of weights, a list of queries: all of them are arrays with a
shape.  The entries are kept in one row, the last index running fastest, and the
number of entries is the product of the extents: that is part of the type, so a
shape never speaks of entries that are not there.

An entry is reached by a multi-index, one index per extent.  `get?` takes natural
numbers; `read` takes integers, which may count from the end of an extent, and
refuses those that name nothing; `readNearest` never refuses an index, and takes
the nearest one there is.  On multi-indices inside the shape the three agree
(`read_eq_of_inside`, `readNearest_eq_of_inside`).
-/
namespace Regrid

/-- The number of entries of a shape. -/
def volume : List Nat → Nat
  | [] => 1
  | n :: ns => n * volume ns

@[simp] theorem volume_nil : volume [] = 1 := rfl

@[simp] theorem volume_cons (n : Nat) (ns : List Nat) : volume (n :: ns) = n * volume ns := rfl

theorem volume_singleton (n : Nat) : volume [n] = n := Nat.mul_one n

theorem volume_append (s t : List Nat) : volume (s ++ t) = volume s * volume t := by
  induction s with
  | nil => simp
  | cons n s ih => simp [ih, Nat.mul_assoc]

/-- **An array with a shape**; its entries in a row, the last index fastest. -/
structure NdArray (α : Type) where
  shape : List Nat
  data : Array α
  size_eq : data.size = volume shape

namespace NdArray

variable {α β : Type}

/-! ## Making arrays -/

/-- The array without a dimension that holds one number. -/
def scalar (x : α) : NdArray α := ⟨[], #[x], rfl⟩

/-- The array of one dimension. -/
def vector (xs : List α) : NdArray α := ⟨[xs.length], xs.toArray, by simp⟩

/-- The array of a shape that holds one number everywhere. -/
def replicate (shape : List Nat) (x : α) : NdArray α :=
  ⟨shape, Array.replicate (volume shape) x, by simp⟩

/-- The array of a shape with the given entries, if there are as many as needed. -/
def ofData? (shape : List Nat) (data : Array α) : Option (NdArray α) :=
  if h : data.size = volume shape then some ⟨shape, data, h⟩ else none

/-- The array with a function applied to every entry. -/
def map (f : α → β) (a : NdArray α) : NdArray β := ⟨a.shape, a.data.map f, by simp [a.size_eq]⟩

/-- The array of rows of one length, under leading extents. -/
def ofRows (lead : List Nat) (width : Nat) (rows : List (List α))
    (count : rows.length = volume lead) (widths : ∀ r ∈ rows, r.length = width) : NdArray α where
  shape := lead ++ [width]
  data := rows.flatten.toArray
  size_eq := by
    have h : (rows.map List.length).sum = rows.length * width := by
      clear count
      induction rows with
      | nil => simp
      | cons r rs ih =>
        simp only [List.map_cons, List.sum_cons, List.length_cons, Nat.add_mul, Nat.one_mul]
        rw [ih (fun s hs => widths s (List.mem_cons_of_mem _ hs)),
          widths r (List.mem_cons_self ..)]
        omega
    simp [List.length_flatten, h, count, volume_append]

@[simp] theorem shape_ofRows (lead : List Nat) (width : Nat) (rows : List (List α))
    (count : rows.length = volume lead) (widths : ∀ r ∈ rows, r.length = width) :
    (ofRows lead width rows count widths).shape = lead ++ [width] := rfl

/-! ## Looking into arrays -/

/-- The number of dimensions. -/
def rank (a : NdArray α) : Nat := a.shape.length

/-- The number of entries. -/
def size (a : NdArray α) : Nat := volume a.shape

/-- The entries in a row. -/
def toList (a : NdArray α) : List α := a.data.toList

@[simp] theorem length_toList (a : NdArray α) : a.toList.length = volume a.shape := by
  simp [toList, a.size_eq]

@[simp] theorem toList_vector (xs : List α) : (vector xs).toList = xs := by simp [vector, toList]

@[simp] theorem toList_scalar (x : α) : (scalar x).toList = [x] := rfl

@[simp] theorem toList_ofRows (lead : List Nat) (width : Nat) (rows : List (List α))
    (count : rows.length = volume lead) (widths : ∀ r ∈ rows, r.length = width) :
    (ofRows lead width rows count widths).toList = rows.flatten := by simp [ofRows, toList]

/-- The place of a multi-index in the row, if each index is inside its extent. -/
def place? : List Nat → List Nat → Option Nat
  | [], [] => some 0
  | n :: ns, i :: is => if i < n then (place? ns is).map (i * volume ns + ·) else none
  | _, _ => none

/-- A place is one of the row. -/
theorem place?_lt {shape ix : List Nat} {k : Nat} (h : place? shape ix = some k) :
    k < volume shape := by
  induction shape generalizing ix k with
  | nil => cases ix <;> simp_all [place?]
  | cons n ns ih =>
    cases ix with
    | nil => simp [place?] at h
    | cons i is =>
      simp only [place?] at h
      split at h
      · next hi =>
        obtain ⟨j, hj, rfl⟩ := Option.map_eq_some_iff.1 h
        have hlt := ih hj
        calc i * volume ns + j < i * volume ns + volume ns := by omega
          _ = (i + 1) * volume ns := by rw [Nat.add_mul, Nat.one_mul]
          _ ≤ n * volume ns := Nat.mul_le_mul_right _ hi
      · cases h

/-- **The entry at a multi-index.** -/
def get? (a : NdArray α) (ix : List Nat) : Option α := (place? a.shape ix).bind (a.data[·]?)

/-- A multi-index inside the shape names an entry. -/
theorem get?_isSome_iff (a : NdArray α) (ix : List Nat) :
    (a.get? ix).isSome ↔ (place? a.shape ix).isSome := by
  cases h : place? a.shape ix with
  | none => simp [get?, h]
  | some k =>
    have := place?_lt h
    have hk : k < a.data.size := by rw [a.size_eq]; exact this
    simp [get?, h, hk]

/-- Every index of a multi-index counted from the front, if each names an entry. -/
def resolve : List Nat → List Int → Option (List Nat)
  | [], [] => some []
  | n :: ns, i :: is =>
    (Index.resolve n i).bind fun k => (resolve ns is).map (k :: ·)
  | _, _ => none

/-- **The entry at a multi-index**, whose indices may count from the end. -/
def read (a : NdArray α) (ix : List Int) : Except (Fault α) α :=
  orBadIndex ((resolve a.shape ix).bind a.get?)

/-- **The entry at the nearest multi-index.**  Only an array without entries has
none. -/
def readNearest (a : NdArray α) (ix : List Int) : Except (Fault α) α :=
  orBadIndex (a.get? (List.zipWith Index.nearest a.shape ix))

/-- The single number at a place of the first dimension.  An array of several
dimensions has a block of numbers there, and one without a dimension nothing. -/
def numberAt (a : NdArray α) (place : Nat) : Except (Fault α) α :=
  match a.shape with
  | n :: _ :: _ => .error (if place < n then .wrongType .blockForNumber else .badIndex)
  | [] => .error .badIndex
  | [_] => orBadIndex a.data[place]?

/-- A multi-index inside a shape: as many indices as extents, each of them from
nought to below its extent. -/
def Inside : List Nat → List Int → Prop
  | [], [] => True
  | n :: ns, i :: is => (0 ≤ i ∧ i < n) ∧ Inside ns is
  | _, _ => False

/-- Inside the shape an index stands for itself. -/
theorem resolve_of_inside {shape : List Nat} {ix : List Int} (h : Inside shape ix) :
    resolve shape ix = some (ix.map Int.toNat) := by
  fun_induction Inside shape ix with
  | case1 => rfl
  | case2 n ns i is ih => simp [resolve, Index.resolve_of_lt h.1.1 h.1.2, ih h.2]
  | case3 => exact h.elim

/-- Inside the shape `read` is `get?`. -/
theorem read_eq_of_inside (a : NdArray α) {ix : List Int} (h : Inside a.shape ix) :
    a.read ix = orBadIndex (a.get? (ix.map Int.toNat)) := by
  simp [read, resolve_of_inside h]

theorem zipWith_nearest_of_inside {shape : List Nat} {ix : List Int} (h : Inside shape ix) :
    List.zipWith Index.nearest shape ix = ix.map Int.toNat := by
  fun_induction Inside shape ix with
  | case1 => rfl
  | case2 n ns i is ih => simp [Index.nearest_of_lt h.1.1 h.1.2, ih h.2]
  | case3 => exact h.elim

/-- **Inside the shape the two ways to read agree.** -/
theorem readNearest_eq_of_inside (a : NdArray α) {ix : List Int} (h : Inside a.shape ix) :
    a.readNearest ix = a.read ix := by
  rw [read_eq_of_inside a h, readNearest, zipWith_nearest_of_inside h]

/-! ## The last extent -/

/-- The first `count` runs of `width` entries. -/
def chunks (width : Nat) : Nat → List α → List (List α)
  | 0, _ => []
  | count + 1, xs => xs.take width :: chunks width count (xs.drop width)

@[simp] theorem length_chunks (width count : Nat) (xs : List α) :
    (chunks width count xs).length = count := by
  induction count generalizing xs with
  | zero => rfl
  | succ n ih => simp [chunks, ih]

/-- Cutting undoes joining. -/
theorem chunks_flatten {width : Nat} {rows : List (List α)} (h : ∀ r ∈ rows, r.length = width) :
    chunks width rows.length rows.flatten = rows := by
  induction rows with
  | nil => rfl
  | cons r rs ih =>
    have hr : r.length = width := h r (List.mem_cons_self ..)
    have ht := ih fun s hs => h s (List.mem_cons_of_mem _ hs)
    subst hr
    simp [chunks, ht]

/-- The extents before the last one. -/
def lead (a : NdArray α) : List Nat := a.shape.dropLast

/-- The last extent; one where there is none. -/
def width (a : NdArray α) : Nat := a.shape.getLast?.getD 1

/-- The rows along the last extent, in order.  A number without a dimension is a
row of its own. -/
def rows (a : NdArray α) : List (List α) := chunks a.width (volume a.lead) a.toList

@[simp] theorem length_rows (a : NdArray α) : a.rows.length = volume a.lead := by simp [rows]

/-- Rows in, the same rows out. -/
@[simp] theorem rows_ofRows (lead : List Nat) (width : Nat) (rows : List (List α))
    (count : rows.length = volume lead) (widths : ∀ r ∈ rows, r.length = width) :
    (ofRows lead width rows count widths).rows = rows := by
  simp only [NdArray.rows, NdArray.width, NdArray.lead, shape_ofRows, toList_ofRows,
    List.dropLast_concat, List.getLast?_concat, Option.getD_some, ← count]
  exact chunks_flatten widths

/-- The array of one number per row along the last extent. -/
def reduce (f : List α → α) (a : NdArray α) : NdArray α :=
  ⟨a.lead, (a.rows.map f).toArray, by simp⟩

@[simp] theorem toList_reduce (f : List α → α) (a : NdArray α) :
    (a.reduce f).toList = a.rows.map f := by simp [reduce, toList]

/-! ## Two arrays -/

/-- Two shapes can be stretched to a common one: from the last extent on they
agree, or one of them is one. -/
def canStretch (s t : List Nat) : Bool :=
  (s.reverse.zip t.reverse).all fun p => p.1 == p.2 || p.1 == 1 || p.2 == 1

end NdArray

end Regrid
