import Regrid.NdArray
import Regrid.Position

/-!
# Columns of positions

The positions of many values in one grid are kept as two columns, one of indices
and one of pairs of distances, of the same length.  `Column.toList` is the list of
positions that the two columns stand for.  What selects positions, a slice, a list
of places, a mask, selects the same entries from each column; a selection that
would not give a column of pairs is refused, and so are columns of different
lengths.
-/
namespace Regrid

/-- **Positions in two columns.** -/
structure Column (α : Type) where
  idx : List Int
  fd : List (α × α)
  length_eq : fd.length = idx.length

namespace Column

variable {α : Type}

/-! ## Making columns -/

/-- A column from its parts, if they are equally long. -/
def ofParts (idx : List Int) (fd : List (α × α)) : Except (Fault α) (Column α) :=
  if h : fd.length = idx.length then .ok ⟨idx, fd, h⟩
  else .error (.dimensionMismatch (.fractions idx.length [fd.length, 2]))

/-- Neighbours in pairs. -/
def pairs : List α → List (α × α)
  | x :: y :: rest => (x, y) :: pairs rest
  | _ => []

/-- The column of an array of indices and an array of pairs.  The indices may be
laid out in any way; the pairs need two dimensions. -/
def ofArrays (idx : NdArray Int) (fd : NdArray α) : Except (Fault α) (Column α) :=
  match fd.shape with
  | [_, 2] => ofParts idx.toList (pairs fd.toList)
  | shape => .error (.dimensionMismatch (.fractions idx.size shape))

/-- The column without a position. -/
def empty : Column α := ⟨[], [], rfl⟩

/-- The column of a list of positions. -/
def ofPositions (ps : List (Position α)) : Column α :=
  ⟨ps.map Position.idx, ps.map fun p => (p.fraction, p.complement), by simp⟩

/-- The column of indices and fractions, each with the complement it leaves. -/
def ofFractions [Scalar α] (idx : List Int) (fractions : List α) : Except (Fault α) (Column α) :=
  ofParts idx (fractions.map fun x => (x, Scalar.one - x))

/-- The column of indices with their fractions. -/
def ofFound [Scalar α] (found : List (Int × α)) : Column α :=
  ⟨found.map Prod.fst, found.map fun f => (f.2, Scalar.one - f.2), by simp⟩

/-! ## The positions of a column -/

/-- The number of positions. -/
def length (c : Column α) : Nat := c.idx.length

/-- **The list of positions.** -/
def toList (c : Column α) : List (Position α) :=
  List.zipWith (fun i p => ⟨i, p.1, p.2⟩) c.idx c.fd

@[simp] theorem length_toList (c : Column α) : c.toList.length = c.length := by
  simp [toList, length, c.length_eq]

@[simp] theorem toList_ofPositions (ps : List (Position α)) : (ofPositions ps).toList = ps := by
  simp [toList, ofPositions, List.zipWith_map]

/-- Rebuilding a column from its positions changes nothing. -/
theorem ofPositions_toList (c : Column α) : ofPositions c.toList = c := by
  obtain ⟨idx, fd, h⟩ := c
  have key : ∀ (idx : List Int) (fd : List (α × α)), fd.length = idx.length →
      (List.zipWith (fun i p => (⟨i, p.1, p.2⟩ : Position α)) idx fd).map Position.idx = idx ∧
      (List.zipWith (fun i p => (⟨i, p.1, p.2⟩ : Position α)) idx fd).map
        (fun p => (p.fraction, p.complement)) = fd := by
    intro idx
    induction idx with
    | nil => intro fd hfd; simp at hfd; simp [hfd]
    | cons i is ih =>
      intro fd hfd
      cases fd with
      | nil => simp at hfd
      | cons p ps =>
        have := ih ps (by simpa using hfd)
        simp [this.1, this.2]
  have := key idx fd h
  simp [ofPositions, toList, this.1, this.2]

/-- The position at a place, which may be counted from the end. -/
def get (c : Column α) (key : Int) : Except (Fault α) (Position α) :=
  orBadIndex (Index.item? c.toList key)

/-! ## Selections -/

/-- The entries at the given places, in their order; places beyond the end are left
out. -/
def pick {β : Type} (xs : List β) (keys : List Nat) : List β := keys.filterMap (xs[·]?)

theorem length_pick {β γ : Type} (xs : List β) (ys : List γ) (h : ys.length = xs.length)
    (keys : List Nat) : (pick ys keys).length = (pick xs keys).length := by
  induction keys with
  | nil => rfl
  | cons k ks ih =>
    by_cases hk : k < xs.length
    · have hy : k < ys.length := by omega
      simpa [pick, List.filterMap_cons, hk, hy] using ih
    · have hy : ¬ k < ys.length := by omega
      simpa [pick, List.filterMap_cons, hk, hy] using ih

/-- The same entries of both columns. -/
def select (c : Column α) (keys : List Nat) : Column α :=
  ⟨pick c.idx keys, pick c.fd keys, length_pick _ _ c.length_eq keys⟩

/-- The run of positions that a slice names. -/
def slice (c : Column α) (s : Slice) : Except (Fault α) (Column α) :=
  match s.entries c.length with
  | some keys => .ok (c.select keys)
  | none => .error (.invalidArgument .stepZero)

/-- The positions at the given places, each of which may be counted from the end.
Places laid out in two or more dimensions select a block that is no column, and a
place without a dimension selects a position and no column, which is what `get` is
for; both are refused here. -/
def take (c : Column α) (keys : NdArray Int) : Except (Fault α) (Column α) := do
  let places ← keys.toList.mapM fun key => orBadIndex (Index.resolve c.length key)
  if keys.rank = 1 then
    return c.select places
  else
    throw (.dimensionMismatch (.fractions keys.size (keys.shape ++ [2])))

/-- The positions that a mask keeps; it has one entry per position. -/
def filter (c : Column α) (mask : List Bool) : Except (Fault α) (Column α) :=
  if mask.length = c.length then
    .ok (c.select ((mask.zipIdx.filter Prod.fst).map Prod.snd))
  else .error .badIndex

/-! ## What is done to every position -/

section

variable [Scalar α]

/-- The positions as numbers. -/
def fractional (c : Column α) : List α :=
  List.zipWith (fun i p => Scalar.ofInt i + p.1) c.idx c.fd

/-- A pair of distances is beyond repair. -/
def pairDeviates (tolerance : α) (p : α × α) : Bool :=
  Position.isBad tolerance p.1 || Position.isBad tolerance p.2

/-- Noise removed from all positions, unless one of them is beyond repair; the
first such is told. -/
def clamp (tolerance : α) (c : Column α) : Except (Fault α) (Column α) := do
  Position.checkTolerance tolerance
  match c.fd.find? (pairDeviates tolerance) with
  | some p => throw (.outOfRange (.deviates p.1 p.2 tolerance))
  | none =>
    return ⟨c.idx, c.fd.map fun p => (Position.clip p.1, Position.clip p.2), by
      simp [c.length_eq]⟩

/-- Every position moved to the nearer end of its bracket. -/
def snap (c : Column α) : Column α := ofPositions (c.toList.map Position.snap)

/-- The column of the indices and fractions, the complements computed anew. -/
def complemented (c : Column α) : Except (Fault α) (Column α) :=
  ofFractions c.idx (c.fd.map Prod.fst)

/-- The ranges of the positions; the first position without one is refused. -/
def ranges (c : Column α) (upwards : Bool) : Except (Fault α) (List Int) :=
  c.toList.mapM fun p => p.range upwards

/-- Which positions are exactly on grid point `i`. -/
def areAt (c : Column α) (i : Int) : List Bool := c.toList.map fun p => p.isAt i

end

end Column

/-! ## One position or many -/

/-- **A position or a column of them**: what a single value and what several values
are located as. -/
inductive Placement (α : Type) where
  | one (p : Position α)
  | many (c : Column α)

namespace Placement

variable {α : Type}

/-- The single positions, if all are. -/
def singles : List (Placement α) → Option (List (Position α))
  | [] => some []
  | one p :: rest => (singles rest).map (p :: ·)
  | many _ :: _ => none

/-- The columns, if all are. -/
def columns : List (Placement α) → Option (List (Column α))
  | [] => some []
  | many c :: rest => (columns rest).map (c :: ·)
  | one _ :: _ => none

variable [Scalar α]

/-- The position or the positions as numbers. -/
def fractional : Placement α → NdArray α
  | one p => NdArray.scalar p.fractional
  | many c => NdArray.vector c.fractional

/-- Noise removed. -/
def clamp (tolerance : α) : Placement α → Except (Fault α) (Placement α)
  | one p => (p.clamp tolerance).map one
  | many c => (c.clamp tolerance).map many

end Placement

end Regrid
