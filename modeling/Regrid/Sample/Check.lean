import Regrid.Weights

/-!
# Checks before sampling

Before a field is sampled, weights, positions and field are held against each
other: the weights have the shape that the positions call for, the field has one
dimension per axis, and no bracket reaches beyond it.  On request the first row of
weights is summed, as a spot check that the weights belong to the positions.

The indices of a column are machine words already.  Those of single positions may be
any integers; they are made machine words before they are held against the field, and
one that does not fit is refused there.
-/
namespace Regrid

/-- **The spot check of the weights**: whether it is made, and how far from one the
sum may be. -/
structure SumCheck (α : Type) where
  enabled : Bool
  tolerance : α
deriving Repr

namespace SumCheck

variable {α : Type} [Scalar α]

/-- One part in a million is allowed where nothing else is asked for. -/
def defaultTolerance : α := Scalar.reciprocal 1000000

/-- A row of weights sums to one, up to the tolerance; a tolerance is a positive
number. -/
def checkRow (tolerance : α) (row : List α) : Except (Fault α) Unit :=
  if ¬ Scalar.isFinite tolerance ∨ Scalar.le tolerance Scalar.zero then
    .error (.invalidArgument (.sumTolerance tolerance))
  else
    let total := Sum.pairwise row
    if Scalar.le (Scalar.abs (total - Scalar.one)) tolerance then .ok ()
    else .error (.invalidWeights total tolerance)

/-- The sum of the first row, if there is a row and the check is wanted. -/
def run (check : SumCheck α) : List (List α) → Except (Fault α) Unit
  | row :: _ => if check.enabled then checkRow check.tolerance row else .ok ()
  | [] => .ok ()

end SumCheck

namespace Sample

variable {α : Type} [Scalar α]

omit [Scalar α] in
/-- The brackets of one axis are among its `size` points.  Without a bracket there is
nothing to check. -/
def checkAxis (axis size : Nat) : List Int → Except (Fault α) Unit
  | [] => .ok ()
  | i :: rest =>
    let first := rest.foldl min i
    let last := rest.foldl max i
    if first < 0 ∨ (size : Int) ≤ last + 1 then
      .error (.dimensionMismatch (.outsideField axis first (last + 1) size))
    else .ok ()

omit [Scalar α] in
/-- The brackets of the axes from `axis` on are among the points of the field. -/
def checkAxes : Nat → List Nat → List (List Int) → Except (Fault α) Unit
  | axis, size :: sizes, idx :: rest => do
    checkAxis axis size idx
    checkAxes (axis + 1) sizes rest
  | _, _, _ => .ok ()

omit [Scalar α] in
/-- The field has a dimension per axis, and no bracket reaches beyond it. -/
def checkField (shape : List Nat) (idx : List (List Int)) : Except (Fault α) Unit :=
  if shape.length ≠ idx.length then
    .error (.dimensionMismatch (.fieldRank shape.length idx.length))
  else checkAxes 0 shape idx

/-- An index fits a machine word of sixty-four bits.  In a machine those of the
points of a field do; here a field may have any extents, and they count as fitting. -/
def FitsWord (shape : List Nat) (i : Int) : Prop :=
  -0x8000000000000000 ≤ i ∧ (i < 0x8000000000000000 ∨ ∃ n ∈ shape, i < (n : Int))

instance (shape : List Nat) (i : Int) : Decidable (FitsWord shape i) :=
  inferInstanceAs (Decidable (_ ∧ (_ ∨ ∃ n ∈ shape, _)))

omit [Scalar α] in
/-- Indices are made machine words. -/
def checkWords (shape : List Nat) (idx : List Int) : Except (Fault α) Unit :=
  if ∀ i ∈ idx, FitsWord shape i then .ok () else .error (@Fault.overflow α .indexWord)

/-- Weights and field fit one position per axis. -/
def checkRed (weights field : NdArray α) (ps : List (Position α)) (check : SumCheck α) :
    Except (Fault α) Unit := do
  if weights.shape ≠ [Corner.count ps.length] then
    throw (.dimensionMismatch (.redWeights ps.length weights.shape))
  checkWords field.shape (ps.map Position.idx)
  checkField field.shape (ps.map fun p => [p.idx])
  check.run [weights.toList]

/-- Weights and field fit a sequence of positions. -/
def checkBlue (weights field : NdArray α) (cs : List (Column α)) (check : SumCheck α) :
    Except (Fault α) Unit := do
  let n := (cs.map Column.length).headD 0
  match Weights.firstUneven n cs with
  | some (length, axis) => throw (.dimensionMismatch (.unequalLengths n axis length))
  | none =>
    if weights.shape ≠ [n, Corner.count cs.length] then
      throw (.dimensionMismatch (.blueWeights [n, Corner.count cs.length] weights.shape))
    checkField field.shape (cs.map Column.idx)
    check.run weights.rows

/-- Weights and field fit a grid of positions. -/
def checkGreen (weights field : NdArray α) (cs : List (Column α)) (check : SumCheck α) :
    Except (Fault α) Unit := do
  let needed := cs.map Column.length ++ [Corner.count cs.length]
  if weights.shape ≠ needed then
    throw (.dimensionMismatch (.greenWeights needed weights.shape))
  checkField field.shape (cs.map Column.idx)
  check.run weights.rows

end Sample
end Regrid
