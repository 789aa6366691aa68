import Regrid.Sample.Check

/-!
# Sampling a field

The value at a position is the sum over the corners of its cell of the field times
the weight.  The corners are addressed through the table of corner bits: the index
of a corner along an axis is the bracket index plus the bit.

How a corner is read and in which order the products are added may differ from one
machine to another.  A `Sampler` is those choices; the rest is the same for all.
After the checks every corner is inside the field, where all ways to read agree.
-/
namespace Regrid

/-- **How corners are read and products added.** -/
structure Sampler (α : Type) where
  /-- The field at the multi-index of a corner. -/
  read : NdArray α → List Int → Except (Fault α) α
  /-- The sum of values times weights, for a single position. -/
  single : List α → List α → α
  /-- The sum of values times weights, for one of many. -/
  row : List α → List α → α

namespace Sampler

variable {α : Type} [Scalar α]

/-- The sum of products in the pairwise order. -/
def pairwiseProducts (values weights : List α) : α :=
  Sum.pairwise (List.zipWith (· * ·) values weights)

/-- The reference: indices outside the field are refused, a single position is
summed from left to right, many are summed pairwise. -/
def reference : Sampler α where
  read := NdArray.read
  single := Sum.dot
  row := pairwiseProducts

/-- Fused sampling: indices outside the field are moved inside, and all sums are
pairwise. -/
def fused : Sampler α where
  read := NdArray.readNearest
  single := pairwiseProducts
  row := pairwiseProducts

end Sampler

namespace Sample

variable {α : Type}

/-! ## Addresses -/

/-- The multi-indices of the corners of a cell, in the order of a table of corner
bits. -/
def corners (table : List (List Nat)) (idx : List Int) : List (List Int) :=
  table.map fun bits => List.zipWith (fun i (b : Nat) => i + b) idx bits

/-- All choices of one entry per list, the last list fastest. -/
def mesh {β : Type} : List (List β) → List (List β)
  | [] => [[]]
  | xs :: rest => xs.flatMap fun x => (mesh rest).map (x :: ·)

theorem length_mesh {β : Type} (lists : List (List β)) :
    (mesh lists).length = volume (lists.map List.length) := by
  induction lists with
  | nil => rfl
  | cons xs rest ih =>
    rw [mesh, Weights.length_flatMap_map xs (mesh rest) List.cons, ih]
    rfl

/-! ## Sums over corners -/

/-- The field at the corners of a cell. -/
def gather (s : Sampler α) (field : NdArray α) (table : List (List Nat)) (idx : List Int) :
    Except (Fault α) (List α) :=
  (corners table idx).mapM (s.read field)

/-- The value at one position. -/
def single (s : Sampler α) (field : NdArray α) (idx : List Int) (weights : List α) :
    Except (Fault α) α := do
  return s.single (← gather s field (Corner.offsets idx.length) idx) weights

/-- The values at many positions on the given number of axes, each with its row of
weights. -/
def rows (s : Sampler α) (field : NdArray α) (axes : Nat) (idx : List (List Int))
    (weights : List (List α)) : Except (Fault α) (List α) :=
  let table := Corner.offsets axes
  (idx.zip weights).mapM fun (i, w) => do return s.row (← gather s field table i) w

/-- Values under a shape that they fill. -/
def shaped (shape : List Nat) (values : List α) : Except (Fault α) (NdArray α) :=
  orBadIndex (NdArray.ofData? shape values.toArray)

/-! ## The three protocols -/

variable [Scalar α]

/-- Values are handed over in the caller's container, if there is one. -/
def deliver (out : Option (Container α)) (values : NdArray α) : Except (Fault α) (NdArray α) :=
  Container.deliver out .valuesContainer .valuesElement values

/-- The value at one position per axis. -/
def red (s : Sampler α) (weights field : NdArray α) (ps : List (Position α))
    (check : SumCheck α) : Except (Fault α) α := do
  if ps.isEmpty then
    throw (.dimensionMismatch .noPosition)
  checkRed weights field ps check
  single s field (ps.map Position.idx) weights.toList

/-- The values along a sequence of positions. -/
def blue (s : Sampler α) (weights field : NdArray α) (cs : List (Column α))
    (out : Option (Container α)) (check : SumCheck α) : Except (Fault α) (NdArray α) := do
  if cs.isEmpty then
    throw (.dimensionMismatch .noPositionArray)
  checkBlue weights field cs check
  let idx := Weights.sideBySide (cs.map Column.idx)
  deliver out (NdArray.vector (← rows s field cs.length idx weights.rows))

/-- The values on a grid of positions. -/
def green (s : Sampler α) (weights field : NdArray α) (cs : List (Column α))
    (out : Option (Container α)) (check : SumCheck α) : Except (Fault α) (NdArray α) := do
  if cs.isEmpty then
    throw (.dimensionMismatch .noPositionArray)
  checkGreen weights field cs check
  let values ← rows s field cs.length (mesh (cs.map Column.idx)) weights.rows
  deliver out (← shaped (cs.map Column.length) values)

/-- The field sampled with weights, by the protocol that weights and positions call
for.  A single value needs no container. -/
def sample (s : Sampler α) (weights field : NdArray α) (ps : List (Placement α))
    (out : Option (Container α)) (check : SumCheck α) : Except (Fault α) (NdArray α) := do
  let protocol ← Weights.protocolOf weights ps
  match protocol, Placement.singles ps, Placement.columns ps with
  | .blue, _, some columns => blue s weights field columns out check
  | .green, _, some columns => green s weights field columns out check
  | _, some singles, _ =>
    if out.isSome then
      throw (.dimensionMismatch .needlessContainer)
    return NdArray.scalar (← red s weights field singles check)
  | _, none, _ => throw (.dimensionMismatch .mixedPositions)

end Sample
end Regrid
