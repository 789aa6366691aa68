import Regrid.NdArray

/-!
# Reference grids

A reference grid is a row of finite points in strictly ascending or strictly
descending order.  `checkReference` decides which, from the first two points
alone, and holds the rest of the grid to it; a grid that is neither is refused
with the place where the order breaks.

The decision looks at the differences of neighbours, not at the points
themselves.
-/
namespace Regrid

/-- **The direction of a grid.** -/
inductive Direction where
  | ascending
  | descending
deriving DecidableEq, Repr

namespace Grid

variable {α : Type} [Scalar α]

/-- The points of an array.  A single number is a grid of one point; an array of
several dimensions is none. -/
def ofArray (name : String) (a : NdArray α) : Except (Fault α) (List α) :=
  match a.shape with
  | [] | [_] => .ok a.toList
  | shape => .error (.malformedGrid none (.notOneDimensional name shape))

omit [Scalar α] in
@[simp] theorem ofArray_vector (name : String) (xs : List α) :
    ofArray name (NdArray.vector xs) = .ok xs := by
  simp [ofArray, NdArray.vector, NdArray.toList]

omit [Scalar α] in
@[simp] theorem ofArray_scalar (name : String) (x : α) :
    ofArray name (NdArray.scalar x) = .ok [x] := rfl

/-- Each point is less than the next. -/
def isIncreasing (grid : List α) : Bool :=
  (Scalar.diffs grid).all fun d => Scalar.lt Scalar.zero d

/-- Each point is greater than the next. -/
def isDecreasing (grid : List α) : Bool :=
  (Scalar.diffs grid).all fun d => Scalar.lt d Scalar.zero

/-- A step that breaks the order of a direction. -/
def breaks : Direction → α → Bool
  | .ascending, step => Scalar.le step Scalar.zero
  | .descending, step => Scalar.le Scalar.zero step

/-- The first place where the order breaks: its index, its point and the next. -/
def firstBreak (d : Direction) : Nat → List α → Option (Nat × α × α)
  | i, x :: y :: rest =>
    if breaks d (y - x) then some (i, x, y) else firstBreak d (i + 1) (y :: rest)
  | _, _ => none

/-- The grid follows the direction throughout. -/
def follows : Direction → List α → Bool
  | .ascending => isIncreasing
  | .descending => isDecreasing

/-- The interpolation that a grid is meant for, if it has a name. -/
def purpose (which : String) : Option String := if which = "" then none else some which

/-- **The direction of a reference grid** of at least `least` points, or what is wrong
with the grid. -/
def checkReference (least : Int) (which : String) (grid : List α) :
    Except (Fault α) Direction :=
  if (grid.length : Int) < least then
    .error (.malformedGrid (purpose which) (.tooShort least grid.length))
  else if ¬ grid.all Scalar.isFinite then
    .error (.malformedGrid (purpose which) .notFinite)
  else
    match grid with
    | x :: y :: _ =>
      let direction := if Scalar.le x y then Direction.ascending else .descending
      if follows direction grid then .ok direction
      else
        let (index, point, next) := (firstBreak direction 0 grid).getD (0, x, y)
        .error (.malformedGrid (purpose which) (.notSorted index point next))
    | _ => .error .badIndex

/-! ## Arrays of any shape -/

/-- Every row of an array is increasing. -/
def increases (a : NdArray α) : Except (Fault α) Bool :=
  if a.rank = 0 then .error (.invalidArgument .noNeighbours) else .ok (a.rows.all isIncreasing)

/-- Every row of an array is decreasing. -/
def decreases (a : NdArray α) : Except (Fault α) Bool :=
  if a.rank = 0 then .error (.invalidArgument .noNeighbours) else .ok (a.rows.all isDecreasing)

/-- The direction from the first of several blocks to the second.  Blocks of one
number are compared like numbers, and no row of theirs breaks the order; other
blocks cannot be compared. -/
def checkBlocks (blocks : Nat) (block : List Nat) (entries : List α) :
    Except (Fault α) Direction :=
  if blocks < 2 then .error .badIndex
  else if volume block = 1 then
    match entries with
    | x :: y :: _ => .ok (if Scalar.le x y then .ascending else .descending)
    | _ => .error .badIndex
  else .error (.invalidArgument (.blocksCompared (volume block == 0)))

/-- The direction of a reference grid that is handed over as an array. -/
def checkArray (least : Int) (which : String) (a : NdArray α) : Except (Fault α) Direction :=
  match a.shape with
  | n :: m :: block =>
    if (a.size : Int) < least then
      .error (.malformedGrid (purpose which) (.tooShort least a.size))
    else if ¬ a.toList.all Scalar.isFinite then
      .error (.malformedGrid (purpose which) .notFinite)
    else checkBlocks n (m :: block) a.toList
  | _ => checkReference least which a.toList

/-- The least number of points of a grid for linear interpolation. -/
def linearPoints : Int := 2

/-- The least number of points of a grid for polynomial interpolation. -/
def polynomialPoints : Int := 3

end Grid

end Regrid
