import Regrid.Choice
import Regrid.ElementType

/-!
# Faults

Every way in which a call can be refused, by cause.  A fault belongs to one of a
few kinds, which is what a caller usually asks for: the reference grid is
malformed, a query is out of range, shapes do not fit together, weights do not
sum to one, two abscissas of a stencil coincide, or an argument makes no sense by
itself or is of the wrong type.  The constructors of `Fault` are the kinds and carry
the cause; the wording is in `Regrid.Fault.Message` and nothing else depends on it.
-/
namespace Regrid

/-- **What is wrong with a reference grid.** -/
inductive GridFault (α : Type) where
  /-- It has not one dimension. -/
  | notOneDimensional (name : String) (shape : List Nat)
  /-- It has fewer points than needed. -/
  | tooShort (least : Int) (size : Nat)
  /-- One of its points is infinite or not a number. -/
  | notFinite
  /-- Its order breaks between one point and the next. -/
  | notSorted (index : Nat) (point next : α)
  /-- A pressure grid has a point that is nought or less. -/
  | pressureNotPositive
  /-- The pressure grid of an axis has a point that is nought or less. -/
  | axisNotPositive (axis : Nat)
deriving Repr

/-- **What is out of range**, and where. -/
inductive RangeFault (α : Type) where
  /-- A value is beyond the envelope of the reference grid. -/
  | outsideEnvelope (value : α) (position : Nat) (low high extpolfac : α)
  /-- A pressure is nought or less. -/
  | pressureNotPositive (value : α) (position : Nat)
  /-- A new grid has an entry that is not a number. -/
  | newGridNaN (position : Nat)
  /-- The least entry of a new grid is too small. -/
  | newGridTooLow (gridLeast allowed actual : α)
  /-- The greatest entry of a new grid is too great. -/
  | newGridTooHigh (gridGreatest allowed actual : α)
  /-- Fractional distances deviate too much from the unit interval. -/
  | deviates (fraction complement tolerance : α)
  /-- A fractional distance is outside the unit interval. -/
  | notInUnit (fraction : α)
  /-- The range below the first grid point is asked for. -/
  | belowFirst
  /-- A bracket index is none of the grid. -/
  | noBracket (index last : Int)
  /-- The fault arose on an axis. -/
  | onAxis (axis : Nat) (cause : RangeFault α)
  /-- The fault arose while an interpolation was set up. -/
  | settingUp (which : String) (cause : RangeFault α)
deriving Repr

/-- **Which shapes do not fit together.** -/
inductive ShapeFault where
  /-- Fractional distances do not match the indices. -/
  | fractions (count : Nat) (shape : List Nat)
  /-- There is no axis. -/
  | noAxis
  /-- There is no position. -/
  | noPosition
  /-- There is no array of positions. -/
  | noPositionArray
  /-- Single positions and arrays of them are mixed. -/
  | mixedPositions
  /-- Arrays of positions have different lengths. -/
  | unequalLengths (first axis length : Nat)
  /-- A container for weights has another shape. -/
  | weightsContainer (shape needed : List Nat)
  /-- A container for weights has another type of element. -/
  | weightsElement (type : ElementType)
  /-- A container for weights has the number of dimensions of no protocol. -/
  | containerRank (rank axes : Nat)
  /-- A container for values has another shape. -/
  | valuesContainer (shape needed : List Nat)
  /-- A container for values has another type of element. -/
  | valuesElement (type : ElementType)
  /-- A single value needs no container. -/
  | needlessContainer
  /-- The field has another number of dimensions than there are axes. -/
  | fieldRank (rank axes : Nat)
  /-- The brackets of an axis reach beyond the field. -/
  | outsideField (axis : Nat) (first last : Int) (size : Nat)
  /-- The weights of a single position have another shape. -/
  | redWeights (axes : Nat) (shape : List Nat)
  /-- The weights of a sequence of positions have another shape. -/
  | blueWeights (needed shape : List Nat)
  /-- The weights of a grid of positions have another shape. -/
  | greenWeights (needed shape : List Nat)
  /-- Weights have the number of dimensions of no protocol. -/
  | weightsRank (rank axes : Nat)
  /-- A table has no entries, or abscissas and ordinates of different number. -/
  | tableLengths (abscissas ordinates : Nat)
  /-- The same, where the numbers are not told. -/
  | tableShapes
  /-- A grid has fewer points than a stencil. -/
  | stencilPoints (stencil : Stencil) (points : Int)
  /-- Grid and values of a polynomial have different lengths. -/
  | pointsAndValues (points values : Nat)
  /-- There is no grid. -/
  | noGrid
  /-- The field has another number of dimensions than there are grids. -/
  | fieldGrids (rank grids : Nat)
  /-- A grid has another number of points than the field has along its axis. -/
  | gridPoints (axis points extent : Nat)
  /-- The query values of an axis have not one dimension. -/
  | queryRank (axis : Nat)
  /-- There is no such axis. -/
  | noSuchAxis (axis : Int) (axes : Nat)
  /-- There is not one argument per axis. -/
  | argumentCount (axes given : Nat)
  /-- Polynomial interpolation needs a field with one axis. -/
  | notOneAxis
deriving DecidableEq, Repr

/-- **Which argument makes no sense by itself.** -/
inductive ArgumentFault (α : Type) where
  /-- Extrapolation by a negative factor. -/
  | negativeExtrapolation
  /-- Extrapolation by a factor that is infinite or not a number. -/
  | extrapolationNotFinite
  /-- No tie-break has this name. -/
  | unknownTieBreak
  /-- No stencil has this name, where a stencil is chosen. -/
  | unknownStencil
  /-- No stencil has this name, where a configuration is made. -/
  | unknownPolyStencil
  /-- No protocol has this name. -/
  | unknownMode
  /-- The protocol cannot be told from the arguments. -/
  | modeNeeded
  /-- No backend has this name, where a configuration is made. -/
  | unknownBackendChoice
  /-- No backend has this name, where one is built. -/
  | unknownBackend (name : String)
  /-- A tolerance of fractional distances is not a positive number. -/
  | tolerance (given : α)
  /-- The same, where a configuration is made. -/
  | toleranceSetting
  /-- The tolerance of a sum of weights is not a positive number. -/
  | sumTolerance (given : α)
  /-- The same, where a configuration is made. -/
  | sumToleranceSetting
  /-- A logarithmic axis is no natural number. -/
  | logAxisNumber
  /-- A logarithmic axis is named twice. -/
  | logAxisTwice
  /-- A logarithmic axis is none of the grids; a number that was given as a real
  one is written as such. -/
  | logAxisBeyond (axis : Nat) (asReal : Bool) (axes : Nat)
  /-- What is not a number has no nearest integer. -/
  | nanInteger
  /-- A slice makes no step. -/
  | stepZero
  /-- Arrays of different lengths, or none, cannot be put side by side. -/
  | unstackable
  /-- A self-check needs a point. -/
  | noPoints
  /-- A self-check needs two points per grid. -/
  | tooFewGridPoints
  /-- A self-check needs an axis. -/
  | noRank
  /-- A seed is negative. -/
  | negativeSeed
  /-- A field has too many axes or entries. -/
  | fieldTooLarge
  /-- Blocks of numbers are compared where single numbers are needed; they hold none,
  or more than one each. -/
  | blocksCompared (empty : Bool)
  /-- A block of numbers is put where a single one belongs. -/
  | blockForEntry
  /-- What has no dimension has no neighbours. -/
  | noNeighbours
  /-- Among no numbers none is the closest. -/
  | nothingClosest
  /-- Shapes cannot be stretched to a common one. -/
  | shapesApart (first second : List Nat)
  /-- Native kernels are handed an array that is no row. -/
  | bufferRank (rank : Nat)
deriving Repr

/-- **What is of the wrong type.** -/
inductive TypeFault where
  /-- A block of numbers is given for a single one. -/
  | blockForNumber
  /-- A single number is given for a row of them. -/
  | numberForRow
  /-- A value is left blank. -/
  | blank
deriving DecidableEq, Repr

/-- What a machine integer cannot be. -/
inductive OverflowFault where
  /-- Infinity has no nearest integer. -/
  | infinity
  /-- An index does not fit a machine word. -/
  | indexWord
deriving DecidableEq, Repr

/-- **Why a call is refused.** -/
inductive Fault (α : Type) where
  /-- A reference grid cannot be used; the interpolation it was meant for is told if
  it has a name. -/
  | malformedGrid (which : Option String) (cause : GridFault α)
  /-- A query or a position is out of range. -/
  | outOfRange (cause : RangeFault α)
  /-- Shapes do not fit together. -/
  | dimensionMismatch (cause : ShapeFault)
  /-- Weights do not sum to one. -/
  | invalidWeights (total tolerance : α)
  /-- The abscissas at two indices of a stencil coincide. -/
  | singularStencil (first : Nat) (x : α) (second : Nat) (y : α)
  /-- Two abscissas of a stencil coincide; it is not told which. -/
  | singularTable
  /-- An argument makes no sense by itself. -/
  | invalidArgument (cause : ArgumentFault α)
  /-- An argument is of the wrong type. -/
  | wrongType (cause : TypeFault)
  /-- The compiled kernels have no form for such arguments. -/
  | notCompiled
  /-- A backend is known and cannot be built. -/
  | unavailable
  /-- An integer is too large, or there is none. -/
  | overflow {cause : OverflowFault}
  /-- A number is divided by nought. -/
  | zeroDivision
  /-- An index names no entry. -/
  | badIndex
deriving Repr

/-- The fault of a number without a nearest integer. -/
def NoInteger.fault {α : Type} : NoInteger → Fault α
  | .nan => .invalidArgument .nanInteger
  | .infinite => @Fault.overflow α .infinity

/-- What an index has found, or the fault that there is nothing. -/
def orBadIndex {α β : Type} : Option β → Except (Fault α) β
  | some x => .ok x
  | none => .error .badIndex

section

variable {α : Type} [Scalar α]

/-- The nearest integer, or the fault that there is none. -/
def nearestInteger (x : α) : Except (Fault α) Int :=
  match Scalar.nearest x with
  | .ok n => .ok n
  | .error e => .error e.fault

/-- A quotient, or the fault that the divisor is nought. -/
def divide (x y : α) : Except (Fault α) α :=
  if Scalar.eq y Scalar.zero then .error .zeroDivision else .ok (x / y)

end

end Regrid
