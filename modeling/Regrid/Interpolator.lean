import Regrid.Backend
import Regrid.Config
import Regrid.Polynomial

/-!
# Interpolators

An interpolator is a field on a grid of several axes, ready to be sampled.  Grids
and field are checked once, when it is made; a logarithmic axis keeps the
logarithms of its points beside the points, and values are located among those.

There are three ways to sample it: at one point, along a sequence of points, and
onto a new grid.  A field with one axis can be sampled with local polynomials too.
What is out of range is told with the axis it was found on.
-/
namespace Regrid

/-- **One axis of a field**: its grid points, and whether values are located by their
logarithm. -/
structure Axis (α : Type) where
  points : List α
  logarithmic : Bool
deriving Repr

/-- The points among which values are located. -/
def Axis.located {α : Type} [Scalar α] (a : Axis α) : List α :=
  if a.logarithmic then a.points.map Scalar.log else a.points

/-- **A field on a grid**, and how it is sampled. -/
structure Interpolator (α : Type) where
  axes : List (Axis α)
  field : NdArray α
  config : Config α
  backend : Backend

namespace Interpolator

variable {α : Type} [Scalar α]

/-! ## Making an interpolator -/

/-- The points of every grid; a grid is named by its number. -/
def gridPoints : Nat → List (NdArray α) → Except (Fault α) (List (List α))
  | _, [] => return []
  | k, g :: rest => do
    let points ← Grid.ofArray ("grid " ++ toString k) g
    let others ← gridPoints (k + 1) rest
    return points :: others

/-- The first logarithmic axis that is none of the `axes`. -/
def checkLogAxes (axes : Nat) (logAxes : List LogAxis) : Except (Fault α) Unit :=
  match logAxes.find? fun l => decide (axes ≤ l.axis) with
  | some l => .error (.invalidArgument (.logAxisBeyond l.axis l.asReal axes))
  | none => .ok ()

/-- An axis of the field: as many points as the field has along it, positive ones
if it is logarithmic, and in strict order where they are located. -/
def makeAxis (cfg : Config α) (k extent : Nat) (points : List α) : Except (Fault α) (Axis α) := do
  if points.length ≠ extent then
    throw (.dimensionMismatch (.gridPoints k points.length extent))
  let axis : Axis α := ⟨points, cfg.isLogarithmic k⟩
  if axis.logarithmic && points.any Locate.isNotPositive then
    throw (.malformedGrid none (.axisNotPositive k))
  let _ ← Grid.checkReference Grid.linearPoints ("axis " ++ toString k) axis.located
  return axis

/-- The axes from number `k` on. -/
def makeAxes (cfg : Config α) : Nat → List Nat → List (List α) → Except (Fault α) (List (Axis α))
  | k, extent :: extents, points :: rest => do
    let axis ← makeAxis cfg k extent points
    let others ← makeAxes cfg (k + 1) extents rest
    return axis :: others
  | _, _, _ => return []

/-- An interpolator for a field, one grid per dimension. -/
def make (grids : List (NdArray α)) (field : NdArray α) (cfg : Config α) :
    Except (Fault α) (Interpolator α) := do
  let points ← gridPoints 0 grids
  if points.isEmpty then
    throw (.dimensionMismatch .noGrid)
  if field.rank ≠ points.length then
    throw (.dimensionMismatch (.fieldGrids field.rank points.length))
  checkLogAxes points.length cfg.logAxes
  let axes ← makeAxes cfg 0 field.shape points
  let backend ← Backend.build cfg.backend
  return ⟨axes, field, cfg, backend⟩

variable (I : Interpolator α)

/-- The number of axes. -/
def rank : Nat := I.axes.length

/-! ## Locating -/

/-- What is out of range, told with the axis. -/
def onAxis (axis : Nat) : Fault α → Fault α
  | .outOfRange cause => .outOfRange (.onAxis axis cause)
  | f => f

/-- The values in located space: logarithms of positive numbers, or the values. -/
def Axis.coordinates (a : Axis α) (values : List α) : Except (Fault α) (List α) :=
  if a.logarithmic then
    match Grid.firstWith Locate.isNotPositive values with
    | some (value, position) => .error (.outOfRange (.pressureNotPositive value position))
    | none => .ok (values.map Scalar.log)
  else .ok values

/-- The queries of an array: a single number, or a row of them. -/
def queries (axis : Nat) (values : NdArray α) : Except (Fault α) (List α) :=
  match values.shape with
  | [] | [_] => .ok values.toList
  | _ => .error (.dimensionMismatch (.queryRank axis))

/-- The positions of values along axis number `k`. -/
def positions (k : Nat) (a : Axis α) (values : NdArray α) : Except (Fault α) (Column α) := do
  let xs ← queries k values
  let located := do
    let coordinates ← Axis.coordinates a xs
    I.backend.locate (NdArray.vector a.located) (NdArray.vector coordinates) I.config.extpolfac
      (some I.config.tieBreak)
  located.mapError (onAxis k)

/-- The positions of values along an axis, with noise removed on request. -/
def locate (axis : Int) (values : NdArray α) (clamp : Bool) : Except (Fault α) (Column α) :=
  if axis < 0 then .error (.dimensionMismatch (.noSuchAxis axis I.rank))
  else
    match I.axes[axis.toNat]? with
    | none => .error (.dimensionMismatch (.noSuchAxis axis I.rank))
    | some a => do
      let column ← I.positions axis.toNat a values
      if clamp then column.clamp I.config.tolerance else return column

/-- The positions of each argument along its axis, from axis `k` on. -/
def allPositions : Nat → List (Axis α) → List (NdArray α) → Except (Fault α) (List (Column α))
  | k, a :: axes, v :: values => do
    let column ← I.positions k a v
    let others ← allPositions (k + 1) axes values
    return column :: others
  | _, _, _ => return []

/-- There is one argument per axis. -/
def checkCount (count : Nat) : Except (Fault α) Unit :=
  if count ≠ I.rank then .error (.dimensionMismatch (.argumentCount I.rank count)) else .ok ()

/-! ## Sampling -/

/-- The value at one point, a coordinate per axis. -/
def valueAt (point : List (NdArray α)) : Except (Fault α) α := do
  I.checkCount point.length
  let columns ← I.allPositions 0 I.axes (point.map Locate.wrapped)
  let ps ← columns.mapM fun c => c.get 0
  let weights ← Weights.red ps none
  let value ← I.backend.sample weights I.field (ps.map .one) none I.config.sumCheck
  orBadIndex (value.get? [])

/-- The values along a sequence of points, a row of coordinates per axis. -/
def along (coordinates : List (NdArray α)) (out : Option (Container α)) :
    Except (Fault α) (NdArray α) := do
  I.checkCount coordinates.length
  let columns ← I.allPositions 0 I.axes coordinates
  let weights ← Weights.blue columns none
  I.backend.sample weights I.field (columns.map .many) out I.config.sumCheck

/-- The field on the grid that new grid points span, a row of them per axis. -/
def onto (newGrids : List (NdArray α)) (out : Option (Container α)) :
    Except (Fault α) (NdArray α) := do
  I.checkCount newGrids.length
  let columns ← I.allPositions 0 I.axes newGrids
  let weights ← Weights.green columns none
  I.backend.sample weights I.field (columns.map .many) out I.config.sumCheck

/-! ## Polynomials -/

/-- The value at one query of the polynomial around its position. -/
def polynomialAt (points values : List α) (p : Position α) (query : α) :
    Except (Fault α) α := do
  let s := I.config.stencil
  let start ← Stencil.window (some s) points.length p
  let estimate ← I.backend.polynomial (Polynomial.stretch start s.size points)
    (Polynomial.stretch start s.size values) query
  return estimate.value

/-- The values of local polynomials along a row of points, for a field with one
axis. -/
def polyAlong (coordinates : NdArray α) : Except (Fault α) (NdArray α) :=
  match I.axes with
  | [axis] => do
    let s := I.config.stencil
    let points := axis.located
    let _ ← Grid.checkReference (Polynomial.leastPoints (some s))
      (s.name ++ " polynomial on axis 0") points
    let column ← I.positions 0 axis coordinates
    let xs := coordinates.toList
    let located := if axis.logarithmic then xs.map Scalar.log else xs
    let values ← (column.toList.zip located).mapM fun (p, x) =>
      I.polynomialAt points I.field.toList p x
    return NdArray.vector values
  | _ => .error (.dimensionMismatch .notOneAxis)

end Interpolator

end Regrid
