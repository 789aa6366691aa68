import Regrid.Grid.Envelope
import Regrid.Position
import Regrid.Sample.Check

/-!
# Configurations

`Settings` is what a caller asks for, `Config` what is left of it after the checks:
factors and tolerances in range, names that stand for something, and logarithmic
axes that are different natural numbers.  The first check that fails is told.

An axis may be numbered by an integer or by a real number; the real number must be
an integer all the same.
-/
namespace Regrid

/-- **The number of an axis**, as it was written. -/
inductive AxisNumber (α : Type) where
  | whole (n : Int)
  | real (x : α)
deriving Repr

/-- **A logarithmic axis**, and whether its number was written as a real one. -/
structure LogAxis where
  axis : Nat
  asReal : Bool
deriving DecidableEq, Repr

/-- **What is asked for**; a name that stands for nothing is `none`. -/
structure Settings (α : Type) where
  extpolfac : α
  tolerance : α
  sumTolerance : α
  tieBreak : Option TieBreak
  checkWeights : Bool
  backend : Option BackendChoice
  stencil : Option Stencil
  logAxes : List (AxisNumber α)

/-- **A checked configuration.** -/
structure Config (α : Type) where
  /-- How far a query may be outside a grid, in spacings of its end. -/
  extpolfac : α
  /-- What passes as noise in a fractional distance. -/
  tolerance : α
  /-- The spot check of the weights. -/
  sumCheck : SumCheck α
  /-- The bracket of a value on a grid point. -/
  tieBreak : TieBreak
  /-- The backend to build. -/
  backend : BackendChoice
  /-- The stencil of polynomials. -/
  stencil : Stencil
  /-- The axes that are located by their logarithm. -/
  logAxes : List LogAxis
deriving Repr

variable {α : Type} [Scalar α]

/-- What is asked for by asking for nothing. -/
def Settings.default : Settings α :=
  { extpolfac := Grid.defaultExtpolfac
    tolerance := Position.defaultTolerance
    sumTolerance := SumCheck.defaultTolerance
    tieBreak := some .keep
    checkWeights := true
    backend := some .reference
    stencil := some .adaptive3
    logAxes := [] }

/-- The axis of a number: not below nought, and an integer. -/
def AxisNumber.axis : AxisNumber α → Except (Fault α) LogAxis
  | whole n =>
    if n < 0 then .error (.invalidArgument .logAxisNumber) else .ok ⟨n.toNat, false⟩
  | real x => do
    let n ← nearestInteger x
    if Scalar.ne (Scalar.ofInt n) x || Scalar.lt x Scalar.zero then
      throw (.invalidArgument .logAxisNumber)
    return ⟨n.toNat, true⟩

namespace Config

/-- A positive number. -/
def isTolerance (x : α) : Bool := Scalar.isFinite x && !Scalar.le x Scalar.zero

/-- What a name stands for, or the fault that it stands for nothing. -/
def known {β : Type} (fault : ArgumentFault α) : Option β → Except (Fault α) β
  | some x => .ok x
  | none => .error (.invalidArgument fault)

/-- The configuration of what is asked for, or the first check that fails. -/
def make (s : Settings α) : Except (Fault α) (Config α) := do
  if !Scalar.isFinite s.extpolfac then
    throw (.invalidArgument .extrapolationNotFinite)
  if Scalar.lt s.extpolfac Scalar.zero then
    throw (.invalidArgument .negativeExtrapolation)
  if !isTolerance s.tolerance then
    throw (.invalidArgument .toleranceSetting)
  if !isTolerance s.sumTolerance then
    throw (.invalidArgument .sumToleranceSetting)
  let tieBreak ← known .unknownTieBreak s.tieBreak
  let backend ← known .unknownBackendChoice s.backend
  let stencil ← known .unknownPolyStencil s.stencil
  let logAxes ← s.logAxes.mapM AxisNumber.axis
  if ¬ (logAxes.map LogAxis.axis).Nodup then
    throw (.invalidArgument .logAxisTwice)
  return {
    extpolfac := s.extpolfac
    tolerance := s.tolerance
    sumCheck := ⟨s.checkWeights, s.sumTolerance⟩
    tieBreak := tieBreak
    backend := backend
    stencil := stencil
    logAxes := logAxes }

/-- The axis is located by its logarithm. -/
def isLogarithmic (c : Config α) (axis : Nat) : Bool :=
  c.logAxes.any fun l => l.axis == axis

end Config

end Regrid
