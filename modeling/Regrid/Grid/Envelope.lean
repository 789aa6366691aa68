import Regrid.Grid.Reference

/-!
# The envelope of a grid

A query may lie a little outside the grid: at each end by `extpolfac` times the
distance of the two outermost points there.  `limits` gives the ends of that
range, the smaller one first; `checkWithin` refuses the first query outside it,
and `checkPair` checks a grid and a new grid for one another as a whole.
-/
namespace Regrid
namespace Grid

variable {α : Type} [Scalar α]

/-- Half a spacing of extrapolation is allowed where nothing else is asked for. -/
def defaultExtpolfac : α := Scalar.half

/-- **The least and the greatest value a query may have.**  A grid of fewer than two
points has no spacing. -/
def limits (grid : List α) (extpolfac : α) : Except (Fault α) (α × α) :=
  match grid, grid.reverse with
  | x₀ :: x₁ :: _, z₀ :: z₁ :: _ =>
    let first := x₀ - extpolfac * (x₁ - x₀)
    let last := z₀ + extpolfac * (z₀ - z₁)
    if Scalar.le x₀ x₁ then .ok (first, last) else .ok (last, first)
  | _, _ => .error .badIndex

/-- The limits of a grid that is handed over as an array. -/
def limitsOf (a : NdArray α) (extpolfac : α) : Except (Fault α) (α × α) :=
  match a.shape with
  | [_] => limits a.toList extpolfac
  | _ => do
    let x ← a.numberAt 0
    limits [x] extpolfac

/-- A value that is not a number, or beyond a limit. -/
def isOutside (low high x : α) : Bool :=
  Scalar.isNaN x || Scalar.lt x low || Scalar.lt high x

/-- The first entry with a property, and its place. -/
def firstWith (p : α → Bool) (xs : List α) : Option (α × Nat) :=
  xs.zipIdx.find? fun entry => p entry.1

/-- **Every query is within the limits**, or the first one that is not. -/
def checkWithin (queries : List α) (low high extpolfac : α) : Except (Fault α) Unit :=
  match firstWith (isOutside low high) queries with
  | some (value, position) =>
    .error (.outOfRange (.outsideEnvelope value position low high extpolfac))
  | none => .ok ()

/-- The same for queries that are handed over as an array. -/
def checkArrayWithin (queries : NdArray α) (low high extpolfac : α) : Except (Fault α) Unit :=
  match firstWith (isOutside low high) queries.toList with
  | some (_, position) => do
    let value ← queries.numberAt position
    throw (.outOfRange (.outsideEnvelope value position low high extpolfac))
  | none => .ok ()

/-- The extremes of a new grid are within the limits. -/
def checkExtremes (which : String) (old : List α) (low high : α) : List α →
    Except (Fault α) Unit
  | [] => .ok ()
  | x :: rest =>
    let least := Scalar.least x rest
    let greatest := Scalar.greatest x rest
    match old with
    | [] => .error .badIndex
    | o :: os =>
      if Scalar.lt least low then
        .error (.outOfRange (.settingUp which (.newGridTooLow (Scalar.least o os) low least)))
      else if Scalar.lt high greatest then
        .error (.outOfRange (.settingUp which
          (.newGridTooHigh (Scalar.greatest o os) high greatest)))
      else .ok ()

/-- **A grid and a new grid fit together** for an interpolation of the given order,
which needs one point more than its order. -/
def checkPair (which : String) (oldGrid newGrid : NdArray α) (order : Int) (extpolfac : α) :
    Except (Fault α) Unit := do
  let old ← ofArray "old_grid" oldGrid
  let new ← ofArray "new_grid" newGrid
  let _ ← checkReference (order + 1) which old
  if new.isEmpty then
    return ()
  let (low, high) ← limits old extpolfac
  match firstWith Scalar.isNaN new with
  | some (_, position) => .error (.outOfRange (.settingUp which (.newGridNaN position)))
  | none => checkExtremes which old low high new

end Grid
end Regrid
