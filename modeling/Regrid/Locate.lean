import Regrid.Grid.Envelope
import Regrid.Locate.Scan
import Regrid.Position.Column

/-!
# Locating values in a grid

A location is made in three steps: grid and queries are checked and a bracket to
start from is estimated (`prepare`), the scan finds a bracket and a fraction for
every query (`scan`), and ties are broken (`breakTies`).

`locate` puts them together; it asks first whether the tie-break has a name.
`locateWith` is the same with the question last, after everything else and only
where there is a query.  A single value is located as a single position (`place`),
and pressures are located by their logarithms (`placePressure`), so that they are
interpolated linearly in the logarithm.
-/
namespace Regrid
namespace Locate

variable {α : Type} [Scalar α]

/-! ## Where a scan starts

The bracket of the first query is estimated by a straight line through the ends of the
envelope: the envelope is mapped to the bracket numbers and the result rounded.  The
estimate is a good guess for grids that are nearly equidistant, and any bracket will do. -/

/-- The bracket to start from for a first query, on a grid of `n` points. -/
def startBracket (first low high : α) (n : Int) (d : Direction) : Except (Fault α) Int := do
  let along ← divide (first - low) (high - low)
  let along := match d with
    | .ascending => along
    | .descending => Scalar.one - along
  let estimate ← nearestInteger (along * Scalar.ofInt (n - 2))
  return min (max estimate 0) (n - 2)

/-- **What a scan needs**: the points of the grid, the queries, the direction of the
grid and the bracket to start from. -/
structure Task (α : Type) where
  old : List α
  new : List α
  direction : Direction
  start : Int
deriving Repr

/-- Grid and queries, checked, and the bracket to start from.  Without a query it
is bracket nought. -/
def prepare (oldGrid newGrid : NdArray α) (extpolfac : α) : Except (Fault α) (Task α) := do
  if Scalar.lt extpolfac Scalar.zero then
    throw (.invalidArgument .negativeExtrapolation)
  let old ← Grid.ofArray "old_grid" oldGrid
  let new ← Grid.ofArray "new_grid" newGrid
  let direction ← Grid.checkReference Grid.linearPoints "" old
  let (low, high) ← Grid.limits old extpolfac
  Grid.checkWithin new low high extpolfac
  match new with
  | [] => return ⟨old, new, direction, 0⟩
  | first :: _ =>
    let start ← startBracket first low high old.length direction
    return ⟨old, new, direction, start⟩

/-! ## Ties broken -/

/-- **Ties broken in all positions.**  To keep what was found is always possible; a
tie-break without a name is refused. -/
def breakTies (policy : Option TieBreak) (n : Int) (found : List (Int × α)) :
    Except (Fault α) (List (Int × α)) :=
  match policy with
  | some t => .ok (found.map (t.move n))
  | none => .error (.invalidArgument .unknownTieBreak)

/-- Indices and fractions of one shape, each pair after its tie is broken. -/
def breakPairs (t : TieBreak) (n : Int) (idx : NdArray Int) (fractions : NdArray α)
    (h : idx.shape = fractions.shape) : NdArray Int × NdArray α :=
  let moved := Array.zipWith (fun i f => t.move n (i, f)) idx.data fractions.data
  have size : moved.size = volume idx.shape := by
    simp [moved, idx.size_eq, fractions.size_eq, h]
  (⟨idx.shape, moved.map Prod.fst, by simp [size]⟩,
    ⟨fractions.shape, moved.map Prod.snd, by simp [size, h]⟩)

/-- Ties broken in arrays of indices and fractions, which have one shape. -/
def breakTiesIn (policy : Option TieBreak) (n : Int) (idx : NdArray Int) (fractions : NdArray α) :
    Except (Fault α) (NdArray Int × NdArray α) :=
  match policy with
  | none => .error (.invalidArgument .unknownTieBreak)
  | some .keep => .ok (idx, fractions)
  | some t =>
    if h : idx.shape = fractions.shape then .ok (breakPairs t n idx fractions h)
    else if NdArray.canStretch idx.shape fractions.shape then .error .badIndex
    else .error (.invalidArgument (.shapesApart fractions.shape idx.shape))

/-- The positions of the queries of a task. -/
def run (w : Walk α) (policy : Option TieBreak) (task : Task α) :
    Except (Fault α) (Column α) :=
  if task.new.isEmpty then .ok Column.empty
  else do
    let found ← scan w task.old task.direction task.start task.new
    let moved ← breakTies policy task.old.length found
    return Column.ofFound moved

/-- **The positions of all queries in a grid**; the tie-break is looked at last. -/
def locateWith (w : Walk α) (oldGrid newGrid : NdArray α) (extpolfac : α)
    (policy : Option TieBreak) : Except (Fault α) (Column α) := do
  let task ← prepare oldGrid newGrid extpolfac
  run w policy task

/-- **The positions of all queries in a grid**; the tie-break is looked at first. -/
def locate (oldGrid newGrid : NdArray α) (extpolfac : α) (policy : Option TieBreak) :
    Except (Fault α) (Column α) :=
  match policy with
  | none => .error (.invalidArgument .unknownTieBreak)
  | some _ => locateWith Walk.stepping oldGrid newGrid extpolfac policy

/-- An array with one dimension around it. -/
def wrapped (a : NdArray α) : NdArray α :=
  ⟨1 :: a.shape, a.data, by simp [a.size_eq]⟩

/-- **The position of a single value**, or the positions of several. -/
def place (oldGrid newGrid : NdArray α) (extpolfac : α) (policy : Option TieBreak) :
    Except (Fault α) (Placement α) := do
  if newGrid.rank = 0 then
    let column ← locate oldGrid (wrapped newGrid) extpolfac policy
    return .one (← column.get 0)
  else
    return .many (← locate oldGrid newGrid extpolfac policy)

/-! ## Pressures -/

/-- Nought or less. -/
def isNotPositive (x : α) : Bool := Scalar.le x Scalar.zero

/-- A single pressure is a row of one. -/
def asRow (a : NdArray α) : NdArray α := if a.rank = 0 then NdArray.vector a.toList else a

/-- All pressures are positive, or the first that is not; its place is looked up along
the first dimension. -/
def checkPressures (pressures : NdArray α) : Except (Fault α) Unit :=
  match Grid.firstWith isNotPositive pressures.toList with
  | some (_, position) => do
    let value ← (asRow pressures).numberAt position
    throw (.outOfRange (.pressureNotPositive value position))
  | none => .ok ()

/-- **Positions by the logarithm of a pressure.** -/
def placePressure (oldGrid newGrid : NdArray α) (extpolfac : α) (policy : Option TieBreak) :
    Except (Fault α) (Placement α) := do
  let old ← Grid.ofArray "old_pgrid" oldGrid
  if old.any isNotPositive then
    throw (.malformedGrid none .pressureNotPositive)
  checkPressures newGrid
  place (NdArray.vector (old.map Scalar.log)) (newGrid.map Scalar.log) extpolfac policy

end Locate
end Regrid
