import Regrid.Grid.Reference
import Regrid.Position

/-!
# Polynomial interpolation

Where a straight line between two grid points is not accurate enough, the points of
a stencil around the position carry a polynomial.  The position selects the stencil
alone; the polynomial is evaluated at the query itself, which may be anywhere.

The polynomial of least degree through the points of a table is evaluated without
its coefficients, by a triangular tableau of corrections.  Stage `m` of the tableau
has a pair of corrections for each run of `m + 1` neighbouring points, and turns a
value through `m` points into one through `m + 1`.  The value starts from the entry
closest to the query and follows a path through the tableau that stays close to it;
the last correction on the path is an estimate of the error.

Each stage puts its pairs in the place of the old ones, so the tail of the two rows
keeps what earlier stages have left there.  The path is an index that may be one in
front of the first entry.

The closest entry is found in two ways, which differ on what is not a number, and
coinciding abscissas are told in two ways; both are arguments here.

A stencil takes a window of neighbouring grid points around the bracket of a
position.  Near an end of the grid the window is moved inwards, so that it is never
short.
-/
namespace Regrid

/-! ## The polynomial through a table -/

/-- **A value and the last correction that was added to it.** -/
structure Estimate (α : Type) where
  value : α
  correction : α
deriving Repr

namespace Neville

variable {α : Type} [Scalar α]

/-! ### The closest entry -/

/-- The index of the least of `best`, found at `here`, and the entries from index
`next` on; the first of equals. -/
def leastFrom (best : α) (here next : Nat) : List α → Nat
  | [] => here
  | x :: rest =>
    if Scalar.lt x best then leastFrom x next (next + 1) rest
    else leastFrom best here (next + 1) rest

/-- The distances of the abscissas from the query. -/
def distances (xa : List α) (x : α) : List α := xa.map fun a => Scalar.abs (x - a)

/-- The index of the closest abscissa, the first of equals; a distance that is not
a number is never less than another. -/
def closest (xa : List α) (x : α) : Nat :=
  match distances xa x with
  | [] => 0
  | d :: rest => leastFrom d 0 1 rest

/-- The index of the closest abscissa, where the first distance that is not a
number counts as the closest of all. -/
def closestOrNaN (xa : List α) (x : α) : Nat :=
  ((distances xa x).findIdx? Scalar.isNaN).getD (closest xa x)

/-! ### The tableau -/

/-- **A tableau after some stages**: the two rows of corrections, the place of the
path, the value so far and the last correction. -/
structure Tableau (α : Type) where
  up : List α
  down : List α
  path : Int
  value : α
  correction : α
deriving Repr

/-- The pairs of stage `m` from those of the stage before: for each abscissa from
index `i` on, and the one `m` places further, until there is none.  `c` and `d` are
the rows from the same index on. -/
def corrections (coincide : Nat → α → Nat → α → Fault α) (x : α) (m : Nat) :
    Nat → List α → List α → List α → List α → Except (Fault α) (List α × List α)
  | i, near :: nears, far :: fars, _ :: next :: cs, d :: ds => do
    let toNear := near - x
    let toFar := far - x
    let gap := toNear - toFar
    if Scalar.eq gap Scalar.zero then
      throw (coincide i near (i + m) far)
    let slope := (next - d) / gap
    let (cs', ds') ← corrections coincide x m (i + 1) nears fars (next :: cs) ds
    return (toNear * slope :: cs', toFar * slope :: ds')
  | _, _, _, cs, ds => return (cs, ds)

/-- The path goes on in the upper row, on the way to the middle of the tableau; in the
lower row otherwise. -/
def goesUp (n m : Nat) (path : Int) : Bool := decide (2 * (path + 1) < (n : Int) - m)

/-- The entry of a row at an index, which may count from the end. -/
def entry (row : List α) (index : Int) : Except (Fault α) α := orBadIndex (Index.item? row index)

/-- Stage `m` of the tableau over `n` points: new pairs, and one step of the
path. -/
def stage (coincide : Nat → α → Nat → α → Fault α) (xa : List α) (x : α) (m : Nat)
    (t : Tableau α) : Except (Fault α) (Tableau α) := do
  let (up, down) ← corrections coincide x m 0 xa (xa.drop m) t.up t.down
  if goesUp xa.length m t.path then
    let step ← entry up (t.path + 1)
    return ⟨up, down, t.path, t.value + step, step⟩
  else
    let step ← entry down t.path
    return ⟨up, down, t.path - 1, t.value + step, step⟩

/-- The given number of stages, from stage `m` on. -/
def stages (coincide : Nat → α → Nat → α → Fault α) (xa : List α) (x : α) :
    Nat → Nat → Tableau α → Except (Fault α) (Tableau α)
  | 0, _, t => return t
  | count + 1, m, t => do
    let next ← stage coincide xa x m t
    stages coincide xa x count (m + 1) next

/-- The tableau before the first stage, with the path at the entry `nearest`. -/
def start (ya : List α) (nearest : Nat) : Except (Fault α) (Tableau α) := do
  let value ← entry ya nearest
  return ⟨ya, ya, (nearest : Int) - 1, value, Scalar.zero⟩

/-- The value at `x` of the polynomial through a table, from its closest entry. -/
def evaluate (coincide : Nat → α → Nat → α → Fault α) (xa ya : List α) (x : α) (nearest : Nat) :
    Except (Fault α) (Estimate α) := do
  let t ← stages coincide xa x (xa.length - 1) 1 (← start ya nearest)
  return ⟨t.value, t.correction⟩

/-! ### The two forms -/

/-- The polynomial through a table; coinciding abscissas are told with their
places. -/
def interpolate (xa ya : List α) (x : α) : Except (Fault α) (Estimate α) :=
  if xa.length = 0 ∨ ya.length ≠ xa.length then
    .error (.dimensionMismatch (.tableLengths xa.length ya.length))
  else evaluate .singularStencil xa ya x (closestOrNaN xa x)

/-- The polynomial through a table; it is not told which abscissas coincide. -/
def interpolateTersely (xa ya : List α) (x : α) : Except (Fault α) (Estimate α) :=
  if xa.length = 0 ∨ ya.length ≠ xa.length then
    .error (.dimensionMismatch .tableShapes)
  else evaluate (fun _ _ _ _ => .singularTable) xa ya x (closest xa x)

/-! ### Tables of blocks -/

/-- What comes of a table whose abscissas or ordinates are blocks of numbers, with the
query closest to number `nearest` of all abscissas.  One ordinate is its own
polynomial; a tableau of blocks breaks off at its first gap. -/
def evaluateBlocks (xa ya : NdArray α) (x : α) (nearest : Nat) : Except (Fault α) (Estimate α) := do
  let value ← ya.numberAt nearest
  match xa.shape, xa.toList with
  | n :: block, near :: far :: _ =>
    if n = 1 then return ⟨value, Scalar.zero⟩
    else if volume block ≠ 1 then throw (.invalidArgument (.blocksCompared false))
    else if Scalar.eq (near - x - (far - x)) Scalar.zero then throw (.singularStencil 0 near 1 far)
    else throw (.invalidArgument .blockForEntry)
  | _, _ => return ⟨value, Scalar.zero⟩

/-- The polynomial through a table of arrays, which have a first dimension of one
length. -/
def interpolateArrays (xa ya : NdArray α) (x : α) : Except (Fault α) (Estimate α) :=
  match xa.shape, ya.shape with
  | [_], [_] => interpolate xa.toList ya.toList x
  | n :: _, m :: _ =>
    if n = 0 ∨ m ≠ n then .error (.dimensionMismatch (.tableLengths n m))
    else if xa.size = 0 then .error (.invalidArgument .nothingClosest)
    else evaluateBlocks xa ya x (closestOrNaN xa.toList x)
  | _, _ => .error (.wrongType .numberForRow)

/-- The shape of an array, where a single number is a row of one. -/
def rowShape (a : NdArray α) : List Nat := if a.rank = 0 then [1] else a.shape

/-- The polynomial through a table of arrays, which have the same shape; it is not
told which abscissas coincide, and there is no form for blocks.  `unfit` is the fault
of arrays of a rank above one. -/
def interpolateArraysTersely (unfit : Nat → Fault α) (xa ya : NdArray α) (x : α) :
    Except (Fault α) (Estimate α) :=
  if xa.size = 0 ∨ rowShape xa ≠ rowShape ya then .error (.dimensionMismatch .tableShapes)
  else if xa.rank ≤ 1 then interpolateTersely xa.toList ya.toList x
  else .error (unfit xa.rank)

end Neville

/-! ## The window of a stencil -/

namespace Stencil

variable {α : Type} [Scalar α]

/-- The first point of the window around bracket `idx` of a grid of `n` points,
where the stencil fits the grid and the bracket is one of it.

The adaptive stencil adds the lower neighbour when the position is in the lower half
of the bracket, and the upper one otherwise, as far as there is one.  The others
begin one point below the bracket. -/
def first (s : Stencil) (n : Int) (p : Position α) : Int :=
  match s with
  | adaptive3 =>
    if (Scalar.le p.fraction Scalar.half && decide (0 < p.idx)) || p.idx == n - 2 then p.idx - 1
    else p.idx
  | _ => min (max (p.idx - 1) 0) (n - s.size)

/-- The first point of the window for a position on a grid of `n` points.  A stencil
without a name is refused, then one with more points than the grid, then a bracket
that is none of the grid. -/
def window (s : Option Stencil) (n : Int) (p : Position α) : Except (Fault α) Int :=
  match s with
  | none => .error (.invalidArgument .unknownStencil)
  | some s =>
    if n < s.size then .error (.dimensionMismatch (.stencilPoints s n))
    else if ¬ (0 ≤ p.idx ∧ p.idx ≤ n - 2) then .error (.outOfRange (.noBracket p.idx (n - 2)))
    else .ok (s.first n p)

end Stencil

/-! ## The polynomial of a stencil -/

namespace Polynomial

variable {α : Type} [Scalar α]

/-- `count` entries from a place on. -/
def stretch (start : Int) (count : Nat) (xs : List α) : List α :=
  (xs.drop start.toNat).take count

/-- The least number of points of a grid for a stencil. -/
def leastPoints (s : Option Stencil) : Int :=
  max Grid.polynomialPoints ((s.map Stencil.size).getD 0 : Nat)

/-- The polynomial of a stencil, evaluated at a query, with its estimated error. -/
def interpolate (x y : NdArray α) (query : α) (p : Position α) (s : Option Stencil) :
    Except (Fault α) (Estimate α) := do
  let grid ← Grid.ofArray "x" x
  if y.shape ≠ [grid.length] then
    throw (.dimensionMismatch (.pointsAndValues grid.length y.size))
  let _ ← Grid.checkReference (leastPoints s) "" grid
  let start ← Stencil.window s grid.length p
  let count := (s.map Stencil.size).getD 0
  Neville.interpolate (stretch start count grid) (stretch start count y.toList) query

end Polynomial
end Regrid
