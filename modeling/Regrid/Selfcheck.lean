import Regrid.Backend

/-!
# The self-check

Every backend must give what the reference gives, weights must sum to one, and a
field must be reproduced at its own grid points.  The self-check measures all three
on grids, fields and queries drawn at random, for fields of several ranks, and
reports the greatest deviations.
-/
namespace Regrid

/-! ## Pseudo-random numbers

The numbers are drawn from a sequence of 64-bit words: the state advances by a fixed
odd step, so that it runs through all words, and each word is stirred before it is
used.  Equal seeds draw equal numbers. -/

/-- **The state of the generator.** -/
structure Random where
  state : UInt64
deriving DecidableEq, Repr

/-- A computation that draws numbers. -/
abbrev Draw := StateM Random

namespace Random

/-- The generator of a seed. -/
def ofSeed (seed : Nat) : Random := ⟨UInt64.ofNat seed⟩

/-- The bits of a word stirred. -/
def stir (w : UInt64) : UInt64 :=
  let a := (w ^^^ (w >>> 30)) * 0xbf58476d1ce4e5b9
  let b := (a ^^^ (a >>> 27)) * 0x94d049bb133111eb
  b ^^^ (b >>> 31)

/-- The next word. -/
def word : Draw UInt64 := fun r =>
  let state := r.state + 0x9e3779b97f4a7c15
  (stir state, ⟨state⟩)

variable {α : Type} [Scalar α]

/-- A number from nought to below one, of fifty-three random bits. -/
def unit : Draw α := do
  let w ← word
  return Scalar.ofInt (w >>> 11).toNat / Scalar.ofInt 0x20000000000000

/-- A number from `low` to `high`. -/
def between (low high : α) : Draw α := do
  return low + (high - low) * (← unit)

/-- The given number of numbers from `low` to `high`. -/
def many (low high : α) : Nat → Draw (List α)
  | 0 => return []
  | n + 1 => do
    let x ← between low high
    let rest ← many low high n
    return x :: rest

end Random

/-! ## What to check -/

namespace Selfcheck

/-- **What to check**: the ranks of the fields, the number of query points per rank,
the seed, the backends to compare (all that can be built if none is named), and the
number of points of each grid.  A seed may be left blank; a number of points or a name
may not, which is told when it is needed. -/
structure Options where
  ranks : List Int
  points : Option Int
  seed : Option Int
  backends : Option (List (Option String))
  gridPoints : Int
deriving DecidableEq, Repr

/-- Fields of up to four axes with five points each. -/
def Options.default : Options :=
  { ranks := [1, 2, 3, 4], points := some 64, seed := some 0, backends := none, gridPoints := 5 }

/-- **What was found**: the greatest deviation of a sum of weights from one, the
greatest error at the grid points, and the greatest difference from the reference for
each backend. -/
structure Report (α : Type) where
  ranks : List Int
  points : Int
  weightDeviation : α
  gridError : α
  differences : List (String × α)
deriving Repr

variable {α : Type} [Scalar α]

/-! ## Random data -/

/-- The points of a grid, from nought on with the given steps. -/
def pointsOf (x : α) : List α → List α
  | [] => [x]
  | step :: steps => x :: pointsOf (x + step) steps

/-- A grid of `n` points with steps around one, in either direction. -/
def randomGrid (n : Nat) : Draw (List α) := do
  let steps ← Random.many Scalar.half (Scalar.one + Scalar.half) (n - 1)
  let grid := pointsOf Scalar.zero steps
  let side : α ← Random.unit
  return if Scalar.lt side Scalar.half then grid.reverse else grid

/-- Queries within a grid. -/
def randomQueries (grid : List α) (n : Nat) : Draw (List α) :=
  match grid with
  | [] => return []
  | x :: rest => Random.many (Scalar.least x rest) (Scalar.greatest x rest) n

/-- A field of a shape. -/
def randomField (shape : List Nat) : Draw (Option (NdArray α)) := do
  let data ← Random.many (Scalar.ofInt (-3)) (Scalar.ofInt 3) (volume shape)
  return NdArray.ofData? shape data.toArray

/-- **The data of one rank**: grids, field, and queries along a path and onto a new
grid. -/
structure Trial (α : Type) where
  grids : List (List α)
  field : NdArray α
  path : List (List α)
  newGrids : List (List α)

/-- The data of a rank drawn at random; queries onto a new grid are sorted. -/
def randomTrial (rank points gridPoints : Nat) : Draw (Option (Trial α)) := do
  let grids ← (List.replicate rank ()).mapM fun _ => randomGrid gridPoints
  let field ← randomField (List.replicate rank gridPoints)
  let path ← grids.mapM fun g => randomQueries g points
  let newGrids ← grids.mapM fun g => do
    return (← randomQueries g 4).mergeSort Scalar.le
  return field.map fun f => ⟨grids, f, path, newGrids⟩

/-! ## Measuring -/

/-- The greatest absolute difference of two lists. -/
def difference (xs ys : List α) : α :=
  Scalar.greatest Scalar.zero (List.zipWith (fun x y => Scalar.abs (x - y)) xs ys)

/-- The greatest deviation of a number from one. -/
def deviation (xs : List α) : α := difference xs (xs.map fun _ => Scalar.one)

/-- The greater of two numbers. -/
def greater (x y : α) : α := Scalar.greatest x [y]

/-- Positions of queries in their grids. -/
def positions (b : Backend) (grids queries : List (List α)) : Except (Fault α) (List (Column α)) :=
  (grids.zip queries).mapM fun (g, q) =>
    b.locate (NdArray.vector g) (NdArray.vector q) Scalar.half (some .keep)

/-- The spot check that sampling makes by default. -/
def defaultCheck : SumCheck α := ⟨true, SumCheck.defaultTolerance⟩

/-- Values of a backend along the path and on the new grid, with the sums of the
weights along the path. -/
def measure (b : Backend) (t : Trial α) : Except (Fault α) (List α × List α × List α) := do
  let path ← positions b t.grids t.path
  let pathWeights ← Weights.blue path none
  let along ← b.sample pathWeights t.field (path.map .many) none defaultCheck
  let grid ← positions b t.grids t.newGrids
  let gridWeights ← Weights.green grid none
  let onto ← b.sample gridWeights t.field (grid.map .many) none defaultCheck
  return (along.toList, onto.toList, (Weights.sums pathWeights).toList)

/-- The field at its own grid points: the sums of the weights, and the error. -/
def measureGrid (t : Trial α) : Except (Fault α) (List α × α) := do
  let own ← positions .reference t.grids t.grids
  let weights ← Weights.green own none
  let values ← Backend.reference.sample weights t.field (own.map .many) none defaultCheck
  return ((Weights.sums weights).toList, difference values.toList t.field.toList)

/-- The report with what one rank has shown. -/
def checkRank (others : List (String × Backend)) (t : Trial α) (r : Report α) :
    Except (Fault α) (Report α) := do
  let (gridSums, error) ← measureGrid t
  let (along, onto, pathSums) ← measure .reference t
  let differences ← (r.differences.zip others).mapM fun ((name, worst), (_, b)) => do
    let (along', onto', _) ← measure b t
    return (name, greater worst (greater (difference along' along) (difference onto' onto)))
  return { r with
    weightDeviation := greater r.weightDeviation (greater (deviation gridSums) (deviation pathSums))
    gridError := greater r.gridError error
    differences := differences }

/-- The greatest number of axes of a field. -/
def mostAxes : Nat := 64

/-- The number of entries, eight bytes each, for which an address has no room. -/
def tooManyEntries : Nat := 0x1000000000000000

/-- A field is too large to be drawn. -/
def isTooLarge (rank gridPoints : Nat) : Bool :=
  decide (mostAxes < rank) ||
    decide (tooManyEntries ≤ volume (List.replicate rank gridPoints))

/-- The report after all ranks; there is no field without an axis. -/
def checkRanks (points gridPoints : Nat) (others : List (String × Backend)) :
    List Int → Random → Report α → Except (Fault α) (Report α)
  | [], _, report => return report
  | rank :: rest, r, report =>
    if rank < 1 then .error (.invalidArgument .noRank)
    else if isTooLarge rank.toNat gridPoints then .error (.invalidArgument .fieldTooLarge)
    else
      match randomTrial rank.toNat points gridPoints r with
      | (none, _) => .error .badIndex
      | (some t, r') => do
        let next ← checkRank others t report
        checkRanks points gridPoints others rest r' next

/-- A value that must not be left blank. -/
def given {β : Type} : Option β → Except (Fault α) β
  | some x => .ok x
  | none => .error (.wrongType .blank)

/-- The backends to compare with the reference, each name once. -/
def others (names : List (Option String)) : Except (Fault α) (List (String × Backend)) :=
  (names.filter (· != some Backend.reference.name)).eraseDups.mapM fun entry => do
    let name ← given entry
    return (name, ← Backend.buildNamed name)

/-- The self-check. -/
def run (o : Options) : Except (Fault α) (Report α) := do
  let points ← given o.points
  if points < 1 then
    throw (.invalidArgument .noPoints)
  if o.gridPoints < 2 then
    throw (.invalidArgument .tooFewGridPoints)
  let names := o.backends.getD (Backend.available.map fun b => some b.name)
  let seed := o.seed.getD 0
  if seed < 0 then
    throw (.invalidArgument .negativeSeed)
  let backends ← others names
  let start : Report α :=
    ⟨o.ranks, points, Scalar.zero, Scalar.zero, backends.map fun b => (b.1, Scalar.zero)⟩
  checkRanks points.toNat o.gridPoints.toNat backends o.ranks (Random.ofSeed seed.toNat) start

/-! ## Verdicts -/

/-- The greatest deviation of a sum of weights that is put down to rounding. -/
def weightTolerance : α := Scalar.reciprocal 1000000000000

/-- The greatest difference between backends that is put down to rounding. -/
def differenceTolerance : α := Scalar.reciprocal 10000000000

/-- The weights sum to one, up to rounding. -/
def Report.weightsSumToOne (r : Report α) : Bool := Scalar.lt r.weightDeviation weightTolerance

/-- The field is reproduced exactly at its grid points. -/
def Report.isExact (r : Report α) : Bool := Scalar.eq r.gridError Scalar.zero

/-- The backends that agree with the reference, up to rounding. -/
def Report.agreement (r : Report α) : List (String × Bool) :=
  r.differences.map fun d => (d.1, Scalar.lt d.2 differenceTolerance)

end Selfcheck
end Regrid
