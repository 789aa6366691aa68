import Regrid.Grid.Reference

/-!
# The bracket scan

A bracket is a pair of neighbouring grid points.  The scan carries one bracket
along the queries: for each query it moves the bracket one grid point at a time
until it holds the query, and starts the next query from there.  A query beyond an
end of the grid stays with the end bracket, and a query on a grid point keeps the
bracket if that holds it.  So sorted or nearly sorted queries cost a step or two
each, and which of two brackets a query on a grid point gets depends on the
queries before it.

The bracket keeps its two end points, so that most queries look at the grid not at
all.  The grid is seen only through `read`, which may refuse an index; the scan is
the same whatever the grid holds and whatever the comparisons answer.

There are two forms of the walk.  `Walk.stepping` moves first and then asks whether
to go on; `Walk.asking` asks before every move.
-/
namespace Regrid

/-- **A bracket**: the index of its first point, and both points. -/
structure Bracket (α : Type) where
  index : Int
  lower : α
  upper : α
deriving Repr

namespace Locate

variable {α : Type} [Scalar α]

/-- The factor that makes a grid of a direction ascending. -/
def sign : Direction → α
  | .ascending => Scalar.ofInt 1
  | .descending => Scalar.ofInt (-1)

/-- `x` comes before `y` along the direction. -/
def precedes (d : Direction) (x y : α) : Bool := Scalar.lt (sign d * x) (sign d * y)

/-- `x` comes after `y` along the direction. -/
def succeeds (d : Direction) (x y : α) : Bool := Scalar.lt (sign d * y) (sign d * x)

/-- **How a bracket is moved**: from one index towards the front of the grid until
the point there is not beyond the query, and towards the end likewise.  Each gives
the index it stops at and the point that it has looked at last. -/
structure Walk (α : Type) where
  /-- Down from the index of the bracket, which is not nought. -/
  down : (Int → Except (Fault α) α) → (α → Bool) → Int → Except (Fault α) (Int × α)
  /-- Up from the index of the bracket, which is less than `last`. -/
  up : (Int → Except (Fault α) α) → (α → Bool) → Int → Int → Except (Fault α) (Int × α)

/-! ## Moving first -/

/-- The bracket has been moved to `index`; it goes on while the query is still in
front of its lower point, but not below nought. -/
def descend (read : Int → Except (Fault α) α) (before : α → Bool) :
    Nat → Except (Fault α) (Int × α)
  | 0 => do
    let lower ← read 0
    return (0, lower)
  | index + 1 => do
    let lower ← read (index + 1 : Nat)
    if before lower then descend read before index else return ((index + 1 : Nat), lower)

/-- The bracket has been moved to `index`, with `room` brackets above it; it goes on
while the query is still behind its upper point. -/
def ascend (read : Int → Except (Fault α) α) (behind : α → Bool) :
    Nat → Int → Except (Fault α) (Int × α)
  | 0, index => do
    let upper ← read (index + 1)
    return (index, upper)
  | room + 1, index => do
    let upper ← read (index + 1)
    if behind upper then ascend read behind room (index + 1) else return (index, upper)

/-! ## Asking first -/

/-- The bracket is at `index` with the given lower point; it moves down as long as
the query is in front of that. -/
def whileBefore (read : Int → Except (Fault α) α) (before : α → Bool) :
    Nat → α → Except (Fault α) (Int × α)
  | 0, lower => return (0, lower)
  | index + 1, lower =>
    if before lower then do
      let next ← read index
      whileBefore read before index next
    else return ((index + 1 : Nat), lower)

/-- The bracket is at `index` with the given upper point and `room` brackets above
it; it moves up as long as the query is behind that. -/
def whileBehind (read : Int → Except (Fault α) α) (behind : α → Bool) :
    Nat → Int → α → Except (Fault α) (Int × α)
  | 0, index, upper => return (index, upper)
  | room + 1, index, upper =>
    if behind upper then do
      let next ← read (index + 1 + 1)
      whileBehind read behind room (index + 1) next
    else return (index, upper)

omit [Scalar α] in
/-- Both ways down end at the same bracket. -/
theorem descend_eq_whileBefore (read : Int → Except (Fault α) α) (before : α → Bool)
    (index : Nat) :
    descend read before index = read index >>= whileBefore read before index := by
  induction index with
  | zero => rfl
  | succ n ih =>
    simp only [descend]
    congr 1
    funext lower
    simp only [whileBefore]
    split
    · exact ih
    · rfl

omit [Scalar α] in
/-- Both ways up end at the same bracket. -/
theorem ascend_eq_whileBehind (read : Int → Except (Fault α) α) (behind : α → Bool)
    (room : Nat) (index : Int) :
    ascend read behind room index = read (index + 1) >>= whileBehind read behind room index := by
  induction room generalizing index with
  | zero => rfl
  | succ n ih =>
    simp only [ascend]
    congr 1
    funext upper
    simp only [whileBehind]
    split
    · exact ih (index + 1)
    · rfl

/-- **Move, then ask.** -/
def Walk.stepping : Walk α where
  down read before index := descend read before (index - 1).toNat
  up read behind last index := ascend read behind (last - (index + 1)).toNat (index + 1)

/-- **Ask, then move**, after a first move. -/
def Walk.asking : Walk α where
  down read before index := do
    let lower ← read ((index - 1).toNat : Int)
    whileBefore read before (index - 1).toNat lower
  up read behind last index := do
    let upper ← read (index + 1 + 1)
    whileBehind read behind (last - (index + 1)).toNat (index + 1) upper

omit [Scalar α] in
/-- The two forms of the walk are one. -/
theorem Walk.asking_eq_stepping : (Walk.asking : Walk α) = Walk.stepping := by
  simp only [Walk.asking, Walk.stepping, Walk.mk.injEq]
  constructor
  · funext read before index
    exact (descend_eq_whileBefore read before _).symm
  · funext read behind last index
    exact (ascend_eq_whileBehind read behind _ _).symm

/-! ## The scan -/

/-- The bracket for one query, from the bracket for the one before, on a grid of
`n` points. -/
def moveTo (w : Walk α) (read : Int → Except (Fault α) α) (n : Int) (d : Direction)
    (b : Bracket α) (x : α) : Except (Fault α) (Bracket α) :=
  if precedes d x b.lower && decide (0 < b.index) then do
    let (index, lower) ← w.down read (precedes d x) b.index
    let upper ← read (index + 1)
    return ⟨index, lower, upper⟩
  else if succeeds d x b.upper && decide (b.index < n - 2) then do
    let (index, upper) ← w.up read (succeeds d x) (n - 2) b.index
    let lower ← read index
    return ⟨index, lower, upper⟩
  else return b

/-- The brackets of the queries, each from the one before. -/
def brackets (w : Walk α) (read : Int → Except (Fault α) α) (n : Int) (d : Direction) :
    Bracket α → List α → Except (Fault α) (List (Bracket α))
  | _, [] => return []
  | b, x :: rest => do
    let here ← moveTo w read n d b x
    let further ← brackets w read n d here rest
    return here :: further

/-- The bracket at an index. -/
def bracketAt (read : Int → Except (Fault α) α) (index : Int) : Except (Fault α) (Bracket α) := do
  let lower ← read index
  let upper ← read (index + 1)
  return ⟨index, lower, upper⟩

/-- The fraction of a query in its bracket: nought at the lower point, one at the
upper one. -/
def fractionIn (b : Bracket α) (x : α) : Except (Fault α) α :=
  divide (x - b.lower) (b.upper - b.lower)

/-- The index and the fraction of every query. -/
def fractions : List (Bracket α) → List α → Except (Fault α) (List (Int × α))
  | b :: bs, x :: xs => do
    let fraction ← fractionIn b x
    let rest ← fractions bs xs
    return (b.index, fraction) :: rest
  | _, _ => return []

/-- The point of a grid at an index, which may count from the end. -/
def pointAt (points : Array α) (index : Int) : Except (Fault α) α :=
  orBadIndex ((Index.resolve points.size index).bind (points[·]?))

/-- The scan: index and fraction of each query, from the bracket at `start`. -/
def scan (w : Walk α) (old : List α) (d : Direction) (start : Int) (new : List α) :
    Except (Fault α) (List (Int × α)) := do
  let points := old.toArray
  let first ← bracketAt (pointAt points) start
  let found ← brackets w (pointAt points) old.length d first new
  fractions found new

/-- The scan of arrays.  A block of numbers is no query and no point; without a
query only the bracket at `start` is looked up. -/
def scanArrays (w : Walk α) (old : NdArray α) (d : Direction) (start : Int) (new : NdArray α) :
    Except (Fault α) (List (Int × α)) :=
  match old.shape, new.shape with
  | [_], [_] => scan w old.toList d start new.toList
  | n :: _, queries :: _ => do
    let _ ← orBadIndex (Index.resolve n start)
    let _ ← orBadIndex (Index.resolve n (start + 1))
    if queries = 0 then return [] else throw (.wrongType .blockForNumber)
  | _, _ => throw (.wrongType .numberForRow)

end Locate
end Regrid
