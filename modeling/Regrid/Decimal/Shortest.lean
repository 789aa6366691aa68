import Regrid.Scalar.Double

/-!
# The shortest decimal of a binary number

Many decimals read back as one and the same double: all those in the interval
between the midpoints to its two neighbours.  `Decimal.shortest` chooses the one
with the fewest digits, and of those with equally many the one nearest to the
number itself.

The search walks through the grids of the multiples of `10 ^ s`, from a coarse
one to finer ones.  On each grid only the two neighbours of the number can be in
the interval if any point of that grid is, so the first grid with a neighbour in
the interval is the coarsest one that can express the number.
-/
namespace Regrid

/-- **The number `digits · 10 ^ exponent`.** -/
structure Decimal where
  digits : Nat
  exponent : Int
deriving DecidableEq, Repr

namespace Decimal

/-- **The decimals that read back as one double**, in units of `2 ^ unit`: the
points between `low` and `high` round to the number `centre`, and the ends round
to it too when `closed`. -/
structure Basin where
  low : Nat
  centre : Nat
  high : Nat
  unit : Int
  closed : Bool
deriving DecidableEq, Repr

/-- The basin of `significand · 2 ^ exponent`.  Below a power of two the
neighbours are twice as close, unless the power is the least normal one.  A
midpoint rounds to the even significand. -/
def Basin.of (significand : Nat) (exponent : Int) : Basin :=
  let halved := significand = Reading.hiddenBit ∧ -1074 < exponent
  { low := if halved then 4 * significand - 1 else 4 * significand - 2
    centre := 4 * significand
    high := 4 * significand + 2
    unit := exponent - 2
    closed := significand % 2 = 0 }

/-- The powers of ten. -/
def powerOfTen (n : Nat) : Nat := Nat.pow 10 n

/-- The scales that put the grid of step `10 ^ step` and the basin on common
units: a grid number `d` and a basin number `c` are compared as `d * scales.1`
and `c * scales.2`. -/
def scales (step unit : Int) : Nat × Nat :=
  (powerOfTen step.toNat <<< (-unit).toNat, powerOfTen (-step).toNat <<< unit.toNat)

/-- The test that a point, given on the common units, reads back as the number. -/
def Basin.holds (b : Basin) (scale point : Nat) : Bool :=
  if b.closed then decide (b.low * scale ≤ point) && decide (point ≤ b.high * scale)
  else decide (b.low * scale < point) && decide (point < b.high * scale)

/-- The nearest point of one grid that reads back, the even one of two. -/
def onGrid (b : Basin) (step : Int) : Option Nat :=
  let (grid, scale) := scales step b.unit
  let centre := b.centre * scale
  let below := centre / grid
  let above := below + 1
  match b.holds scale (below * grid), b.holds scale (above * grid) with
  | true, true =>
    let down := centre - below * grid
    let up := above * grid - centre
    if down < up then some below
    else if up < down then some above
    else if below % 2 = 0 then some below else some above
  | true, false => some below
  | false, true => some above
  | false, false => none

/-- The first grid with a point that reads back, from step `10 ^ step` downwards
through `fuel` more. -/
def search (b : Basin) : Nat → Int → Decimal
  | 0, step => ⟨(onGrid b step).getD 0, step⟩
  | fuel + 1, step =>
    match onGrid b step with
    | some digits => ⟨digits, step⟩
    | none => search b fuel (step - 1)

/-- The same number with no nought at the end of its digits. -/
def trim : Nat → Decimal → Decimal
  | 0, d => d
  | fuel + 1, d =>
    if d.digits ≠ 0 ∧ d.digits % 10 = 0 then trim fuel ⟨d.digits / 10, d.exponent + 1⟩ else d

/-- **The shortest decimal of `significand · 2 ^ exponent`**, for a positive
significand of at most fifty-three bits.  The first grid is coarser than the
number; within nineteen places every double has a decimal of its own. -/
def shortest (significand : Nat) (exponent : Int) : Decimal :=
  let magnitude := (significand.log2 : Int) + exponent
  let first := (magnitude + 1) * 30103 / 100000 + 1
  trim 20 (search (Basin.of significand exponent) 20 first)

/-- One tenth is `0x1.999999999999ap-4`, and one digit is enough for it. -/
example : shortest 7205759403792794 (-56) = ⟨1, -1⟩ := by decide +kernel

/-- The least positive double is named by one digit, and its double by one. -/
example : (shortest 1 (-1074), shortest 2 (-1074)) = (⟨5, -324⟩, ⟨1, -323⟩) := by decide +kernel

/-- Seventeen digits are needed after one tenth and two tenths are added. -/
example : shortest 5404319552844596 (-54) = ⟨30000000000000004, -17⟩ := by decide +kernel

end Decimal

end Regrid
