import Regrid.Scalar

/-!
# Doubles as scalars

The running program computes with double precision numbers.  Every operation is
the machine's, rounded once.

A double is a 64-bit word: a sign, eleven bits of exponent and fifty-two bits of
fraction.  `Reading.ofBits` reads a word as what it stands for, and a finite number
as `± m · 2 ^ q` with a natural number `m`, so that the questions that need every
digit of the number are questions about natural numbers: its shortest decimal, its
nearest integer, which no machine word need hold, and the number of half precision
next to it.
-/
namespace Regrid

/-- **What a binary64 word stands for.** -/
inductive Reading where
  /-- Not a number. -/
  | nan
  /-- An infinity. -/
  | infinite (negative : Bool)
  /-- The number `significand · 2 ^ exponent`, or its opposite. -/
  | finite (negative : Bool) (significand : Nat) (exponent : Int)
deriving DecidableEq, Repr

namespace Reading

/-- The bit in front of the fraction, which is not stored. -/
def hiddenBit : Nat := 0x10000000000000

/-- The reading of a word.  A word with the least exponent has no hidden bit; one
with the greatest is no finite number. -/
def ofBits (word : UInt64) : Reading :=
  let bits : Nat := word.toNat
  let negative := bits >>> 63 == 1
  let exponent := (bits >>> 52) % 2048
  let fraction := bits % hiddenBit
  if exponent = 2047 then
    if fraction = 0 then .infinite negative else .nan
  else if exponent = 0 then
    .finite negative fraction (-1074)
  else
    .finite negative (hiddenBit + fraction) ((exponent : Int) - 1075)

/-- The reading of a double. -/
def ofFloat (x : Float) : Reading := ofBits x.toBits

end Reading

/-! ## Rounding a quotient -/

/-- The integer nearest to `num / den`, the even one of two. -/
def roundHalfEven (num den : Nat) : Nat :=
  let floor := num / den
  let twice := 2 * (num % den)
  if twice < den then floor
  else if den < twice then floor + 1
  else if floor % 2 = 0 then floor else floor + 1

/-- A quotient that is a half above an even number goes down, above an odd number up. -/
example : (roundHalfEven 5 2, roundHalfEven 7 2, roundHalfEven 9 4, roundHalfEven 11 4) =
    (2, 4, 2, 3) := by decide

/-- The integer nearest to `significand · 2 ^ exponent`, the even one of two. -/
def nearestNat (significand : Nat) (exponent : Int) : Nat :=
  if 0 ≤ exponent then significand <<< exponent.toNat
  else roundHalfEven significand (1 <<< (-exponent).toNat)

/-- The integer nearest to a double. -/
def Reading.nearest : Reading → Option Int
  | .finite negative m q =>
    let n : Int := nearestNat m q
    some (if negative then -n else n)
  | _ => none

/-- The nearest integer of a reading, or why there is none. -/
def Reading.integer (r : Reading) : Except NoInteger Int :=
  match r.nearest with
  | some n => .ok n
  | none => .error (if r = .nan then .nan else .infinite)

/-! ## Half precision -/

namespace Reading

/-- The number of half precision next to a number, the even one of two.  Its
significand has eleven bits, and fewer where its last bit would stand for less than
`2 ^ -24`.  What is rounded to `2 ^ 16` or more is infinite. -/
def inHalf : Reading → Reading
  | finite negative m q =>
    let unit := max (q + m.log2 - 10) (-24)
    let n := nearestNat m (q - unit)
    if 16 ≤ n.log2 + unit then infinite negative else finite negative n unit
  | r => r

/-- The double that a reading stands for, where it stands for one. -/
def toFloat : Reading → Float
  | nan => 0.0 / 0.0
  | infinite negative => if negative then -1.0 / 0.0 else 1.0 / 0.0
  | finite negative m q =>
    let size := (Float.ofNat m).scaleB q
    if negative then -size else size

/-- The greatest number of half precision is 65504, and from 65520 on there is none. -/
example : (finite false 65519 0).inHalf = finite false 2047 5 ∧
    (finite false 65520 0).inHalf = infinite false := by decide +kernel

end Reading

/-! ## The operations -/

/-- Doubles are scalars. -/
instance : Scalar Float where
  ofInt := Float.ofInt
  lt x y := decide (x < y)
  le x y := decide (x ≤ y)
  eq x y := x == y
  isNaN := Float.isNaN
  isFinite := Float.isFinite
  log := Float.log
  nearest x := (Reading.ofFloat x).integer
  single x := x.toFloat32.toFloat
  halfPrecision x := (Reading.ofFloat x).inHalf.toFloat

end Regrid
