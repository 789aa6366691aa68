import Regrid.Decimal.Shortest
import Regrid.Position

/-!
# How numbers and positions are written

A finite number is written with the digits of its shortest decimal: with a point
in its place when its decimal exponent is of moderate size, and otherwise as one
digit, the rest behind the point, and an exponent.  The choices are one record,
`Layout`; `Layout.plain` is the one that messages and reports use.  A position is
written as its index, its fraction and the complement, with blanks between them.
-/
namespace Regrid

/-- **The choices of a number format.** -/
structure Layout where
  /-- The least decimal exponent that is written with a point in its place. -/
  leastPositional : Int
  /-- The least decimal exponent beyond those. -/
  pastPositional : Int
  /-- The least number of digits of a written exponent. -/
  exponentWidth : Nat
  /-- How a value that is no number is written. -/
  nan : String
  /-- How infinity is written. -/
  infinity : String

/-- Numbers from `0.0001` up to `1e16` have their point in place, and an exponent
has two digits at least. -/
def Layout.plain : Layout :=
  { leastPositional := -4
    pastPositional := 16
    exponentWidth := 2
    nan := "nan"
    infinity := "inf" }

namespace Layout

variable (l : Layout)

/-- The decimal digits of a natural number. -/
def digitsOf (n : Nat) : List Char := Nat.toDigits 10 n

/-- A text filled up with noughts on the left. -/
def padded (width : Nat) (digits : List Char) : List Char :=
  List.replicate (width - digits.length) '0' ++ digits

/-- A sign and at least `exponentWidth` digits. -/
def exponentText (e : Int) : List Char :=
  (if e < 0 then '-' else '+') :: padded l.exponentWidth (digitsOf e.natAbs)

/-- The digits of a number with the point in its place, and a nought on each
side of the point where no digit is. -/
def positional (digits : List Char) (exponent : Int) : List Char :=
  let whole := exponent + digits.length
  if whole ≤ 0 then
    '0' :: '.' :: (List.replicate (-whole).toNat '0' ++ digits)
  else if exponent < 0 then
    digits.take whole.toNat ++ '.' :: digits.drop whole.toNat
  else
    digits ++ List.replicate exponent.toNat '0' ++ ['.', '0']

/-- One digit before the point, the rest behind it, and the exponent. -/
def scientific (digits : List Char) (exponent : Int) : List Char :=
  match digits with
  | [] => []
  | [d] => d :: 'e' :: l.exponentText exponent
  | d :: rest => d :: '.' :: (rest ++ 'e' :: l.exponentText exponent)

/-- The written form of a positive decimal. -/
def ofDecimal (d : Decimal) : List Char :=
  let digits := digitsOf d.digits
  let magnitude := d.exponent + digits.length - 1
  if l.leastPositional ≤ magnitude ∧ magnitude < l.pastPositional then
    positional digits d.exponent
  else
    l.scientific digits magnitude

/-- The written form of a reading; a nought keeps its sign. -/
def ofReading : Reading → String
  | .nan => l.nan
  | .infinite negative => if negative then "-" ++ l.infinity else l.infinity
  | .finite negative m q =>
    let text := if m = 0 then ['0', '.', '0'] else l.ofDecimal (Decimal.shortest m q)
    String.ofList (if negative then '-' :: text else text)

end Layout

/-- The text of a double in messages. -/
def realText (x : Float) : String := Layout.plain.ofReading (Reading.ofFloat x)

/-- The text of a position. -/
def Position.text (p : Position Float) : String :=
  toString p.idx ++ " " ++ realText p.fraction ++ " " ++ realText p.complement

/-! ## The limits of the plain layout -/

/-- The point stays in its place up to sixteen digits before it. -/
example : Layout.plain.ofDecimal ⟨1, 15⟩ = "1000000000000000.0".toList := by decide +kernel

/-- Beyond that the exponent is written. -/
example : Layout.plain.ofDecimal ⟨1, 16⟩ = "1e+16".toList := by decide +kernel

/-- Three noughts after the point are written. -/
example : Layout.plain.ofDecimal ⟨1, -4⟩ = "0.0001".toList := by decide +kernel

/-- Four noughts after the point are not. -/
example : Layout.plain.ofDecimal ⟨12, -6⟩ = "1.2e-05".toList := by decide +kernel

end Regrid
