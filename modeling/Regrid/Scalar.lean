/-!
# Scalars

Grids, fields and weights are made of numbers, and everything the library does
with a number is one of the operations below.  A `Scalar` carries the operations
and **no laws**: the binary floating point numbers that the program runs on
satisfy few of the laws of arithmetic, and their comparisons are false on both
sides of a NaN.  What holds of every scalar therefore holds of the running
program, bit for bit; what needs exact arithmetic is said of the scalars of an
ordered field.

Comparisons are Boolean.  `Scalar.lt a b = false` does not mean that `b` is at
most `a`, since one of them may not be a number.
-/
namespace Regrid

/-- **Why a scalar has no nearest integer.** -/
inductive NoInteger where
  /-- It is not a number. -/
  | nan
  /-- It is infinite. -/
  | infinite
deriving DecidableEq, Repr

/-- **The operations on numbers**, without any law. -/
class Scalar (α : Type) extends Add α, Sub α, Mul α, Div α where
  /-- The scalar of an integer, rounded where the integer has no exact one. -/
  ofInt : Int → α
  /-- The test `a < b`; false when an operand is not a number. -/
  lt : α → α → Bool
  /-- The test `a ≤ b`; false when an operand is not a number. -/
  le : α → α → Bool
  /-- The test `a = b`; false when an operand is not a number. -/
  eq : α → α → Bool
  /-- Not a number at all. -/
  isNaN : α → Bool
  /-- A number, and not an infinite one. -/
  isFinite : α → Bool
  /-- The natural logarithm. -/
  log : α → α
  /-- The nearest integer, the even one of two. -/
  nearest : α → Except NoInteger Int
  /-- The value after a round trip through a single precision container. -/
  single : α → α
  /-- The value after a round trip through a half precision container. -/
  halfPrecision : α → α

namespace Scalar

variable {α : Type} [Scalar α]

/-- Nought. -/
abbrev zero : α := ofInt 0

/-- One. -/
abbrev one : α := ofInt 1

/-- One half. -/
def half : α := ofInt 1 / ofInt 2

/-- One part in `n`. -/
def reciprocal (n : Int) : α := ofInt 1 / ofInt n

/-- The distance from nought. -/
def abs (x : α) : α := if lt x zero then zero - x else x

/-- The test `x ≠ y`, true when an operand is not a number. -/
def ne (x y : α) : Bool := !eq x y

/-- The least entry, the last of equals; the two noughts are equal. -/
def least (x : α) (xs : List α) : α := xs.foldl (fun m y => if lt m y then m else y) x

/-- The greatest entry, the last of equals. -/
def greatest (x : α) (xs : List α) : α := xs.foldl (fun m y => if lt y m then m else y) x

/-- The differences of neighbours. -/
def diffs (xs : List α) : List α := List.zipWith (fun x y => y - x) xs xs.tail

@[simp] theorem length_diffs (xs : List α) : (diffs xs).length = xs.length - 1 := by
  simp [diffs]

end Scalar

end Regrid
