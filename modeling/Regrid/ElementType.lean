/-!
# Element types

An output container holds numbers of one type, and every type is of a kind.  The
kinds stand in an order, from truth values to complex numbers.  Numbers of one type
may be put in the place of those of another if the kind stays the same or becomes a
later one; how many bits there are makes no difference, so digits may be lost.

Results are double precision numbers.  A container takes them if it holds real
numbers or complex ones, of any precision, and refuses them if it holds integers or
truth values (`ElementType.takesDoubles_iff`).
-/
namespace Regrid

/-- The kinds of numbers. -/
inductive NumberKind where
  | boolean
  | unsigned
  | signed
  | real
  | complex
deriving DecidableEq, Repr

/-- The place of a kind in their order. -/
def NumberKind.place : NumberKind → Nat
  | boolean => 0
  | unsigned => 1
  | signed => 2
  | real => 3
  | complex => 4

/-- **The type of the numbers in a container.** -/
inductive ElementType where
  | bool
  | uint8
  | uint16
  | uint32
  | uint64
  | int8
  | int16
  | int32
  | int64
  | half
  | single
  | double
  /-- More digits than double precision numbers have. -/
  | extended
  | complexSingle
  | complexDouble
  | complexExtended
deriving DecidableEq, Repr

namespace ElementType

/-- Every element type. -/
def all : List ElementType :=
  [bool, uint8, uint16, uint32, uint64, int8, int16, int32, int64, half, single, double, extended,
    complexSingle, complexDouble, complexExtended]

/-- The name of an element type.  It counts the bits of a number, for a complex one
those of both parts. -/
def name : ElementType → String
  | bool => "bool"
  | uint8 => "uint8"
  | uint16 => "uint16"
  | uint32 => "uint32"
  | uint64 => "uint64"
  | int8 => "int8"
  | int16 => "int16"
  | int32 => "int32"
  | int64 => "int64"
  | half => "float16"
  | single => "float32"
  | double => "float64"
  | extended => "float128"
  | complexSingle => "complex64"
  | complexDouble => "complex128"
  | complexExtended => "complex256"

/-- The element type of a name. -/
def named (s : String) : Option ElementType := all.find? fun t => t.name == s

/-- The kind of the numbers of a type. -/
def kind : ElementType → NumberKind
  | bool => .boolean
  | uint8 | uint16 | uint32 | uint64 => .unsigned
  | int8 | int16 | int32 | int64 => .signed
  | half | single | double | extended => .real
  | complexSingle | complexDouble | complexExtended => .complex

/-- Numbers of one type may be put in the place of those of another if their kind
does not come later. -/
def castsTo (source target : ElementType) : Bool :=
  decide (source.kind.place ≤ target.kind.place)

/-- The types of containers that results may be put in. -/
def takesDoubles (t : ElementType) : Bool := double.castsTo t

/-- **Results are taken by real and by complex numbers**, and by no others. -/
theorem takesDoubles_iff {t : ElementType} :
    t.takesDoubles = true ↔ t.kind = .real ∨ t.kind = .complex := by
  rw [takesDoubles, castsTo, decide_eq_true_iff]
  cases t.kind with
  | boolean => decide
  | unsigned => decide
  | signed => decide
  | real => decide
  | complex => decide

end ElementType

end Regrid
