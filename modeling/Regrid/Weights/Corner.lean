import Regrid.Fault

/-!
# The corners of a cell

On `n` axes a position lies in a cell whose corners double in number with every
axis.  A corner is a number of `n` bits, one per axis: bit nought is the lower grid
point of the axis, bit one the upper one.  The first axis has the most significant
bit, so along the enumeration of the corners the last axis changes fastest.

The table of all bits is what the sampler addresses the field through.
-/
namespace Regrid
namespace Corner

/-- The number of corners of a cell on `n` axes. -/
def count : Nat → Nat
  | 0 => 1
  | n + 1 => 2 * count n

@[simp] theorem count_zero : count 0 = 1 := rfl

@[simp] theorem count_succ (n : Nat) : count (n + 1) = 2 * count n := rfl

/-- The bit of an axis in the number of a corner, among `n` axes: behind it are as
many bits as there are later axes. -/
def bit (n corner axis : Nat) : Nat := corner / count (n - 1 - axis) % 2

/-- The bits of one corner, first axis first. -/
def bits (n corner : Nat) : List Nat := (List.range n).map (bit n corner)

/-- The bits of all corners, in the order of their numbers. -/
def offsets (n : Nat) : List (List Nat) := (List.range (count n)).map (bits n)

@[simp] theorem length_bits (n corner : Nat) : (bits n corner).length = n := by simp [bits]

@[simp] theorem length_offsets (n : Nat) : (offsets n).length = count n := by simp [offsets]

/-- Three axes: the last one changes fastest. -/
example : offsets 3 =
    [[0, 0, 0], [0, 0, 1], [0, 1, 0], [0, 1, 1], [1, 0, 0], [1, 0, 1], [1, 1, 0], [1, 1, 1]] := by
  decide

/-- The table for a number of axes that is given as an integer; there must be one. -/
def table {α : Type} (n : Int) : Except (Fault α) (List (List Nat)) :=
  if n < 1 then .error (.dimensionMismatch .noAxis) else .ok (offsets n.toNat)

end Corner
end Regrid
