import Regrid.NdArray

/-!
# Output containers

A caller may hand in a container of his own for a result.  It takes the result
only if it has the shape of the result and an element type that double precision
numbers may be cast to; the shape is looked at first.  Then its whole contents are
replaced.  A container of single or half precision rounds every number, and one for
complex numbers gets them as real parts, with nought for the imaginary ones.
-/
namespace Regrid

/-- **A container**: an array of numbers of one type. -/
structure Container (α : Type) where
  element : ElementType
  /-- The numbers, for complex ones their real parts. -/
  contents : NdArray α
  /-- The imaginary parts, which are nought for numbers that are not complex. -/
  imaginary : NdArray α
  imaginary_shape : imaginary.shape = contents.shape

namespace Container

variable {α : Type} [Scalar α]

/-- A container of real numbers, whatever its type. -/
def ofReals (element : ElementType) (contents : NdArray α) : Container α :=
  ⟨element, contents, contents.map fun _ => Scalar.zero, rfl⟩

/-- A container full of noughts. -/
def zeros (element : ElementType) (shape : List Nat) : Container α :=
  ofReals element (NdArray.replicate shape Scalar.zero)

/-- What a number is in a container of a type. -/
def kept (element : ElementType) (x : α) : α :=
  match element with
  | .half => Scalar.halfPrecision x
  | .single | .complexSingle => Scalar.single x
  | _ => x

/-- What an array is in a container of a type. -/
def rounded (element : ElementType) (a : NdArray α) : NdArray α := a.map (kept element)

/-- Double precision numbers are kept as they are in a container for them. -/
@[simp] theorem rounded_double (a : NdArray α) : rounded .double a = a := by
  have hdata : a.data.map (kept .double) = a.data := Array.map_id' a.data
  simp only [rounded, NdArray.map, hdata]

/-- The contents after a result is put in, or why it cannot be: `misfit` words a
wrong shape and `unfit` a wrong type. -/
def contentsAfter (c : Container α) (misfit : List Nat → List Nat → ShapeFault)
    (unfit : ElementType → ShapeFault) (result : NdArray α) : Except (Fault α) (NdArray α) :=
  if c.contents.shape ≠ result.shape then
    .error (.dimensionMismatch (misfit c.contents.shape result.shape))
  else if c.element.takesDoubles then .ok (rounded c.element result)
  else .error (.dimensionMismatch (unfit c.element))

/-- The result itself, where there is no container for it. -/
def deliver (out : Option (Container α)) (misfit : List Nat → List Nat → ShapeFault)
    (unfit : ElementType → ShapeFault) (result : NdArray α) : Except (Fault α) (NdArray α) :=
  match out with
  | none => .ok result
  | some c => c.contentsAfter misfit unfit result

@[simp] theorem deliver_none (misfit : List Nat → List Nat → ShapeFault)
    (unfit : ElementType → ShapeFault) (result : NdArray α) :
    deliver none misfit unfit result = .ok result := rfl

/-- A container takes a result exactly when shape and type are right. -/
theorem contentsAfter_eq_ok_iff (c : Container α) (misfit : List Nat → List Nat → ShapeFault)
    (unfit : ElementType → ShapeFault) (result new : NdArray α) :
    c.contentsAfter misfit unfit result = .ok new ↔
      c.contents.shape = result.shape ∧ c.element.takesDoubles = true ∧
        new = rounded c.element result := by
  unfold contentsAfter
  split
  · next h => simp [h]
  · next h =>
    split
    · next h' =>
      simp only [Except.ok.injEq]
      exact ⟨fun e => ⟨Decidable.not_not.1 h, h', e.symm⟩, fun e => e.2.2.symm⟩
    · next h' => simp [h']

end Container

end Regrid
