import Regrid.Fault

/-!
# Grid positions

A position tells where a value lies relative to a reference grid: the index of a
grid point, how far the value is from there towards the next one, as a fraction of
their distance, and the complement of that fraction.  The fraction is the weight
of the upper point in a linear interpolation and the complement the weight of the
lower one.  Both are stored; a position made from a fraction (`Position.ofFraction`)
has the complement that makes one with it.

A grid point can be written in two ways, as the lower end of one bracket and as the
upper end of the one below; the questions about a position that are answered here
(`isAt`, `range`) do not depend on which of them it is.
-/
namespace Regrid

/-- **A position relative to a grid.** -/
structure Position (α : Type) where
  /-- The index of the lower grid point. -/
  idx : Int
  /-- The way from the lower point to the upper one, as a part of their distance. -/
  fraction : α
  /-- The rest of the way. -/
  complement : α
deriving DecidableEq, Repr

namespace Position

variable {α : Type} [Scalar α]

/-- The position with a fraction, and the complement that it leaves. -/
def ofFraction (idx : Int) (fraction : α) : Position α :=
  ⟨idx, fraction, Scalar.one - fraction⟩

/-- The position as one number: index and fraction together. -/
def fractional (p : Position α) : α := Scalar.ofInt p.idx + p.fraction

/-! ## Noise -/

/-- A tolerance is a positive number. -/
def checkTolerance (tolerance : α) : Except (Fault α) Unit :=
  if ¬ Scalar.isFinite tolerance ∨ Scalar.le tolerance Scalar.zero then
    .error (.invalidArgument (.tolerance tolerance))
  else .ok ()

/-- The default tolerance of fractional distances, one part in a thousand. -/
def defaultTolerance : α := Scalar.reciprocal 1000

/-- Outside the unit interval by the tolerance or more. -/
def isBad (tolerance x : α) : Bool :=
  Scalar.le x (Scalar.zero - tolerance) || Scalar.le (Scalar.one + tolerance) x

/-- The nearest point of the unit interval. -/
def clip (x : α) : α :=
  if Scalar.lt x Scalar.zero then Scalar.zero
  else if Scalar.lt Scalar.one x then Scalar.one
  else x

/-- The position with both distances moved into the unit interval. -/
def clipped (p : Position α) : Position α := ⟨p.idx, clip p.fraction, clip p.complement⟩

/-- One of the distances is beyond repair. -/
def deviates (tolerance : α) (p : Position α) : Bool :=
  isBad tolerance p.fraction || isBad tolerance p.complement

/-- Noise removed: the distances are moved into the unit interval, unless one is
outside it by the tolerance or more. -/
def clamp (tolerance : α) (p : Position α) : Except (Fault α) (Position α) := do
  checkTolerance tolerance
  if p.deviates tolerance then
    throw (.outOfRange (.deviates p.fraction p.complement tolerance))
  return p.clipped

/-- The nearer end of the bracket.  Halfway is the upper end. -/
def snap (p : Position α) : Position α :=
  if Scalar.lt p.fraction Scalar.half then ⟨p.idx, Scalar.zero, Scalar.one⟩
  else ⟨p.idx, Scalar.one, Scalar.zero⟩

/-! ## Questions -/

/-- **The position is exactly on grid point `i`.** -/
def isAt (p : Position α) (i : Int) : Bool :=
  (Scalar.eq p.fraction Scalar.zero && p.idx == i) ||
    (Scalar.eq p.fraction Scalar.one && p.idx + 1 == i)

/-- **The range of the grid that a position belongs to**, named by its lower point.
On a grid point it is the range above or the one below, as asked for; there is no
range below the first point. -/
def range (p : Position α) (upwards : Bool) : Except (Fault α) Int :=
  if ¬ (Scalar.le Scalar.zero p.fraction ∧ Scalar.le p.fraction Scalar.one) then
    .error (.outOfRange (.notInUnit p.fraction))
  else if Scalar.lt Scalar.zero p.fraction ∧ Scalar.lt p.fraction Scalar.one then
    .ok p.idx
  else
    let point := if Scalar.eq p.fraction Scalar.zero then p.idx else p.idx + 1
    let lower := if upwards then point else point - 1
    if lower < 0 then .error (.outOfRange .belowFirst) else .ok lower

end Position

end Regrid
