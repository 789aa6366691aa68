import Regrid.Scalar

/-!
# What is chosen by name

A caller chooses some things by their names: what becomes of a value on a grid
point, how many points carry a local polynomial, and which backend computes.  Each
of them is a type with a name for every choice, and `named` finds the choice of a
name.  A name is valid whether or not the backend can be built here; that is found
out when it is built (`Regrid.Backend`).

A value that coincides with an inner grid point lies in two brackets: at the upper
end of the one and at the lower end of the other.  A tie-break says which of them
is meant.  `TieBreak.move` takes the bracket and the fraction that a scan has found
and moves the position to the other bracket where the tie-break asks for it and the
grid has one.
-/
namespace Regrid

/-! ## Backends -/

/-- The names of backends that a configuration may give. -/
inductive BackendChoice where
  /-- The reference. -/
  | reference
  /-- Compiled scanning and polynomial kernels. -/
  | compiled
  /-- Fused sampling. -/
  | fused
  /-- Native kernels. -/
  | native
  /-- The first accelerated one that can be built. -/
  | auto
deriving DecidableEq, Repr

namespace BackendChoice

/-- Every choice. -/
def all : List BackendChoice := [reference, compiled, fused, native, auto]

/-- The name of a choice. -/
def name : BackendChoice → String
  | reference => "numpy"
  | compiled => "numba"
  | fused => "jax"
  | native => "cython"
  | auto => "auto"

/-- The choice of a name. -/
def named (s : String) : Option BackendChoice := all.find? fun c => c.name == s

end BackendChoice

/-! ## Stencils -/

/-- **How the points of a local polynomial are chosen.** -/
inductive Stencil where
  /-- Three points: the bracket, and the neighbour on the nearer side. -/
  | adaptive3
  /-- Three points around the lower end of the bracket. -/
  | fixed3
  /-- Four points: the bracket, and a neighbour on each side. -/
  | cubic4
deriving DecidableEq, Repr

namespace Stencil

/-- Every stencil. -/
def all : List Stencil := [adaptive3, fixed3, cubic4]

/-- The name of a stencil. -/
def name : Stencil → String
  | adaptive3 => "adaptive3"
  | fixed3 => "fixed3"
  | cubic4 => "cubic4"

/-- The stencil of a name. -/
def named (s : String) : Option Stencil := all.find? fun t => t.name == s

/-- The number of points of a stencil. -/
def size : Stencil → Nat
  | adaptive3 => 3
  | fixed3 => 3
  | cubic4 => 4

end Stencil

/-! ## Tie-breaks -/

/-- **Which bracket a value on a grid point belongs to.** -/
inductive TieBreak where
  /-- The one that the scan has found. -/
  | keep
  /-- The one that has the grid point as its lower end. -/
  | lower
  /-- The one that has the grid point as its upper end. -/
  | upper
deriving DecidableEq, Repr

namespace TieBreak

/-- Every tie-break. -/
def all : List TieBreak := [keep, lower, upper]

/-- The name of a tie-break. -/
def name : TieBreak → String
  | keep => "keep"
  | lower => "lower"
  | upper => "upper"

/-- The tie-break of a name. -/
def named (s : String) : Option TieBreak := all.find? fun t => t.name == s

variable {α : Type} [Scalar α]

/-- **One position after the tie is broken**, on a grid of `n` points.  The last
bracket has none above it and bracket nought none below. -/
def move (t : TieBreak) (n : Int) (found : Int × α) : Int × α :=
  let (idx, fraction) := found
  match t with
  | keep => (idx, fraction)
  | lower =>
    if Scalar.eq fraction Scalar.one && decide (idx < n - 2) then (idx + 1, Scalar.zero)
    else (idx, fraction)
  | upper =>
    if Scalar.eq fraction Scalar.zero && decide (0 < idx) then (idx - 1, Scalar.one)
    else (idx, fraction)

@[simp] theorem move_keep (n : Int) (found : Int × α) : move keep n found = found := rfl

/-- A position is left where it is, or moved to the next bracket above or below, where there is
one. -/
theorem move_cases (t : TieBreak) (n : Int) (found : Int × α) :
    t.move n found = found ∨
      (found.1 < n - 2 ∧ t.move n found = (found.1 + 1, Scalar.zero)) ∨
      (0 < found.1 ∧ t.move n found = (found.1 - 1, Scalar.one)) := by
  cases t with
  | keep => exact .inl rfl
  | lower =>
    by_cases hc : (Scalar.eq found.2 Scalar.one && decide (found.1 < n - 2)) = true
    · exact .inr (.inl ⟨of_decide_eq_true ((Bool.and_eq_true ..).mp hc).2, if_pos hc⟩)
    · exact .inl (if_neg hc)
  | upper =>
    by_cases hc : (Scalar.eq found.2 Scalar.zero && decide (0 < found.1)) = true
    · exact .inr (.inr ⟨of_decide_eq_true ((Bool.and_eq_true ..).mp hc).2, if_pos hc⟩)
    · exact .inl (if_neg hc)

end TieBreak

end Regrid
