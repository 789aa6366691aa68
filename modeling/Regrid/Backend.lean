import Regrid.Locate
import Regrid.Polynomial
import Regrid.Sample

/-!
# Backends

A backend locates values, evaluates polynomials and samples fields.  There are
four; they differ in how the bracket is walked, in how the closest entry of a table is
found, in how corners are read and summed, and in when the tie-break is looked at.

Native kernels are an extension that has to be compiled beforehand.  Whether they are
there is an argument of the functions that build a backend.  Here they are not there,
unless it is said.
-/
namespace Regrid

/-- **The backends.** -/
inductive Backend where
  | reference
  /-- Kernels that are compiled when they are first used. -/
  | compiled
  | fused
  /-- Kernels that were compiled beforehand. -/
  | native
deriving DecidableEq, Repr

namespace Backend

/-- The name of a backend. -/
def name : Backend → String
  | reference => BackendChoice.reference.name
  | compiled => BackendChoice.compiled.name
  | fused => BackendChoice.fused.name
  | native => BackendChoice.native.name

/-! ## Building -/

/-- The backend of a choice that names one, if it can be built. -/
def direct (nativeBuilt : Bool) : BackendChoice → Option Backend
  | .reference => some reference
  | .compiled => some compiled
  | .fused => some fused
  | .native => if nativeBuilt then some native else none
  | .auto => none

/-- The accelerated backends, the most welcome first. -/
def accelerated : List BackendChoice := [.native, .compiled, .fused]

/-- The backend of a choice.  A choice left open takes the first accelerated
backend that can be built, and the reference where there is none. -/
def build {α : Type} (c : BackendChoice) (nativeBuilt : Bool := false) :
    Except (Fault α) Backend :=
  match c with
  | .auto => .ok ((accelerated.findSome? (direct nativeBuilt)).getD reference)
  | c =>
    match direct nativeBuilt c with
    | some b => .ok b
    | none => .error .unavailable

/-- The backend of a name. -/
def buildNamed {α : Type} (name : String) (nativeBuilt : Bool := false) :
    Except (Fault α) Backend :=
  match BackendChoice.named name with
  | some c => build c nativeBuilt
  | none => .error (.invalidArgument (.unknownBackend name))

/-- The backends that can be built, in the order in which they are offered. -/
def available (nativeBuilt : Bool := false) : List Backend :=
  [BackendChoice.reference, .native, .compiled, .fused].filterMap (direct nativeBuilt)

/-- An open choice takes the native kernels if they are there, and the compiled ones
otherwise. -/
example : build (α := Unit) .auto true = .ok native ∧ build (α := Unit) .auto = .ok compiled :=
  ⟨rfl, rfl⟩

/-! ## Kernels -/

variable {α : Type} [Scalar α]

/-- The positions of values in a grid.  Compiled and native kernels ask before they
move the bracket, and look at the tie-break last.  Native ones divide by the width of
the bracket without asking whether it is nought; the grid has been checked by then,
and no bracket of it is. -/
def locate (b : Backend) (oldGrid newGrid : NdArray α) (extpolfac : α)
    (policy : Option TieBreak) : Except (Fault α) (Column α) :=
  match b with
  | compiled | native => Locate.locateWith Locate.Walk.asking oldGrid newGrid extpolfac policy
  | reference | fused => Locate.locate oldGrid newGrid extpolfac policy

/-- The polynomial through a table. -/
def polynomial (b : Backend) (xa ya : List α) (x : α) : Except (Fault α) (Estimate α) :=
  match b with
  | compiled | native => Neville.interpolateTersely xa ya x
  | reference | fused => Neville.interpolate xa ya x

/-- The polynomial through a table that is handed over in arrays.  Blocks are no rows of
numbers to native kernels, and have no type that the compiled ones know. -/
def polynomialOf (b : Backend) (xa ya : NdArray α) (x : α) : Except (Fault α) (Estimate α) :=
  match b with
  | compiled => Neville.interpolateArraysTersely (fun _ => .notCompiled) xa ya x
  | native =>
    Neville.interpolateArraysTersely (fun rank => .invalidArgument (.bufferRank rank)) xa ya x
  | reference | fused => Neville.interpolateArrays xa ya x

/-- How corners are read and summed. -/
def sampler : Backend → Sampler α
  | fused => Sampler.fused
  | reference | compiled | native => Sampler.reference

/-- The field sampled with weights. -/
def sample (b : Backend) (weights field : NdArray α) (ps : List (Placement α))
    (out : Option (Container α)) (check : SumCheck α) : Except (Fault α) (NdArray α) :=
  Sample.sample b.sampler weights field ps out check

end Backend

end Regrid
