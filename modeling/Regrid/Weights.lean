import Regrid.Sample.Sum
import Regrid.Weights.Corner
import Regrid.Weights.Product

/-!
# Weights for any positions

`Weights.ofPlacements` computes the weights of whatever positions it is given:
single ones in the red layout, columns in the blue or the green one.  Which of the
two is a matter of the mode; left open, it follows from the shape of the container
that the weights are to be put in, and on a single axis there is nothing to
choose.

`Weights.protocolOf` goes the other way and tells the layout from finished weights.
-/
namespace Regrid

/-- **The three layouts** of weights, and the three kinds of sampling. -/
inductive Protocol where
  | red
  | blue
  | green
deriving DecidableEq, Repr

/-- The name of a protocol. -/
def Protocol.name : Protocol → String
  | .red => "red"
  | .blue => "blue"
  | .green => "green"

namespace Weights

/-- **Which layout is wanted for columns.** -/
inductive Mode where
  | auto
  | blue
  | green
deriving DecidableEq, Repr

namespace Mode

/-- Every mode. -/
def all : List Mode := [auto, blue, green]

/-- The name of a mode. -/
def name : Mode → String
  | auto => "auto"
  | blue => "blue"
  | green => "green"

/-- The mode of a name. -/
def named (s : String) : Option Mode := all.find? fun m => m.name == s

end Mode

variable {α : Type}

/-- The layout for columns on `axes` axes; a mode without a name is refused, and so
is a container whose rank no layout has. -/
def layout (mode : Option Mode) (out : Option (Container α)) (axes : Nat) :
    Except (Fault α) Protocol :=
  match mode with
  | some .blue => .ok .blue
  | some .green => .ok .green
  | none => .error (.invalidArgument .unknownMode)
  | some .auto =>
    if axes = 1 then .ok .blue
    else
      match out with
      | none => .error (.invalidArgument .modeNeeded)
      | some c =>
        if c.contents.rank = 2 then .ok .blue
        else if c.contents.rank = axes + 1 then .ok .green
        else .error (.dimensionMismatch (.containerRank c.contents.rank axes))

variable [Scalar α]

/-- **The weights of any positions**, one argument per axis. -/
def ofPlacements (ps : List (Placement α)) (mode : Option Mode) (out : Option (Container α)) :
    Except (Fault α) (NdArray α) :=
  if ps.isEmpty then .error (.dimensionMismatch .noPosition)
  else
    match Placement.singles ps, Placement.columns ps with
    | some singles, _ => red singles out
    | none, none => .error (.dimensionMismatch .mixedPositions)
    | none, some columns => do
      match ← layout mode out ps.length with
      | .green => green columns out
      | _ => blue columns out

omit [Scalar α] in
/-- **The layout of weights**, told from their dimensions and from the positions. -/
def protocolOf (weights : NdArray α) (ps : List (Placement α)) : Except (Fault α) Protocol :=
  if ps.isEmpty then .error (.dimensionMismatch .noPosition)
  else
    match Placement.singles ps, Placement.columns ps with
    | some _, _ => .ok .red
    | none, none => .error (.dimensionMismatch .mixedPositions)
    | none, some _ =>
      if weights.rank = 2 then .ok .blue
      else if weights.rank = ps.length + 1 then .ok .green
      else .error (.dimensionMismatch (.weightsRank weights.rank ps.length))

/-- The sum of each row of weights. -/
def sums (weights : NdArray α) : NdArray α := weights.reduce Sum.pairwise

/-- Lists side by side: the first entries of all, then the second ones, and so on. -/
def sideBySide {β : Type} : List (List β) → List (List β)
  | [] => []
  | [c] => c.map fun x => [x]
  | c :: cs => List.zipWith List.cons c (sideBySide cs)

omit [Scalar α] in
/-- The bracket indices of a sequence of positions, a row for each.  There must be
a column, and all must be equally long. -/
def indexRows (cs : List (Column α)) : Except (Fault α) (List (List Int)) :=
  match cs with
  | [] => .error (.invalidArgument .unstackable)
  | c :: _ =>
    match firstUneven c.length cs with
    | some _ => .error (.invalidArgument .unstackable)
    | none => .ok (sideBySide (cs.map Column.idx))

end Weights
end Regrid
