import Regrid.Locate
import Regrid.Sample

/-!
# The chain of calls

An interpolation without an interpolator: every query is located in its grid, the
positions give the weights, and the weights sample the field.  All the
intermediate results are kept, since positions serve every field on the same grid
and weights every field on the same grids.
-/
namespace Regrid

/-- **What an interpolation needs**: the grids, the queries along each, the field, and
how it is to be done. -/
structure Chain (α : Type) where
  grids : List (NdArray α)
  queries : List (NdArray α)
  field : NdArray α
  extpolfac : α
  tieBreak : Option TieBreak
  mode : Option Weights.Mode
  logAxes : List Int
  sumCheck : SumCheck α

/-- **What an interpolation has found** on the way to the values. -/
structure Chain.Result (α : Type) where
  positions : List (Placement α)
  weights : NdArray α
  sums : NdArray α
  values : NdArray α

namespace Chain

variable {α : Type} [Scalar α]

/-- The positions of the queries from axis `k` on. -/
def placements (c : Chain α) : Nat → List (NdArray α) → List (NdArray α) →
    Except (Fault α) (List (Placement α))
  | k, g :: gs, q :: qs => do
    let here ← if c.logAxes.contains (k : Int) then
        Locate.placePressure g q c.extpolfac c.tieBreak
      else Locate.place g q c.extpolfac c.tieBreak
    let others ← placements c (k + 1) gs qs
    return here :: others
  | _, _, _ => return []

/-- Locate, weigh, sample. -/
def run (c : Chain α) : Except (Fault α) (Result α) := do
  let positions ← c.placements 0 c.grids c.queries
  let weights ← Weights.ofPlacements positions c.mode none
  let values ← Sample.sample Sampler.reference weights c.field positions none c.sumCheck
  return ⟨positions, weights, Weights.sums weights, values⟩

end Chain

end Regrid
