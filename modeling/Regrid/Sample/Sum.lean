import Regrid.NdArray
import Regrid.Scalar

/-!
# Sums

A sum of rounded numbers depends on the order of its additions, so the order is
part of what a sampled value is.  Three orders occur.

* `inOrder` adds from left to right.
* `dot` adds products from left to right, on top of nought.
* `pairwise` keeps rounding errors small in long sums: short ones are added from
  left to right, ones of moderate length in eight interleaved partial sums, and
  longer ones as the sum of two halves.
-/
namespace Regrid
namespace Sum

variable {α : Type} [Scalar α]

/-- **The sum from left to right**; nought for no terms. -/
def inOrder : List α → α
  | [] => Scalar.zero
  | x :: xs => xs.foldl (· + ·) x

/-- **The sum of products**, from left to right on top of nought. -/
def dot (values weights : List α) : α :=
  (List.zipWith (· * ·) values weights).foldl (· + ·) Scalar.zero

/-- Neighbours added in pairs; one that is left over stays. -/
def pairUp : List α → List α
  | x :: y :: rest => (x + y) :: pairUp rest
  | rest => rest

/-- Eight interleaved partial sums over the full blocks of eight, added in
pairs; what is left over is added one by one. -/
def blocked (xs : List α) : α :=
  let count := xs.length / 8
  match NdArray.chunks 8 count xs with
  | [] => inOrder xs
  | block :: blocks =>
    let partials := blocks.foldl (List.zipWith (· + ·)) block
    inOrder (pairUp (pairUp (pairUp partials)) ++ xs.drop (8 * count))

/-- The sum of two halves, the first of them a multiple of eight, as often as
`fuel` allows and the terms are more than 128. -/
def halved : Nat → List α → α
  | 0, xs => blocked xs
  | fuel + 1, xs =>
    if xs.length ≤ 128 then blocked xs
    else
      let half := xs.length / 2 - xs.length / 2 % 8
      halved fuel (xs.take half) + halved fuel (xs.drop half)

/-- **The pairwise sum.** -/
def pairwise (xs : List α) : α := halved xs.length xs

end Sum
end Regrid
