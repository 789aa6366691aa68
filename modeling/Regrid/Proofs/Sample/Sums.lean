import Regrid.Proofs.Exact
import Regrid.Sample

/-!
# Sums without rounding

Where additions may be made in any order (`ExactSums`), it does not matter in which they are made:
from left to right, in eight interleaved partial sums or by halves, the sum of a list is its total
(`Sum.pairwise_eq_total`, `Sum.dot_eq_total`).  So all samplers compute the same, as long as the
corners are inside the field (`Sampler.Exact`).

Exact arithmetic is of this kind, and the total is the sum of the field (`Sum.total_eq_sum`).
-/
namespace Regrid

section Cutting
variable {α : Type}

/-- Runs of one width and what is left behind them. -/
theorem NdArray.flatten_chunks_append_drop (width count : Nat) (xs : List α) :
    (NdArray.chunks width count xs).flatten ++ xs.drop (width * count) = xs := by
  induction count generalizing xs with
  | zero => simp [NdArray.chunks]
  | succ n ih =>
    have h := ih (xs.drop width)
    rw [List.drop_drop] at h
    rw [NdArray.chunks, List.flatten_cons, List.append_assoc, Nat.mul_succ, Nat.add_comm, h,
      List.take_append_drop]

theorem NdArray.length_of_mem_chunks {width count : Nat} {xs : List α}
    (h : width * count ≤ xs.length) : ∀ run ∈ NdArray.chunks width count xs, run.length = width := by
  induction count generalizing xs with
  | zero => simp [NdArray.chunks]
  | succ n ih =>
    rw [Nat.mul_succ] at h
    intro run hrun
    rw [NdArray.chunks, List.mem_cons] at hrun
    rcases hrun with rfl | hrun
    · rw [List.length_take]
      omega
    · exact ih (by rw [List.length_drop]; omega) run hrun

end Cutting

/-- **Additions may be made in any order**, and nought adds nothing. -/
class ExactSums (α : Type) [Scalar α] : Prop where
  add_assoc : ∀ x y z : α, x + y + z = x + (y + z)
  add_comm : ∀ x y : α, x + y = y + x
  zero_add : ∀ x : α, Scalar.zero + x = x

namespace Sum

variable {α : Type} [Scalar α]

/-- The total of a list, from its end. -/
def total (xs : List α) : α := xs.foldr (· + ·) Scalar.zero

@[simp] theorem total_nil : total ([] : List α) = Scalar.zero := rfl

@[simp] theorem total_cons (x : α) (xs : List α) : total (x :: xs) = x + total xs := rfl

section Orders
variable [ExactSums α]

theorem add_zero (x : α) : x + Scalar.zero = x := by
  rw [ExactSums.add_comm, ExactSums.zero_add]

theorem total_append (xs ys : List α) : total (xs ++ ys) = total xs + total ys := by
  induction xs with
  | nil => exact (ExactSums.zero_add _).symm
  | cons x xs ih => rw [List.cons_append, total_cons, ih, total_cons, ExactSums.add_assoc]

theorem foldl_add_eq (x : α) (xs : List α) : xs.foldl (· + ·) x = x + total xs := by
  induction xs generalizing x with
  | nil => exact (add_zero x).symm
  | cons y ys ih => rw [List.foldl_cons, ih, total_cons, ExactSums.add_assoc]

theorem inOrder_eq_total (xs : List α) : inOrder xs = total xs := by
  cases xs with
  | nil => rfl
  | cons x xs => exact foldl_add_eq x xs

theorem dot_eq_total (values weights : List α) :
    dot values weights = total (List.zipWith (· * ·) values weights) := by
  rw [dot, foldl_add_eq, ExactSums.zero_add]

/-! ## Partial sums -/

theorem total_pairUp (xs : List α) : total (pairUp xs) = total xs := by
  fun_induction pairUp xs with
  | case1 x y rest ih => rw [total_cons, ih, total_cons, total_cons, ExactSums.add_assoc]
  | case2 => rfl

theorem total_zipWith_add {xs ys : List α} (h : xs.length = ys.length) :
    total (List.zipWith (· + ·) xs ys) = total xs + total ys := by
  induction xs generalizing ys with
  | nil =>
    obtain rfl := List.length_eq_zero_iff.1 h.symm
    exact (ExactSums.zero_add _).symm
  | cons x xs ih =>
    cases ys with
    | nil => cases h
    | cons y ys =>
      calc total (List.zipWith (· + ·) (x :: xs) (y :: ys))
          = x + y + (total xs + total ys) := by
            rw [List.zipWith_cons_cons, total_cons, ih (Nat.succ.inj h)]
        _ = x + (total xs + (y + total ys)) := by
            rw [ExactSums.add_assoc, ← ExactSums.add_assoc y, ExactSums.add_comm y,
              ExactSums.add_assoc]
        _ = total (x :: xs) + total (y :: ys) := by
            rw [total_cons, total_cons, ExactSums.add_assoc]

/-- Blocks of one width, added entry by entry, keep their total. -/
theorem total_foldl_zipWith {width : Nat} {blocks : List (List α)}
    (hblocks : ∀ b ∈ blocks, b.length = width) {block : List α} (hblock : block.length = width) :
    total (blocks.foldl (List.zipWith (· + ·)) block) = total block + total blocks.flatten := by
  induction blocks generalizing block with
  | nil => exact (add_zero _).symm
  | cons b bs ih =>
    have hb : b.length = width := hblocks b (List.mem_cons_self ..)
    have hzip : (List.zipWith (· + ·) block b).length = width := by
      rw [List.length_zipWith, hblock, hb, Nat.min_self]
    rw [List.foldl_cons, ih (fun c hc => hblocks c (List.mem_cons_of_mem _ hc)) hzip,
      total_zipWith_add (hblock.trans hb.symm), List.flatten_cons, total_append,
      ExactSums.add_assoc]

theorem blocked_eq_total (xs : List α) : blocked xs = total xs := by
  have hcut := NdArray.flatten_chunks_append_drop 8 (xs.length / 8) xs
  have hwidth := NdArray.length_of_mem_chunks (Nat.mul_div_le xs.length 8)
  simp only [blocked]
  split
  · exact inOrder_eq_total xs
  · next block blocks hchunks =>
    rw [hchunks] at hcut hwidth
    have hpartials := total_foldl_zipWith (fun b hb => hwidth b (List.mem_cons_of_mem _ hb))
      (hwidth block (List.mem_cons_self ..))
    calc inOrder _
        = total (blocks.foldl (List.zipWith (· + ·)) block) +
            total (xs.drop (8 * (xs.length / 8))) := by
          rw [inOrder_eq_total, total_append, total_pairUp, total_pairUp, total_pairUp]
      _ = total ((block :: blocks).flatten ++ xs.drop (8 * (xs.length / 8))) := by
          rw [hpartials, total_append, List.flatten_cons, total_append]
      _ = total xs := by rw [hcut]

theorem halved_eq_total (fuel : Nat) (xs : List α) : halved fuel xs = total xs := by
  induction fuel generalizing xs with
  | zero => exact blocked_eq_total xs
  | succ fuel ih =>
    rw [halved]
    split
    · exact blocked_eq_total xs
    · simp only [ih]
      rw [← total_append, List.take_append_drop]

/-- **The pairwise sum is the total.** -/
theorem pairwise_eq_total (xs : List α) : pairwise xs = total xs := halved_eq_total _ _

end Orders
end Sum

/-! ## Samplers -/

namespace Sampler

variable {α : Type} [Scalar α]

/-- **What every sampler does** without rounding: products are summed up, and inside the field its
entries are read. -/
structure Exact (s : Sampler α) : Prop where
  single : ∀ values weights, s.single values weights =
    Sum.total (List.zipWith (· * ·) values weights)
  row : ∀ values weights, s.row values weights = Sum.total (List.zipWith (· * ·) values weights)
  read : ∀ (field : NdArray α) (ix : List Int), NdArray.Inside field.shape ix →
    s.read field ix = field.read ix

variable [ExactSums α]

theorem pairwiseProducts_eq_total (values weights : List α) :
    pairwiseProducts values weights = Sum.total (List.zipWith (· * ·) values weights) :=
  Sum.pairwise_eq_total _

theorem reference_exact : Exact (reference : Sampler α) :=
  ⟨Sum.dot_eq_total, pairwiseProducts_eq_total, fun _ _ _ => rfl⟩

theorem fused_exact : Exact (fused : Sampler α) :=
  ⟨pairwiseProducts_eq_total, pairwiseProducts_eq_total,
    fun field _ h => field.readNearest_eq_of_inside h⟩

end Sampler

/-! ## The sums of a field -/

section Field
variable {K : Type} [Field K] [LinearOrder K] [FloorRing K] [Elementary K]

instance Exact.exactSums : ExactSums K where
  add_assoc x y z := add_assoc x y z
  add_comm x y := add_comm x y
  zero_add x := by
    rw [Exact.zero_eq]
    exact zero_add x

theorem Sum.total_eq_sum (xs : List K) : total xs = xs.sum := by
  induction xs with
  | nil => exact Exact.zero_eq
  | cons x xs ih => rw [total_cons, ih, List.sum_cons]

theorem Sum.pairwise_eq_sum (xs : List K) : pairwise xs = xs.sum := by
  rw [pairwise_eq_total, total_eq_sum]

end Field
end Regrid
