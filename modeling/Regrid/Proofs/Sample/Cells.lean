import Regrid.Proofs.Locate.Fits
import Regrid.Proofs.Sample.Sums
import Regrid.Proofs.Weights.Corners

/-!
# The value in a cell

The sampler adds up the field at all corners of a cell, weighted.  In exact arithmetic
that is a linear interpolation along the first axis between values that are themselves
interpolated along the later axes (`Cell.value`, `Cell.sum_corners`).  In this form a
statement about one axis becomes one about all of them by induction over the axes.

Two such statements are made here: the value does not depend on the brackets that the
queries of the axes were located in (`Cell.value_eq_of_fits`), and the weights of a cell
sum to the product over the axes of what the two distances make
(`Weights.sum_cornerRow_eq_total`), which is one if they make one everywhere.
-/
namespace Regrid

variable {K : Type} [Field K]

/-- **The value in a cell**, with a position per axis, of what is given at multi-indices:
interpolated axis by axis. -/
def Cell.value : List (Position K) → (List Int → K) → K
  | [], f => f []
  | p :: ps, f => p.lerp fun i => Cell.value ps fun ix => f (i :: ix)

namespace Cell

/-! ## Sums over corners -/

/-- The corner of a cell with the given bits. -/
def corner (ps : List (Position K)) (bits : List Nat) : List Int :=
  List.zipWith (fun i (b : Nat) => i + b) (ps.map Position.idx) bits

/-- **A weighted sum over the corners is an interpolation**, axis by axis. -/
theorem sum_corners (ps : List (Position K)) (f : List Int → K) :
    ((Corner.offsets ps.length).map fun bits =>
      f (corner ps bits) * (List.zipWith Position.factor ps bits).prod).sum = value ps f := by
  induction ps generalizing f with
  | nil => simp [Corner.offsets, Corner.bits, corner, value]
  | cons p ps ih =>
    -- Half of the corners are at the lower point of the first axis, half at the upper one.
    have half : ∀ b : Nat, (((Corner.offsets ps.length).map (b :: ·)).map fun bits =>
        f (corner (p :: ps) bits) * (List.zipWith Position.factor (p :: ps) bits).prod).sum =
        p.factor b * value ps fun ix => f ((p.idx + b) :: ix) := by
      intro b
      rw [List.map_map, ← ih, ← List.sum_map_mul_left]
      refine congrArg List.sum (List.map_congr_left fun bits _ => ?_)
      simp only [Function.comp_apply, corner, List.map_cons, List.zipWith_cons_cons, List.prod_cons]
      ring
    rw [List.length_cons, Corner.offsets_succ, List.map_append, List.sum_append, half, half, value,
      Position.lerp]
    simp

/-! ## The choice of brackets -/

/-- **Positions fit queries**, one per grid. -/
inductive Fits [LinearOrder K] : List (List K) → List K → List (Position K) → Prop
  | nil : Fits [] [] []
  | cons {grid : List K} {grids : List (List K)} {x : K} {xs : List K} {p : Position K}
      {ps : List (Position K)} (head : Grid.Fits grid x p) (tail : Fits grids xs ps) :
      Fits (grid :: grids) (x :: xs) (p :: ps)

variable [LinearOrder K] {grids : List (List K)} {xs : List K} {ps qs : List (Position K)}

/-- **The value does not depend on the brackets.** -/
theorem value_eq_of_fits [IsStrictOrderedRing K]
    (hord : ∀ grid ∈ grids, ∃ d, Grid.Ordered d grid) (hp : Fits grids xs ps)
    (hq : Fits grids xs qs) (f : List Int → K) : value ps f = value qs f := by
  induction hp generalizing qs f with
  | nil =>
    cases hq
    rfl
  | @cons grid grids x xs p ps head tail ih =>
    cases hq with
    | @cons _ _ _ _ q qs head' tail' =>
      obtain ⟨d, hd⟩ := hord grid (List.mem_cons_self ..)
      have hlater : ∀ i, value ps (fun ix => f (i :: ix)) = value qs fun ix => f (i :: ix) :=
        fun i => ih (fun g hg => hord g (List.mem_cons_of_mem _ hg)) tail' _
      rw [value, value, Grid.Fits.lerp_eq hd head head']
      exact congrArg q.lerp (funext hlater)

/-! ## Both distances together -/

omit [LinearOrder K] in
/-- Both distances of the positions of a cell: the product over the axes of what the two make. -/
def total (ps : List (Position K)) : K := (ps.map fun p => p.fraction + p.complement).prod

omit [LinearOrder K] in
/-- Distances that make one on every axis do so in the cell. -/
theorem total_eq_one (h : ∀ p ∈ ps, p.complement + p.fraction = 1) : total ps = 1 := by
  have hone : ps.map (fun p => p.fraction + p.complement) = ps.map fun _ => (1 : K) :=
    List.map_congr_left fun p hp => by rw [add_comm, h p hp]
  rw [total, hone, List.map_const', List.prod_replicate, one_pow]

omit [LinearOrder K] in
/-- What is the same everywhere is multiplied by the distances. -/
theorem value_const (ps : List (Position K)) (c : K) : value ps (fun _ => c) = total ps * c := by
  induction ps with
  | nil => exact (one_mul c).symm
  | cons p ps ih =>
    have hcons : total (p :: ps) = (p.fraction + p.complement) * total ps := List.prod_cons
    rw [value, ih, Position.lerp, hcons]
    ring

end Cell

/-! ## Weights -/

namespace Weights

variable [LinearOrder K] [FloorRing K] [Elementary K]

theorem product_eq_prod (xs : List K) : product xs = xs.prod := by
  have step : ∀ (xs : List K) (x : K), xs.foldl (· * ·) x = x * xs.prod := by
    intro xs
    induction xs with
    | nil => simp
    | cons y ys ih => intro x; rw [List.foldl_cons, ih, List.prod_cons, mul_assoc]
  cases xs with
  | nil => simp [product]
  | cons x xs => exact step xs x

/-- The field at the corners of a cell times their weights. -/
theorem sum_mul_cornerRow (ps : List (Position K)) (f : List Int → K) :
    (List.zipWith (· * ·)
      ((Sample.corners (Corner.offsets ps.length) (ps.map Position.idx)).map f)
      (cornerRow ps)).sum = Cell.value ps f := by
  rw [Sample.corners, cornerRow, List.map_map, List.zipWith_map, List.zipWith_self,
    ← Cell.sum_corners]
  refine congrArg List.sum (List.map_congr_left fun bits _ => ?_)
  rw [cornerWeight, product_eq_prod]
  rfl

/-- **The sum of the weights of a cell** is the product over the axes of both distances together. -/
theorem sum_cornerRow_eq_total (ps : List (Position K)) : (cornerRow ps).sum = Cell.total ps := by
  rw [← mul_one (Cell.total ps), ← Cell.value_const, ← Cell.sum_corners]
  refine congrArg List.sum (List.map_congr_left fun bits _ => ?_)
  rw [cornerWeight, product_eq_prod, one_mul]

/-- The weights of a cell sum to one. -/
theorem sum_cornerRow {ps : List (Position K)} (h : ∀ p ∈ ps, p.complement + p.fraction = 1) :
    (cornerRow ps).sum = 1 := by
  rw [sum_cornerRow_eq_total, Cell.total_eq_one h]

end Weights

/-! ## Reading -/

namespace NdArray

/-- The entry at a multi-index that counts from the front; nought where there is none. -/
def entry (a : NdArray K) (ix : List Int) : K := (a.get? (ix.map Int.toNat)).getD 0

theorem entry_cast (a : NdArray K) (ix : List Nat) :
    a.entry (ix.map Nat.cast) = (a.get? ix).getD 0 := by
  have hback : (ix.map (Nat.cast : Nat → Int)).map Int.toNat = ix := by
    rw [List.map_map]
    exact List.map_id ix
  rw [entry, hback]

omit [Field K] in
theorem place?_isSome_of_inside {shape : List Nat} {ix : List Int} (h : Inside shape ix) :
    (place? shape (ix.map Int.toNat)).isSome := by
  fun_induction Inside shape ix with
  | case1 => rfl
  | case2 n ns i is ih =>
    rw [List.map_cons, place?_isSome_cons]
    exact ⟨by omega, ih h.2⟩
  | case3 => exact h.elim

/-- Inside the shape the entry is read. -/
theorem read_eq_entry (a : NdArray K) {ix : List Int} (h : Inside a.shape ix) :
    a.read ix = .ok (a.entry ix) := by
  have hsome := (a.get?_isSome_iff _).2 (place?_isSome_of_inside h)
  obtain ⟨x, hx⟩ := Option.isSome_iff_exists.1 hsome
  rw [read_eq_of_inside a h, entry, hx]
  rfl

end NdArray

namespace Sample

/-- The bracket of a position is among the points of an axis of `n` points. -/
def Among (n : Nat) (p : Position K) : Prop := 0 ≤ p.idx ∧ p.idx + 2 ≤ n

omit [Field K] in
/-- The corners of such brackets are inside the field. -/
theorem inside_of_mem_corners {shape : List Nat} {idx : List Int}
    (h : List.Forall₂ (fun (n : Nat) i => 0 ≤ i ∧ i + 2 ≤ (n : Int)) shape idx) :
    ∀ ix ∈ corners (Corner.offsets idx.length) idx, NdArray.Inside shape ix := by
  intro ix hix
  obtain ⟨bits, hbits, rfl⟩ := List.mem_map.1 hix
  obtain ⟨hlen, hbit⟩ := Corner.mem_offsets hbits
  clear hix hbits
  induction h generalizing bits with
  | nil => exact trivial
  | @cons n i _ _ head _ ih =>
    cases bits with
    | nil => cases hlen
    | cons b bits =>
      obtain ⟨hb, hlater⟩ := List.forall_mem_cons.1 hbit
      have hfirst : 0 ≤ i + (b : Int) ∧ i + (b : Int) < n := by omega
      exact ⟨hfirst, ih bits (Nat.succ.inj hlen) hlater⟩

variable [LinearOrder K] [FloorRing K] [Elementary K] {s : Sampler K} {field : NdArray K}

theorem gather_eq_ok (hs : s.Exact) {ps : List (Position K)}
    (h : List.Forall₂ Among field.shape ps) :
    gather s field (Corner.offsets ps.length) (ps.map Position.idx) =
      .ok ((corners (Corner.offsets ps.length) (ps.map Position.idx)).map field.entry) := by
  rw [gather, Outcome.mapM_eq_ok_iff, List.forall₂_map_right_iff, List.forall₂_same]
  intro ix hix
  rw [← List.length_map (f := Position.idx)] at hix
  have hinside := inside_of_mem_corners (List.forall₂_map_right_iff.2 h) ix hix
  rw [hs.read field ix hinside, field.read_eq_entry hinside]

/-- The value at one position is the value in its cell. -/
theorem single_eq_ok (hs : s.Exact) {ps : List (Position K)}
    (h : List.Forall₂ Among field.shape ps) :
    single s field (ps.map Position.idx) (Weights.cornerRow ps) =
      .ok (Cell.value ps field.entry) := by
  rw [single, List.length_map, gather_eq_ok hs h, Outcome.ok_bind, hs.single,
    Sum.total_eq_sum, Weights.sum_mul_cornerRow]
  rfl

/-- The values at many positions are the values in their cells. -/
theorem rows_eq_ok (hs : s.Exact) {pss : List (List (Position K))}
    (h : ∀ ps ∈ pss, List.Forall₂ Among field.shape ps) :
    rows s field field.rank (pss.map fun ps => ps.map Position.idx) (pss.map Weights.cornerRow) =
      .ok (pss.map fun ps => Cell.value ps field.entry) := by
  rw [rows, List.zip_map', Outcome.mapM_eq_ok_iff, List.forall₂_map_left_iff,
    List.forall₂_map_right_iff, List.forall₂_same]
  intro ps hps
  have hlen : field.rank = ps.length := (h ps hps).length_eq
  simp only [hlen]
  rw [gather_eq_ok hs (h ps hps), Outcome.ok_bind, hs.row, Sum.total_eq_sum,
    Weights.sum_mul_cornerRow]
  rfl

end Sample
end Regrid
