import Regrid.Proofs.Locate.Admission
import Regrid.Proofs.Sample.Reads

/-!
# Positions and their own weights

If positions pass with their own weights (`Sample.Passing`), nothing is left that could be refused,
and by each protocol there are values (`Sample.exists_sample_red`, `Sample.exists_sample_blue`,
`Sample.exists_sample_green`).

Positions with finite distances have finite weights, and if the distances of each position make one,
the weights of every corner together make one, too.  So they pass where the tolerance is a positive
number (`Extended.passing_of_sound`).
-/
namespace Regrid

namespace Sample

variable {α : Type} [Scalar α] {s : Sampler α} {field : NdArray α} {check : SumCheck α}

/-! ## Nothing is left to refuse -/

section Reads
variable (hs : ∀ ix, NdArray.Inside field.shape ix → s.read field ix = field.read ix)
include hs

/-- **One position per axis** has a value. -/
theorem exists_sample_red {ps : List (Position α)} (hne : ps ≠ [])
    (h : Passing field check (ps.map fun p => [p])) :
    ∃ w v, Weights.red ps none = .ok w ∧
      sample s w field (ps.map .one) none check = .ok (NdArray.scalar v) := by
  obtain ⟨v, hv⟩ := exists_red hs hne h.checkRed
  obtain ⟨p, qs, rfl⟩ := List.exists_cons_of_ne_nil hne
  refine ⟨_, v, Weights.red_none p qs, ?_⟩
  rw [Weights.redRow_eq_cornerRow, sample_singles hne, hv]
  rfl

variable {cs : List (Column α)} (hne : cs ≠ []) (h : Passing field check (cs.map Column.toList))
include hne h

/-- **A sequence of positions** has a value for each. -/
theorem exists_sample_blue {n : Nat} (hlen : ∀ c ∈ cs, c.length = n) :
    ∃ w a, Weights.blue cs none = .ok w ∧ sample s w field (cs.map .many) none check = .ok a ∧
      a.shape = [n] := by
  obtain ⟨w, hw, hshape, hrows⟩ := Weights.exists_of_sequence hne hlen
  obtain ⟨a, ha, hashape⟩ := exists_blue hs hne (h.checkBlue hne hlen hshape hrows) hlen
  exact ⟨w, a, hw, by rw [sample_sequence hne hshape, ha], hashape⟩

/-- **A grid of positions** has a value at every point. -/
theorem exists_sample_green :
    ∃ w a, Weights.green cs none = .ok w ∧ sample s w field (cs.map .many) none check = .ok a ∧
      a.shape = cs.map Column.length := by
  obtain ⟨w, hw, hshape, hrows⟩ := Weights.exists_of_grid hne
  have hchecks := h.checkGreen hshape hrows
  obtain ⟨a, ha, hashape⟩ := exists_green hs hne hchecks
  exact ⟨w, a, hw, by rw [sample_grid hne hchecks, ha], hashape⟩

end Reads

end Sample

/-! ## Finite weights -/

namespace Extended

variable {K : Type} [Field K] [LinearOrder K] [FloorRing K] [Elementary K]

theorem product_map_finite (xs : List K) :
    Weights.product (xs.map finite) = finite (Weights.product xs) := by
  have step : ∀ (xs : List K) (x : K),
      (xs.map finite).foldl (· * ·) (finite x) = finite (xs.foldl (· * ·) x) := by
    intro xs
    induction xs with
    | nil => exact fun _ => rfl
    | cons y ys ih => exact fun x => ih (x * y)
  cases xs with
  | nil => exact one_eq.trans (congrArg finite Int.cast_one.symm)
  | cons x xs => exact step xs x

/-- The weights of finite distances are those of the numbers. -/
theorem cornerRow_map_finite (qs : List (Position K)) :
    Weights.cornerRow (qs.map Position.finite) = (Weights.cornerRow qs).map finite := by
  have hfactor : ∀ (q : Position K) (b : Nat), q.finite.factor b = finite (q.factor b) := by
    intro q b
    unfold Position.factor
    split
    · rfl
    · rfl
  rw [Weights.cornerRow, Weights.cornerRow, List.length_map, List.map_map]
  refine List.map_congr_left fun bits _ => ?_
  rw [Weights.cornerWeight, List.zipWith_map_left, Function.comp_apply, Weights.cornerWeight,
    ← product_map_finite, List.map_zipWith]
  simp only [hfactor]

theorem total_map_finite (xs : List K) : Sum.total (xs.map finite) = finite xs.sum := by
  induction xs with
  | nil => exact zero_eq
  | cons x xs ih => rw [List.map_cons, Sum.total_cons, ih, finite_add, List.sum_cons]

/-- Finite weights that sum to one pass the spot check. -/
theorem checkRow_map_finite {t : K} (ht : 0 < t) {row : List K} (h : row.sum = 1) :
    SumCheck.checkRow (finite t) (row.map finite) = .ok () := by
  have hsum : Sum.pairwise (row.map finite) = finite 1 := by
    rw [Sum.pairwise_eq_total, total_map_finite, h]
  have hdistance : Scalar.abs (finite 1 - Scalar.one : Extended K) = finite 0 := by
    rw [one_eq, finite_sub, sub_self, Scalar.abs, zero_eq, lt_finite, if_neg (by simp)]
  have hpositive : ¬ (¬ Scalar.isFinite (finite t) = true ∨
      Scalar.le (finite t) (Scalar.zero : Extended K) = true) := by
    rw [zero_eq, le_finite, decide_eq_true_iff, not_or, not_not, not_le]
    exact ⟨rfl, ht⟩
  rw [SumCheck.checkRow, if_neg hpositive]
  simp only [hsum, hdistance, le_finite, decide_eq_true ht.le, if_true]

variable {shape : List Nat}

omit [LinearOrder K] [FloorRing K] [Elementary K] in
theorem exists_map_finite_of_sound {ps : List (Position (Extended K))}
    (h : List.Forall₂ Sound shape ps) :
    ∃ qs : List (Position K), List.Forall₂ Sample.Sound shape qs ∧ ps = qs.map Position.finite := by
  induction h with
  | nil => exact ⟨[], .nil, rfl⟩
  | cons head _ ih =>
    obtain ⟨q, hq, rfl⟩ := head
    obtain ⟨qs, hqs, rfl⟩ := ih
    exact ⟨q :: qs, .cons hq hqs, rfl⟩

/-- **Sound positions pass**, where the tolerance is a positive number. -/
theorem passing_of_sound {field : NdArray (Extended K)} {check : SumCheck (Extended K)} {t : K}
    (htolerance : check.tolerance = finite t) (ht : 0 < t)
    {lists : List (List (Position (Extended K)))}
    (h : List.Forall₂ (fun n ps => ∀ p ∈ ps, Sound n p) field.shape lists) :
    Sample.Passing field check lists where
  brackets := by
    rw [Sample.checkField_eq_ok_iff, List.forall₂_map_right_iff]
    refine h.imp fun n ps hps i hi => ?_
    obtain ⟨p, hp, rfl⟩ := List.mem_map.1 hi
    obtain ⟨q, hq, rfl⟩ := hps p hp
    exact hq.1
  weights pss hpss := by
    cases pss with
    | nil => rfl
    | cons ps pss =>
      have hmem := hpss ps (List.mem_cons_self ..)
      obtain ⟨qs, hqs, rfl⟩ := exists_map_finite_of_sound (Choices.forall₂_of_mem h hmem)
      rw [List.map_cons, SumCheck.run, htolerance, cornerRow_map_finite,
        checkRow_map_finite ht (Weights.sum_cornerRow (Sample.sum_of_sound hqs)), ite_self]

end Extended
end Regrid
