import Mathlib
import Regrid.Fault
import Regrid.Scalar

/-!
# Exact arithmetic

The numbers of an ordered field are scalars: every operation is the exact one, every
number is finite, and a comparison is false only if the opposite one holds.  What is
said "in exact arithmetic" is said of these scalars.

Some operations are no field operations.  A logarithm need only be strictly
increasing on the positive numbers, and a number may be kept in a container of single
or half precision in any way; all three are left open by `Elementary`, so that a
statement about all of its instances is one about all such functions.
-/
namespace Regrid

/-- **What exact arithmetic leaves open**: a logarithm, and the values after round
trips through containers of single and half precision. -/
class Elementary (K : Type) [Field K] [LinearOrder K] where
  log : K → K
  log_lt_log : ∀ {x y : K}, 0 < x → x < y → log x < log y
  single : K → K
  halfPrecision : K → K

namespace Elementary

variable {K : Type} [Field K] [LinearOrder K] [Elementary K] {x y : K}

theorem strictMonoOn_log : StrictMonoOn (log : K → K) (Set.Ioi 0) :=
  fun _ hx _ _ hxy => log_lt_log hx hxy

/-- Positive numbers have different logarithms. -/
theorem eq_of_log_eq (hx : 0 < x) (hy : 0 < y) (h : log x = log y) : x = y :=
  strictMonoOn_log.injOn hx hy h

/-- A positive number is between two others if its logarithm is between theirs. -/
theorem mem_uIcc_of_log {z : K} (hx : 0 < x) (hy : 0 < y) (hz : 0 < z)
    (h : log x ∈ Set.uIcc (log y) (log z)) : x ∈ Set.uIcc y z := by
  rw [Set.mem_uIcc] at h ⊢
  rwa [strictMonoOn_log.le_iff_le hy hx, strictMonoOn_log.le_iff_le hx hz,
    strictMonoOn_log.le_iff_le hz hx, strictMonoOn_log.le_iff_le hx hy] at h

end Elementary

-- Sums and products of exact numbers are to be read as those of the field.
attribute [instance(low)] Scalar.toAdd Scalar.toSub Scalar.toMul Scalar.toDiv

namespace Exact

variable {K : Type} [Field K] [LinearOrder K] [FloorRing K]

/-- The nearest integer, the even one of two. -/
def nearest (x : K) : Int :=
  let below := ⌊x⌋
  if x - below < 1 / 2 then below
  else if 1 / 2 < x - below then below + 1
  else if below % 2 = 0 then below else below + 1

section Nearest
variable [IsStrictOrderedRing K] {x : K} {k : Int}

/-- The nearest integer is a half away at most. -/
theorem abs_nearest_sub_le (x : K) : |(nearest x : K) - x| ≤ 1 / 2 := by
  have hbelow := Int.floor_le x
  have habove := Int.lt_floor_add_one x
  rw [abs_le]
  unfold nearest
  by_cases hlow : x - ⌊x⌋ < 1 / 2
  · rw [if_pos hlow]
    constructor <;> linarith
  · rw [if_neg hlow]
    by_cases hhigh : 1 / 2 < x - ⌊x⌋
    · rw [if_pos hhigh, Int.cast_add, Int.cast_one]
      constructor <;> linarith
    · -- Halfway, both neighbours are a half away.
      have hhalf : x - ⌊x⌋ = 1 / 2 := le_antisymm (not_lt.1 hhigh) (not_lt.1 hlow)
      rw [if_neg hhigh]
      split
      · constructor <;> linarith
      · rw [Int.cast_add, Int.cast_one]
        constructor <;> linarith

/-- Less than one and a half from an integer, a number is rounded to a neighbour at most. -/
theorem nearest_le_add_one (h : x < k + 3 / 2) : nearest x ≤ k + 1 := by
  have hnear := (abs_le.1 (abs_nearest_sub_le x)).2
  have hlt : (nearest x : K) < (k + 2 : Int) := by
    push_cast
    linarith
  have hlt : nearest x < k + 2 := Int.cast_lt.1 hlt
  omega

theorem sub_one_le_nearest (h : k - 3 / 2 < x) : k - 1 ≤ nearest x := by
  have hnear := (abs_le.1 (abs_nearest_sub_le x)).1
  have hlt : ((k - 2 : Int) : K) < nearest x := by
    push_cast
    linarith
  have hlt : k - 2 < nearest x := Int.cast_lt.1 hlt
  omega

end Nearest

variable [Elementary K]

/-- The numbers of an ordered field are scalars. -/
instance scalar : Scalar K where
  ofInt n := n
  lt x y := decide (x < y)
  le x y := decide (x ≤ y)
  eq x y := decide (x = y)
  isNaN _ := false
  isFinite _ := true
  log := Elementary.log
  nearest x := .ok (nearest x)
  single := Elementary.single
  halfPrecision := Elementary.halfPrecision

/-! ## The operations -/

@[simp] theorem ofInt_eq (n : Int) : (Scalar.ofInt n : K) = n := rfl

theorem zero_eq : (Scalar.zero : K) = 0 := Int.cast_zero

@[simp] theorem lt_eq (x y : K) : Scalar.lt x y = decide (x < y) := rfl

@[simp] theorem le_eq (x y : K) : Scalar.le x y = decide (x ≤ y) := rfl

@[simp] theorem eq_eq (x y : K) : Scalar.eq x y = decide (x = y) := rfl

@[simp] theorem isNaN_eq (x : K) : Scalar.isNaN x = false := rfl

@[simp] theorem isFinite_eq (x : K) : Scalar.isFinite x = true := rfl

@[simp] theorem log_eq (x : K) : Scalar.log x = Elementary.log x := rfl

/-- The distance from nought is the absolute value. -/
theorem abs_eq [IsStrictOrderedRing K] (x : K) : Scalar.abs x = |x| := by
  rw [Scalar.abs, lt_eq, zero_eq]
  by_cases hx : x < 0
  · rw [if_pos (decide_eq_true hx), abs_of_neg hx]
    exact zero_sub x
  · rw [if_neg (by simpa using hx), abs_of_nonneg (not_lt.1 hx)]

/-- Every number has a nearest integer. -/
@[simp] theorem nearestInteger_eq (x : K) : nearestInteger x = .ok (nearest x) := rfl

/-- Only nought cannot be divided by. -/
theorem divide_of_ne {x y : K} (h : y ≠ 0) : divide x y = .ok (x / y) := by
  unfold divide
  rw [if_neg (by simpa using h)]

end Exact

/-! ## Logarithms -/

/-- The natural logarithm of real numbers. -/
noncomputable instance Elementary.real : Elementary ℝ where
  log := Real.log
  log_lt_log := Real.log_lt_log
  single x := x
  halfPrecision x := x

/-- A stand-in for the logarithm that takes rational values: like the logarithm it
increases strictly, has its root at one, and changes sign where a number is inverted. -/
instance Elementary.rational : Elementary ℚ where
  log x := x - 1 / x
  log_lt_log := by
    intro x y hx hxy
    have h : 1 / y < 1 / x := one_div_lt_one_div_of_lt hx hxy
    linarith
  single x := x
  halfPrecision x := x

end Regrid
