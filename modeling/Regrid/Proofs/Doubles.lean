import Regrid.Scalar.Double

/-!
# Comparisons of doubles

Two doubles that are numbers, finite or infinite, are less, equal or greater; one that is not a
number is none of them (`Double.order`).  The tests of the program ask for one or two of the three
(`Double.lt_iff`, `Double.le_iff`).  So a test that fails says something about numbers only: of two
numbers, the one that is not less is at least the other (`Double.le_of_not_lt`), while every test
fails on what is not a number (`Double.numbers_of_lt`).
-/
namespace Regrid

open Float.Model (UnpackedFloat)

namespace Double

/-! ## The order of what is stored -/

/-- **The order of two doubles**, if both are numbers. -/
def order (x y : Float) : Option Ordering := Float.Model.compare x.toModel y.toModel

/-- The other way round, the order is the opposite one. -/
theorem compare_swap (x y : UnpackedFloat) : y.compare x = (x.compare y).map Ordering.swap := by
  have hdigits : ∀ (m n : Nat) (e f : Int), (compare f e).then (compare n m) =
      ((compare e f).then (compare m n)).swap := by
    intro m n e f
    rw [Ordering.swap_then, ← Std.OrientedOrd.eq_swap, ← Std.OrientedOrd.eq_swap]
  -- only finite numbers of the same sign are told apart by their digits
  rcases x with (_ | _) | _ | _ | ⟨_ | _, m, e, _⟩ <;>
    rcases y with (_ | _) | _ | _ | ⟨_ | _, n, f, _⟩
  all_goals try rfl
  · exact congrArg (fun o => some o.swap) (hdigits m n e f)
  · exact congrArg some (hdigits m n e f)

/-- There is an order if both are numbers. -/
theorem isSome_compare (x y : UnpackedFloat) :
    (x.compare y).isSome = (!x.isNaN && !y.isNaN) := by
  rcases x with (_ | _) | _ | _ | ⟨_ | _, _, _, _⟩ <;>
    rcases y with (_ | _) | _ | _ | ⟨_ | _, _, _, _⟩ <;> rfl

variable {x y : Float}

theorem order_swap (x y : Float) : order y x = (order x y).map Ordering.swap := compare_swap _ _

theorem isSome_order (x y : Float) :
    (order x y).isSome = (!Scalar.isNaN x && !Scalar.isNaN y) := isSome_compare _ _

/-! ## The tests -/

theorem lt_iff : Scalar.lt x y = true ↔ order x y = some .lt := by
  show decide (decide _ = true) = true ↔ _
  rw [decide_eq_true_iff, decide_eq_true_iff]
  exact beq_iff_eq

theorem le_iff : Scalar.le x y = true ↔ order x y = some .lt ∨ order x y = some .eq := by
  show decide (decide _ = true) = true ↔ _
  rw [decide_eq_true_iff, decide_eq_true_iff]
  show (order x y).any Ordering.isLE = true ↔ _
  rcases order x y with _ | _ | _ | _ <;> simp

/-- What is ordered are numbers. -/
theorem numbers_of_isSome (h : (order x y).isSome = true) :
    Scalar.isNaN x = false ∧ Scalar.isNaN y = false := by
  rw [isSome_order, Bool.and_eq_true, Bool.not_eq_true', Bool.not_eq_true'] at h
  exact h

/-- **Only numbers pass a test.** -/
theorem numbers_of_lt (h : Scalar.lt x y = true) : Scalar.isNaN x = false ∧ Scalar.isNaN y = false :=
  numbers_of_isSome (by rw [lt_iff.1 h, Option.isSome_some])

theorem numbers_of_le (h : Scalar.le x y = true) : Scalar.isNaN x = false ∧ Scalar.isNaN y = false := by
  apply numbers_of_isSome
  rcases le_iff.1 h with h | h <;> rw [h, Option.isSome_some]

/-- **Numbers are linearly ordered**: of two, the one that is not less is at least the other. -/
theorem le_of_not_lt (hx : Scalar.isNaN x = false) (hy : Scalar.isNaN y = false)
    (h : Scalar.lt x y = false) : Scalar.le y x = true := by
  obtain ⟨o, ho⟩ : ∃ o, order x y = some o := by
    rw [← Option.isSome_iff_exists, isSome_order, hx, hy]
    rfl
  have hlt : o ≠ .lt := by
    rintro rfl
    exact Bool.false_ne_true (h.symm.trans (lt_iff.2 ho))
  rw [le_iff, order_swap, ho]
  cases o with
  | lt => exact (hlt rfl).elim
  | eq => exact .inr rfl
  | gt => exact .inl rfl

/-- What is less is not at least as much. -/
theorem not_le_of_lt (h : Scalar.lt x y = true) : Scalar.le y x = false := by
  rw [← Bool.not_eq_true, le_iff, order_swap, lt_iff.1 h]
  exact nofun

end Double
end Regrid
