import Regrid.Proofs.Locate.Located
import Regrid.Proofs.Polynomial.Tableau
import Regrid.Proofs.Sample.Sums

/-!
# Exact arithmetic with infinities

A query may be infinite, or not be a number at all, where everything else is exact.  `Extended` adds
to the numbers of an ordered field the two infinities and one thing that is not a number, and every
operation does on numbers what the field does: a sum of opposite infinities, a product of nought and
an infinity and the like are no numbers, and a comparison with what is no number is false.

Three laws are left.  Sums may be made in any order, whatever is in them (`Extended.exactSums`); and
what is made of numbers by sums, differences and products is a number, and so is everything between
two numbers (`Extended.isFinite_of_inside`).  And numbers and infinities are linearly ordered, so the
least and the greatest of them decide on limits for all (`Extended.least_lt_iff`,
`Extended.lt_greatest_iff`).
-/
namespace Regrid

/-- **A number, an infinity, or no number at all.** -/
inductive Extended (K : Type) where
  | nan
  | negInf
  | finite (x : K)
  | posInf
deriving DecidableEq, Repr

namespace Extended

variable {K : Type} [Field K] [LinearOrder K]

/-! ## The operations -/

/-- What is opposite; what is no number has no opposite. -/
def neg : Extended K → Extended K
  | nan => nan
  | negInf => posInf
  | finite x => finite (-x)
  | posInf => negInf

/-- The sum; there is none of opposite infinities. -/
def add : Extended K → Extended K → Extended K
  | finite x, finite y => finite (x + y)
  | nan, _ => nan
  | _, nan => nan
  | negInf, posInf => nan
  | posInf, negInf => nan
  | negInf, _ => negInf
  | _, negInf => negInf
  | posInf, _ => posInf
  | _, posInf => posInf

/-- The infinity on the side of a number; there is none on the side of nought. -/
def beyond (x : K) : Extended K := if x < 0 then negInf else if 0 < x then posInf else nan

/-- The product; there is none of nought and an infinity. -/
def mul : Extended K → Extended K → Extended K
  | finite x, finite y => finite (x * y)
  | nan, _ => nan
  | _, nan => nan
  | finite x, posInf => beyond x
  | posInf, finite x => beyond x
  | finite x, negInf => beyond (-x)
  | negInf, finite x => beyond (-x)
  | posInf, posInf => posInf
  | negInf, negInf => posInf
  | posInf, negInf => negInf
  | negInf, posInf => negInf

/-- The quotient; there is none of two noughts or two infinities.  There is one nought, and it
counts as positive. -/
def div : Extended K → Extended K → Extended K
  | finite x, finite y => if y = 0 then beyond x else finite (x / y)
  | nan, _ => nan
  | _, nan => nan
  | finite _, _ => finite 0
  | posInf, finite y => if y < 0 then negInf else posInf
  | negInf, finite y => if y < 0 then posInf else negInf
  | _, _ => nan

/-- The test for being less. -/
def less : Extended K → Extended K → Bool
  | finite x, finite y => decide (x < y)
  | nan, _ => false
  | _, nan => false
  | negInf, negInf => false
  | negInf, _ => true
  | posInf, _ => false
  | finite _, posInf => true
  | finite _, negInf => false

/-- The test for being the same. -/
def same : Extended K → Extended K → Bool
  | finite x, finite y => decide (x = y)
  | negInf, negInf => true
  | posInf, posInf => true
  | _, _ => false

variable [FloorRing K] [Elementary K]

/-- The logarithm: there is none below nought, and that of nought is infinite. -/
def log : Extended K → Extended K
  | finite x => if x < 0 then nan else if x = 0 then negInf else finite (Elementary.log x)
  | posInf => posInf
  | _ => nan

/-- Extended numbers are scalars. -/
instance scalar : Scalar (Extended K) where
  add := add
  sub x y := add x (neg y)
  mul := mul
  div := div
  ofInt n := finite n
  lt := less
  le x y := less x y || same x y
  eq := same
  isNaN
    | nan => true
    | _ => false
  isFinite
    | finite _ => true
    | _ => false
  log := log
  nearest
    | finite x => .ok (Exact.nearest x)
    | nan => .error .nan
    | _ => .error .infinite
  single
    | finite x => finite (Elementary.single x)
    | x => x
  halfPrecision
    | finite x => finite (Elementary.halfPrecision x)
    | x => x

/-! ## Sums -/

/-- Sums may be made in any order. -/
instance exactSums : ExactSums (Extended K) where
  add_assoc x y z := by
    cases x <;> cases y <;> cases z <;>
      first | rfl | exact congrArg finite (add_assoc ..)
  add_comm x y := by
    cases x <;> cases y <;> first | rfl | exact congrArg finite (add_comm ..)
  zero_add x := by
    cases x <;> first | rfl | exact congrArg finite (by simp)

/-! ## Finite numbers -/

theorem isFinite_iff {x : Extended K} : Scalar.isFinite x = true ↔ ∃ a, x = finite a := by
  cases x <;> simp [Scalar.isFinite]

theorem isFinite_add {x y : Extended K} (hx : Scalar.isFinite x = true)
    (hy : Scalar.isFinite y = true) : Scalar.isFinite (x + y) = true := by
  obtain ⟨a, rfl⟩ := isFinite_iff.1 hx
  obtain ⟨b, rfl⟩ := isFinite_iff.1 hy
  rfl

theorem isFinite_sub {x y : Extended K} (hx : Scalar.isFinite x = true)
    (hy : Scalar.isFinite y = true) : Scalar.isFinite (x - y) = true := by
  obtain ⟨a, rfl⟩ := isFinite_iff.1 hx
  obtain ⟨b, rfl⟩ := isFinite_iff.1 hy
  rfl

theorem isFinite_mul {x y : Extended K} (hx : Scalar.isFinite x = true)
    (hy : Scalar.isFinite y = true) : Scalar.isFinite (x * y) = true := by
  obtain ⟨a, rfl⟩ := isFinite_iff.1 hx
  obtain ⟨b, rfl⟩ := isFinite_iff.1 hy
  rfl

/-- A finite number is a number. -/
theorem isNaN_of_isFinite {x : Extended K} (hx : Scalar.isFinite x = true) :
    Scalar.isNaN x = false := by
  obtain ⟨a, rfl⟩ := isFinite_iff.1 hx
  rfl

theorem isFinite_abs {x : Extended K} (hx : Scalar.isFinite x = true) :
    Scalar.isFinite (Scalar.abs x) = true := by
  rw [Scalar.abs]
  split
  · exact isFinite_sub rfl hx
  · exact hx

/-- **Between finite limits** there are only finite numbers. -/
theorem isFinite_of_inside {low high x : Extended K} (hlow : Scalar.isFinite low = true)
    (hhigh : Scalar.isFinite high = true) (hx : Grid.isOutside low high x = false) :
    Scalar.isFinite x = true := by
  obtain ⟨a, rfl⟩ := isFinite_iff.1 hlow
  obtain ⟨b, rfl⟩ := isFinite_iff.1 hhigh
  cases x with
  | finite x => rfl
  | nan => exact absurd hx (by simp [Grid.isOutside, Scalar.isNaN])
  | negInf => exact absurd hx (by simp [Grid.isOutside, Scalar.lt, less])
  | posInf => exact absurd hx (by simp [Grid.isOutside, Scalar.lt, less])

/-! ## Numbers among the extended ones -/

omit [Field K] [LinearOrder K] [FloorRing K] [Elementary K] in
theorem finite_injective : Function.Injective (finite : K → Extended K) := fun _ _ h => by
  cases h
  rfl

omit [Field K] [LinearOrder K] [FloorRing K] [Elementary K] in
theorem finite_ne_nan (x : K) : (finite x : Extended K) ≠ nan := by
  intro h
  cases h

theorem zero_eq : (Scalar.zero : Extended K) = finite 0 := congrArg finite Int.cast_zero

theorem one_eq : (Scalar.one : Extended K) = finite 1 := congrArg finite Int.cast_one

theorem finite_add (x y : K) : (finite x + finite y : Extended K) = finite (x + y) := rfl

theorem finite_sub (x y : K) : (finite x - finite y : Extended K) = finite (x - y) :=
  congrArg finite (sub_eq_add_neg x y).symm

theorem finite_mul (x y : K) : (finite x * finite y : Extended K) = finite (x * y) := rfl

theorem lt_finite (x y : K) :
    Scalar.lt (finite x : Extended K) (finite y) = decide (x < y) := rfl

theorem le_finite (x y : K) : Scalar.le (finite x : Extended K) (finite y) = decide (x ≤ y) := by
  rw [Bool.eq_iff_iff, decide_eq_true_iff, le_iff_lt_or_eq]
  change (decide (x < y) || decide (x = y)) = true ↔ _
  rw [Bool.or_eq_true, decide_eq_true_iff, decide_eq_true_iff]

/-- A list of finite numbers is one of numbers. -/
theorem exists_map_finite {xs : List (Extended K)} (h : ∀ x ∈ xs, Scalar.isFinite x = true) :
    ∃ ys : List K, xs = ys.map finite := by
  induction xs with
  | nil => exact ⟨[], rfl⟩
  | cons x xs ih =>
    obtain ⟨hx, hxs⟩ := List.forall_mem_cons.1 h
    obtain ⟨y, rfl⟩ := isFinite_iff.1 hx
    obtain ⟨ys, rfl⟩ := ih hxs
    exact ⟨y :: ys, rfl⟩

/-! ## The order -/

/-- The place of a number or an infinity in the order. -/
def place : Extended K → WithBot (WithTop K)
  | finite x => ((x : WithTop K) : WithBot (WithTop K))
  | posInf => ((⊤ : WithTop K) : WithBot (WithTop K))
  | _ => ⊥

section Order
variable {x y : Extended K} (hx : x ≠ nan) (hy : y ≠ nan)
include hx hy

omit [Field K] [LinearOrder K] [FloorRing K] [Elementary K] in
theorem ite_ne_nan {c : Prop} [Decidable c] : (if c then x else y) ≠ nan := by
  split
  · exact hx
  · exact hy

theorem lt_iff_place : Scalar.lt x y = true ↔ place x < place y := by
  cases x <;> cases y <;> simp_all [Scalar.lt, less, place]
  exact WithBot.coe_lt_coe.2 (WithTop.coe_lt_top _)

theorem place_lesser :
    place (if Scalar.lt x y = true then x else y) = min (place x) (place y) := by
  by_cases h : Scalar.lt x y = true
  · rw [if_pos h, min_eq_left ((lt_iff_place hx hy).1 h).le]
  · rw [if_neg h, min_eq_right (not_lt.1 (mt (lt_iff_place hx hy).2 h))]

theorem place_greater :
    place (if Scalar.lt y x = true then x else y) = max (place x) (place y) := by
  by_cases h : Scalar.lt y x = true
  · rw [if_pos h, max_eq_left ((lt_iff_place hy hx).1 h).le]
  · rw [if_neg h, max_eq_right (not_lt.1 (mt (lt_iff_place hy hx).2 h))]

end Order

/-- What holds of the choice among two exactly if it does of one of them, holds of the choice among
many exactly if it does of one of them. -/
theorem foldl_holds_iff {β : Type} {f : β → β → β} (good holds : β → Prop)
    (hgood : ∀ x y, good x → good y → good (f x y))
    (hf : ∀ x y, good x → good y → (holds (f x y) ↔ holds x ∨ holds y)) {x : β} {rest : List β}
    (h : ∀ y ∈ x :: rest, good y) : holds (rest.foldl f x) ↔ ∃ y ∈ x :: rest, holds y := by
  induction rest generalizing x with
  | nil => simp
  | cons y rest ih =>
    obtain ⟨hx, hy, hrest⟩ : good x ∧ good y ∧ ∀ z ∈ rest, good z := by simpa using h
    rw [List.foldl_cons, ih (List.forall_mem_cons.2 ⟨hgood x y hx hy, hrest⟩),
      List.exists_mem_cons_iff, hf x y hx hy, List.exists_mem_cons_iff, List.exists_mem_cons_iff,
      or_assoc]

section Extremes
variable {x limit : Extended K} {rest : List (Extended K)} (h : ∀ y ∈ x :: rest, y ≠ nan)
  (hlimit : limit ≠ nan)
include h hlimit

/-- **The least entry is below a limit** exactly if some entry is. -/
theorem least_lt_iff :
    Scalar.lt (Scalar.least x rest) limit = true ↔ ∃ y ∈ x :: rest, Scalar.lt y limit = true := by
  refine foldl_holds_iff (· ≠ nan) (fun y => Scalar.lt y limit = true)
    (fun m y hm hy => ite_ne_nan hm hy) (fun m y hm hy => ?_) h
  rw [lt_iff_place (ite_ne_nan hm hy) hlimit, place_lesser hm hy, min_lt_iff,
    ← lt_iff_place hm hlimit, ← lt_iff_place hy hlimit]

/-- **The greatest entry is above a limit** exactly if some entry is. -/
theorem lt_greatest_iff :
    Scalar.lt limit (Scalar.greatest x rest) = true ↔
      ∃ y ∈ x :: rest, Scalar.lt limit y = true := by
  refine foldl_holds_iff (· ≠ nan) (fun y => Scalar.lt limit y = true)
    (fun m y hm hy => ite_ne_nan hm hy) (fun m y hm hy => ?_) h
  rw [lt_iff_place hlimit (ite_ne_nan hm hy), place_greater hm hy, lt_max_iff,
    ← lt_iff_place hlimit hm, ← lt_iff_place hlimit hy]

end Extremes

/-! ## Grids and queries -/

theorem isFinite_of_checkReference {least : Int} {which : String} {grid : List (Extended K)}
    {d : Direction} (h : Grid.checkReference least which grid = .ok d) :
    ∀ x ∈ grid, Scalar.isFinite x = true := by
  unfold Grid.checkReference at h
  split at h
  · cases h
  · split at h
    · cases h
    · next hall => simpa using hall

/-- The limits of a grid of finite points are finite. -/
theorem isFinite_limits {grid : List (Extended K)} {extpolfac low high : Extended K}
    (hgrid : ∀ x ∈ grid, Scalar.isFinite x = true) (he : Scalar.isFinite extpolfac = true)
    (h : Grid.limits grid extpolfac = .ok (low, high)) :
    Scalar.isFinite low = true ∧ Scalar.isFinite high = true := by
  unfold Grid.limits at h
  split at h
  · next x₀ x₁ _ z₀ z₁ _ hrev =>
    have hreverse : ∀ x ∈ z₀ :: z₁ :: _, Scalar.isFinite x = true := fun x hx =>
      hgrid x (List.mem_reverse.1 (hrev ▸ hx))
    have hx₀ := hgrid x₀ (by simp)
    have hx₁ := hgrid x₁ (by simp)
    have hz₀ := hreverse z₀ (by simp)
    have hz₁ := hreverse z₁ (by simp)
    have hfirst := isFinite_sub hx₀ (isFinite_mul he (isFinite_sub hx₁ hx₀))
    have hlast := isFinite_add hz₀ (isFinite_mul he (isFinite_sub hz₀ hz₁))
    split at h
    · cases h
      exact ⟨hfirst, hlast⟩
    · cases h
      exact ⟨hlast, hfirst⟩
  · cases h

/-- Only finite queries are located, where the factor is finite. -/
theorem isFinite_of_locate {b : Backend} {old new : List (Extended K)} {extpolfac : Extended K}
    {t : TieBreak} {c : Column (Extended K)} (he : Scalar.isFinite extpolfac = true)
    (h : b.locate (NdArray.vector old) (NdArray.vector new) extpolfac (some t) = .ok c) :
    ∀ x ∈ new, Scalar.isFinite x = true := by
  rw [Backend.locate_eq] at h
  obtain ⟨task, hprepare, -⟩ := Outcome.bind_eq_ok_iff.1 h
  rw [Locate.prepare, Outcome.guard_eq_ok_iff, Grid.ofArray_vector, Outcome.ok_bind,
    Grid.ofArray_vector, Outcome.ok_bind] at hprepare
  obtain ⟨d, hreference, hprepare⟩ := Outcome.bind_eq_ok_iff.1 hprepare.2
  obtain ⟨⟨low, high⟩, hlimits, hprepare⟩ := Outcome.bind_eq_ok_iff.1 hprepare
  obtain ⟨u, hwithin, -⟩ := Outcome.bind_eq_ok_iff.1 hprepare
  -- The limits come from finite points, and what passed the checks lies between them.
  obtain ⟨hlow, hhigh⟩ := isFinite_limits (isFinite_of_checkReference hreference) he hlimits
  unfold Grid.checkWithin at hwithin
  split at hwithin
  · cases hwithin
  · next hnone =>
    exact fun x hx => isFinite_of_inside hlow hhigh (Grid.firstWith_eq_none_iff.1 hnone x hx)

/-- Finite abscissas have distances from a finite query. -/
theorem closestOrNaN_eq {xs : List (Extended K)} {x : Extended K}
    (hxs : ∀ a ∈ xs, Scalar.isFinite a = true) (hx : Scalar.isFinite x = true) :
    Neville.closestOrNaN xs x = Neville.closest xs x := by
  refine Neville.closestOrNaN_eq_closest fun d hd => ?_
  obtain ⟨a, ha, rfl⟩ := List.mem_map.1 hd
  exact isNaN_of_isFinite (isFinite_abs (isFinite_sub hx (hxs a ha)))

end Extended
end Regrid
