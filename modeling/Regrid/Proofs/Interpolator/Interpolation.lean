import Regrid.Proofs.Interpolator.Placing
import Regrid.Proofs.Sample.Samplers

/-!
# The interpolant

An interpolator stands for a function of points (`Interpolator.Interpolates`): defined
where every axis accepts its value, it is the value in a cell that holds the coordinates
of the point.  Which cell that is does not matter (`Interpolates.unique`), so nothing is
left in it of the way in which a point was located, nor of the backend.  Two interpolators may
stand for one function (`Coincide`), as they do with axes and field in common
(`coincide_of_eq`).

The three protocols compute this function.  At a single point that is all there is to
say (`valueAt_eq_ok_iff`); along a sequence and onto a grid it is said entry by entry
(`exists_along`, `exists_onto`), and the calls succeed exactly when every axis accepts
all of its values (`acceptsAll_of_along`, `acceptsAll_of_onto`).
-/
namespace Regrid
namespace Interpolator

/-- The coordinates of a point, by which it is located: one per axis. -/
def coordinates {α : Type} [Scalar α] (I : Interpolator α) (xs : List α) : List α :=
  List.zipWith Axis.coordinate I.axes xs

/-- Of the axes the coordinates see only which of them are logarithmic. -/
theorem coordinates_congr {α : Type} [Scalar α] {I J : Interpolator α}
    (h : I.axes.map Axis.logarithmic = J.axes.map Axis.logarithmic) (xs : List α) :
    I.coordinates xs = J.coordinates xs := by
  have happly : ∀ axes : List (Axis α), List.zipWith Axis.coordinate axes xs =
      List.zipWith (fun l x => if l then Scalar.log x else x) (axes.map Axis.logarithmic) xs := by
    intro axes
    rw [List.zipWith_map_left]
    rfl
  rw [coordinates, coordinates, happly, happly, h]

variable {K : Type} [Field K] [LinearOrder K] [FloorRing K] [Elementary K]

/-- Every axis accepts its value of a point. -/
def Accepts (I : Interpolator K) (xs : List K) : Prop :=
  List.Forall₂ (fun (a : Axis K) x => a.Accepts I.config.extpolfac x) I.axes xs

/-- Every axis accepts all of its values. -/
def AcceptsAll (I : Interpolator K) (xss : List (List K)) : Prop :=
  List.Forall₂ (fun (a : Axis K) xs => ∀ x ∈ xs, a.Accepts I.config.extpolfac x) I.axes xss

/-- **The value at a point**, if the point is accepted: that in a cell which holds its
coordinates. -/
def Interpolates (I : Interpolator K) (xs : List K) (v : K) : Prop :=
  I.Accepts xs ∧ ∃ ps, Cell.Fits (I.axes.map Axis.located) (I.coordinates xs) ps ∧
    Cell.value ps I.field.entry = v

variable {I : Interpolator K} {xs : List K} {xss : List (List K)} {v w : K}

/-- Points whose values are accepted one by one are accepted. -/
theorem AcceptsAll.accepts (h : I.AcceptsAll xss) (hmem : List.Forall₂ (· ∈ ·) xs xss) :
    I.Accepts xs :=
  Choices.forall₂_of_mem h hmem

theorem acceptsAll_singletons : I.AcceptsAll (xs.map fun x => [x]) ↔ I.Accepts xs := by
  rw [AcceptsAll, List.forall₂_map_right_iff, Accepts]
  simp only [List.forall_mem_singleton]

/-- Positions that fit the coordinates of points give the values at the points. -/
theorem forall₂_interpolates {rows : List (List K)} {pss : List (List (Position K))}
    (haccepts : ∀ xs ∈ rows, I.Accepts xs)
    (hfits : List.Forall₂ (fun xs ps =>
      Cell.Fits (I.axes.map Axis.located) (List.zipWith Axis.coordinate I.axes xs) ps) rows pss) :
    List.Forall₂ I.Interpolates rows (pss.map fun ps => Cell.value ps I.field.entry) := by
  induction hfits with
  | nil => exact .nil
  | @cons xs ps rows pss head _ ih =>
    obtain ⟨hxs, hrows⟩ := List.forall_mem_cons.1 haccepts
    exact .cons ⟨hxs, ps, head, rfl⟩ (ih hrows)

omit [Field K] [LinearOrder K] [FloorRing K] [Elementary K] in
theorem checkCount_eq_ok_iff {count : Nat} : I.checkCount count = .ok () ↔ count = I.axes.length := by
  rw [checkCount, rank]
  by_cases h : count = I.axes.length <;> simp [h]

variable [IsStrictOrderedRing K]

/-! ## Two interpolants -/

omit [IsStrictOrderedRing K] in
/-- **Two interpolants coincide** at every point where both are defined. -/
def Coincide (I J : Interpolator K) : Prop :=
  ∀ xs v w, I.Interpolates xs v → J.Interpolates xs w → v = w

/-- **Axes and field make the interpolant.** -/
theorem coincide_of_eq (hI : I.WellFormed) {J : Interpolator K} (haxes : I.axes = J.axes)
    (hfield : I.field = J.field) : Coincide I J := by
  intro xs v w hv hw
  obtain ⟨-, ps, hps, rfl⟩ := hv
  obtain ⟨-, qs, hqs, rfl⟩ := hw
  rw [coordinates, ← haxes] at hqs
  rw [← hfield]
  exact Cell.value_eq_of_fits hI.ordered_located hps hqs I.field.entry

/-- **There is one value at a point.** -/
theorem Interpolates.unique (hI : I.WellFormed) (hv : I.Interpolates xs v)
    (hw : I.Interpolates xs w) : v = w :=
  coincide_of_eq hI rfl rfl xs v w hv hw

omit [IsStrictOrderedRing K] in
/-- Interpolants that coincide have the same values at the same points. -/
theorem Coincide.values_eq {J : Interpolator K} (h : Coincide I J) {rows : List (List K)}
    {vs ws : List K} (hv : List.Forall₂ I.Interpolates rows vs)
    (hw : List.Forall₂ J.Interpolates rows ws) : vs = ws := by
  induction hv generalizing ws with
  | nil =>
    cases hw
    rfl
  | cons head _ ih =>
    cases hw with
    | cons head' tail' => rw [h _ _ _ head head', ih tail']

/-! ## Columns for all axes -/

omit [IsStrictOrderedRing K] in
theorem AcceptsAll.ne_nil (hI : I.WellFormed) (h : I.AcceptsAll xss) : xss ≠ [] := by
  rintro rfl
  exact hI.nonempty (List.length_eq_zero_iff.1 h.length_eq)

/-- Queries that are accepted are placed, in columns that are sound on the field. -/
theorem AcceptsAll.exists_columns (hI : I.WellFormed) (h : I.AcceptsAll xss) :
    ∃ cs, I.checkCount xss.length = .ok () ∧
      I.allPositions 0 I.axes (xss.map NdArray.vector) = .ok cs ∧ Placed I.axes xss cs ∧ cs ≠ [] ∧
      Sample.SoundColumns I.field.shape cs := by
  obtain ⟨cs, hcs, hplaced⟩ := exists_allPositions hI (List.Subset.refl _) h 0
  refine ⟨cs, ?_, hcs, hplaced, ?_, ?_⟩
  · rw [checkCount_eq_ok_iff, ← h.length_eq]
  · rintro rfl
    exact hI.nonempty (List.length_eq_zero_iff.1 hplaced.length_eq.1.symm)
  · rw [hI.shape]
    exact hplaced.sound

theorem acceptsAll_of_columns (hI : I.WellFormed) {cs : List (Column K)}
    (hcount : I.checkCount xss.length = .ok ())
    (h : I.allPositions 0 I.axes (xss.map NdArray.vector) = .ok cs) : I.AcceptsAll xss := by
  rw [checkCount_eq_ok_iff] at hcount
  exact accepts_of_allPositions hI (List.Subset.refl _) hcount.symm h

/-! ## Along a sequence -/

/-- **Along a sequence** of accepted points, the values at them. -/
theorem exists_along (hI : I.WellFormed) {n : Nat} (hlen : ∀ xs ∈ xss, xs.length = n)
    (h : I.AcceptsAll xss) :
    ∃ a, I.along (xss.map NdArray.vector) none = .ok a ∧ a.shape = [n] ∧
      List.Forall₂ I.Interpolates (Weights.sideBySide xss) a.toList := by
  obtain ⟨cs, hcount, hcs, hplaced, hne, hsound⟩ := h.exists_columns hI
  have hcolumns : ∀ c ∈ cs, c.length = n :=
    Choices.forall_eq_of_map_eq hplaced.length_eq.2 hlen
  obtain ⟨w, hw, hsample⟩ := Sample.sample_blue I.backend.sampler_exact hI.sumTolerance hne
    hcolumns hsound
  have hvalues := forall₂_interpolates
    (fun xs hxs => h.accepts (Weights.mem_sideBySide (h.ne_nil hI) hxs)) hplaced.sideBySide
  have halong : I.along (xss.map NdArray.vector) none = .ok (NdArray.vector
      ((Weights.sideBySide (cs.map Column.toList)).map fun ps => Cell.value ps I.field.entry)) := by
    rw [along, List.length_map, hcount, Outcome.ok_bind, hcs, Outcome.ok_bind, hw, Outcome.ok_bind]
    exact hsample
  refine ⟨_, halong, ?_, by rwa [NdArray.toList_vector]⟩
  rw [NdArray.shape_vector, ← hvalues.length_eq, Weights.length_sideBySide (h.ne_nil hI) hlen]

/-- Only accepted points give values. -/
theorem acceptsAll_of_along (hI : I.WellFormed) {a : NdArray K}
    (h : I.along (xss.map NdArray.vector) none = .ok a) : I.AcceptsAll xss := by
  obtain ⟨u, hcount, h⟩ := Outcome.bind_eq_ok_iff.1 h
  rw [List.length_map] at hcount
  obtain ⟨cs, hcs, -⟩ := Outcome.bind_eq_ok_iff.1 h
  exact acceptsAll_of_columns hI hcount hcs

/-- Only points with as many coordinates on every axis give values. -/
theorem exists_length_of_along (hI : I.WellFormed) {a : NdArray K}
    (h : I.along (xss.map NdArray.vector) none = .ok a) : ∃ n, ∀ xs ∈ xss, xs.length = n := by
  obtain ⟨cs, -, hcs, hplaced, -⟩ := (acceptsAll_of_along hI h).exists_columns hI
  obtain ⟨u, -, h⟩ := Outcome.bind_eq_ok_iff.1 h
  rw [hcs, Outcome.ok_bind] at h
  obtain ⟨w, hw, -⟩ := Outcome.bind_eq_ok_iff.1 h
  obtain ⟨n, hn⟩ := Weights.exists_length_of_blue hw
  exact ⟨n, Choices.forall_eq_of_map_eq hplaced.length_eq.2.symm hn⟩

/-! ## Onto a grid -/

/-- **Onto a grid** of accepted points, the values at them. -/
theorem exists_onto (hI : I.WellFormed) (h : I.AcceptsAll xss) :
    ∃ a, I.onto (xss.map NdArray.vector) none = .ok a ∧ a.shape = xss.map List.length ∧
      List.Forall₂ I.Interpolates (Sample.mesh xss) a.toList := by
  obtain ⟨cs, hcount, hcs, hplaced, hne, hsound⟩ := h.exists_columns hI
  obtain ⟨w, a, hw, hsample, hshape, hvalues⟩ := Sample.sample_green I.backend.sampler_exact
    hI.sumTolerance hne hsound
  refine ⟨a, ?_, by rw [hshape, hplaced.length_eq.2], ?_⟩
  · rw [onto, List.length_map, hcount, Outcome.ok_bind, hcs, Outcome.ok_bind, hw, Outcome.ok_bind]
    exact hsample
  · rw [hvalues]
    exact forall₂_interpolates (fun xs hxs => h.accepts (Sample.mem_mesh.1 hxs)) hplaced.mesh

/-- Only accepted points give values. -/
theorem acceptsAll_of_onto (hI : I.WellFormed) {a : NdArray K}
    (h : I.onto (xss.map NdArray.vector) none = .ok a) : I.AcceptsAll xss := by
  obtain ⟨u, hcount, h⟩ := Outcome.bind_eq_ok_iff.1 h
  rw [List.length_map] at hcount
  obtain ⟨cs, hcs, -⟩ := Outcome.bind_eq_ok_iff.1 h
  exact acceptsAll_of_columns hI hcount hcs

/-! ## At one point -/

omit [Field K] [LinearOrder K] [FloorRing K] [Elementary K] [IsStrictOrderedRing K] in
theorem wrapped_scalars (xs : List K) :
    (xs.map NdArray.scalar).map Locate.wrapped = (xs.map fun x => [x]).map NdArray.vector := by
  rw [List.map_map, List.map_map]
  rfl

omit [Field K] [LinearOrder K] [FloorRing K] [Elementary K] [IsStrictOrderedRing K] in
theorem get_zero_eq_ok {c : Column K} {p : Position K} (h : c.toList[0]? = some p) :
    c.get 0 = .ok p := by
  have hlt : (0 : Int) < c.toList.length := Int.natCast_pos.2 (List.getElem?_eq_some_iff.1 h).1
  rw [Column.get, Outcome.orBadIndex_eq_ok_iff, Index.item?_of_lt le_rfl hlt]
  exact h

omit [Field K] [LinearOrder K] [FloorRing K] [Elementary K] [IsStrictOrderedRing K] in
/-- Columns that hold one position each give these positions. -/
theorem mapM_get_zero {cs : List (Column K)} {ps : List (Position K)}
    (h : List.Forall₂ (fun (c : Column K) p => c.toList = [p]) cs ps) :
    (cs.mapM fun c => c.get 0) = .ok ps :=
  Outcome.mapM_eq_ok_iff.2 (h.imp fun _ _ hc => get_zero_eq_ok (congrArg (·[0]?) hc))

omit [Field K] [LinearOrder K] [FloorRing K] [Elementary K] [IsStrictOrderedRing K] in
/-- These positions are a choice from the columns. -/
theorem mem_of_single {cs : List (Column K)} {ps : List (Position K)}
    (h : List.Forall₂ (fun (c : Column K) p => c.toList = [p]) cs ps) :
    List.Forall₂ (· ∈ ·) ps (cs.map Column.toList) := by
  refine List.forall₂_map_right_iff.2 (h.flip.imp fun p c hc => ?_)
  rw [hc]
  exact List.mem_singleton_self p

/-- At an accepted point, the value there. -/
theorem exists_valueAt (hI : I.WellFormed) (h : I.Accepts xs) :
    ∃ v, I.valueAt (xs.map NdArray.scalar) = .ok v ∧ I.Interpolates xs v := by
  have hall : I.AcceptsAll (xs.map fun x => [x]) := acceptsAll_singletons.2 h
  obtain ⟨cs, hcount, hcs, hplaced, hne, hsound⟩ := hall.exists_columns hI
  -- The columns hold one position each, and these are the ones that are sampled.
  obtain ⟨ps, hsingle, hfits⟩ := hplaced.exists_single
  have hps : ps ≠ [] := by
    rintro rfl
    exact hne (List.forall₂_nil_right_iff.1 hsingle)
  obtain ⟨w, hw, hsample⟩ := Sample.sample_red I.backend.sampler_exact hI.sumTolerance hps
    (Sample.sound_of_mem hsound (mem_of_single hsingle))
  refine ⟨Cell.value ps I.field.entry, ?_, h, ps, hfits, rfl⟩
  rw [List.length_map] at hcount
  rw [valueAt, List.length_map, hcount, Outcome.ok_bind, wrapped_scalars, hcs, Outcome.ok_bind,
    mapM_get_zero hsingle, Outcome.ok_bind, hw, Outcome.ok_bind, Backend.sample, hsample]
  rfl

/-- **A value at a point is the value of the interpolant**, and there is one for every
accepted point. -/
theorem valueAt_eq_ok_iff (hI : I.WellFormed) :
    I.valueAt (xs.map NdArray.scalar) = .ok v ↔ I.Interpolates xs v := by
  constructor
  · intro h
    obtain ⟨u, hcount, hrun⟩ := Outcome.bind_eq_ok_iff.1 h
    rw [List.length_map, ← List.length_map (fun x => [x])] at hcount
    obtain ⟨cs, hcs, -⟩ := Outcome.bind_eq_ok_iff.1 hrun
    rw [wrapped_scalars] at hcs
    have haccepts := acceptsAll_singletons.1 (acceptsAll_of_columns hI hcount hcs)
    obtain ⟨w, hw, hvalue⟩ := exists_valueAt hI haccepts
    rw [h] at hw
    cases hw
    exact hvalue
  · intro h
    obtain ⟨w, hw, hvalue⟩ := exists_valueAt hI h.1
    rw [hw, hvalue.unique hI h]

end Interpolator
end Regrid
