import Regrid.Proofs.Flips
import Regrid.Proofs.Interpolator.Faults

/-!
# Mirrored interpolators

Some of the grids of an interpolator are read from their other ends, and the field is flipped
along these axes.  What is made of this is the mirrored interpolator
(`Interpolator.make_mirrored`), and it is made exactly when the interpolator is
(`exists_make_iff`).  It accepts the same queries (`alike_mirrored`), and its interpolant is the
same function (`coincide_mirrored`), so it answers every call in the same way.

On a mirrored axis the positions of a query are opposite to each other (`opposite_of_locate`).
-/
namespace Regrid

/-- The axis read from its other end. -/
def Axis.mirrored {α : Type} (a : Axis α) : Axis α := { a with points := a.points.reverse }

theorem Axis.located_mirrored {α : Type} [Scalar α] (a : Axis α) :
    a.mirrored.located = a.located.reverse := by
  unfold located mirrored
  by_cases h : a.logarithmic = true
  · rw [if_pos h, if_pos h, List.map_reverse]
  · rw [if_neg h, if_neg h]

variable {K : Type} [Field K] [LinearOrder K] [FloorRing K] [Elementary K]

namespace Interpolator

/-- The interpolator with the flagged axes mirrored, and the field flipped along them. -/
def mirrored (flags : List Bool) (I : Interpolator K) : Interpolator K :=
  { I with axes := doWhere Axis.mirrored flags I.axes, field := I.field.flipped flags }

variable [IsStrictOrderedRing K] {I : Interpolator K} {flags : List Bool}

/-! ## Making -/

section Making
variable {grids : List (NdArray K)} {field : NdArray K} {cfg : Config K}

omit [IsStrictOrderedRing K] in
/-- A mirrored axis passes if the axis does. -/
theorem Axis.Sound.mirrored {a : Axis K} (h : Axis.Sound a) : Axis.Sound a.mirrored := by
  obtain ⟨d, hord⟩ := h.ordered
  refine ⟨fun hlog x hx => h.positive hlog x (List.mem_reverse.1 hx), ?_, d.opposite, ?_⟩
  · rw [Axis.mirrored, List.length_reverse]
    exact h.two
  · rw [Axis.located_mirrored]
    exact hord.reverse

theorem makeAxis_mirrored {k extent : Nat} {points : List K} {a : Axis K}
    (h : makeAxis cfg k extent points = .ok a) :
    makeAxis cfg k extent points.reverse = .ok a.mirrored := by
  obtain ⟨rfl, hlen, hsound⟩ := makeAxis_eq_ok_iff_sound.1 h
  exact makeAxis_eq_ok_iff_sound.2 ⟨rfl, by rw [List.length_reverse, hlen], hsound.mirrored⟩

theorem makeAxes_mirrored {k : Nat} {shape : List Nat} {points : List (List K)}
    {axes : List (Axis K)} (hflags : flags.length = points.length)
    (h : makeAxes cfg k shape points = .ok axes) :
    makeAxes cfg k shape (doWhere List.reverse flags points) =
      .ok (doWhere Axis.mirrored flags axes) := by
  induction shape generalizing k flags points axes with
  | nil =>
    cases h
    cases flags <;> rfl
  | cons extent shape ih =>
    cases flags with
    | nil =>
      obtain rfl := List.length_eq_zero_iff.1 hflags.symm
      cases h
      rfl
    | cons b flags =>
      cases points with
      | nil => cases hflags
      | cons xs points =>
        obtain ⟨a, others, ha, hothers, rfl⟩ := makeAxes_cons_eq_ok_iff.1 h
        have haxis : makeAxis cfg k extent (if b then xs.reverse else xs) =
            .ok (if b then a.mirrored else a) := by
          cases b with
          | true => exact makeAxis_mirrored ha
          | false => exact ha
        rw [doWhere_cons, doWhere_cons]
        exact makeAxes_cons_eq_ok_iff.2 ⟨_, _, haxis, ih (Nat.succ.inj hflags) hothers, rfl⟩

/-- **Mirrored grids and the flipped field make the mirrored interpolator.** -/
theorem make_mirrored (hflags : flags.length = grids.length) (h : make grids field cfg = .ok I) :
    make (doWhere NdArray.reversed flags grids) (field.flipped flags) cfg =
      .ok (I.mirrored flags) := by
  obtain ⟨points, hpoints, hempty, hrank, hlog, haxes, hbackend, rfl, rfl⟩ := make_eq_ok_iff.1 h
  obtain ⟨hgrids, rfl⟩ := gridPoints_eq_ok_iff.1 hpoints
  have hflags' : flags.length = (grids.map NdArray.toList).length := by
    rw [List.length_map, hflags]
  have hlen := length_doWhere (f := List.reverse) hflags'
  refine make_eq_ok_iff.2 ⟨doWhere List.reverse flags (grids.map NdArray.toList),
    gridPoints_eq_ok_iff.2 ⟨?_, map_doWhere NdArray.toList_reversed⟩, ?_, ?_, ?_,
    makeAxes_mirrored hflags' haxes, hbackend, rfl, rfl⟩
  · intro g hg
    obtain ⟨g', hg', rfl | rfl⟩ := mem_doWhere hg
    · exact hgrids _ hg'
    · exact hgrids g' hg'
  · intro hnil
    rw [hnil] at hlen
    exact hempty (List.length_eq_zero_iff.1 hlen.symm)
  · rw [hlen]
    exact hrank
  · rw [hlen]
    exact hlog

/-- **The mirrored interpolator is made** exactly when the interpolator is. -/
theorem exists_make_iff (hflags : flags.length = grids.length) :
    (∃ J, make (doWhere NdArray.reversed flags grids) (field.flipped flags) cfg = .ok J) ↔
      ∃ I, make grids field cfg = .ok I := by
  constructor
  · rintro ⟨J, hJ⟩
    -- Mirroring the mirrored grids gives the grids back.
    have hback := make_mirrored (by rw [length_doWhere hflags, hflags]) hJ
    rw [doWhere_doWhere NdArray.reversed_reversed hflags, NdArray.flipped_flipped] at hback
    exact ⟨_, hback⟩
  · rintro ⟨I, hI⟩
    exact ⟨_, make_mirrored hflags hI⟩

end Making

/-! ## Accepting and interpolating -/

omit [IsStrictOrderedRing K] in
theorem alike_of_mirrored {a : Axis K} {d : Direction} (htwo : 2 ≤ a.points.length)
    (hord : Grid.Ordered d a.located) (extpolfac : K) : a.mirrored.Alike extpolfac a := by
  refine ⟨rfl, ?_⟩
  rw [Axis.located_mirrored, Grid.limits_reverse hord (by rwa [Axis.length_located])]

omit [IsStrictOrderedRing K] in
theorem forall₂_alike_mirrored {axes : List (Axis K)} (hflags : flags.length = axes.length)
    (h : ∀ a ∈ axes, 2 ≤ a.points.length ∧ ∃ d, Grid.Ordered d a.located) (extpolfac : K) :
    List.Forall₂ (Axis.Alike extpolfac) (doWhere Axis.mirrored flags axes) axes := by
  induction axes generalizing flags with
  | nil =>
    obtain rfl := List.length_eq_zero_iff.1 hflags
    exact .nil
  | cons a axes ih =>
    cases flags with
    | nil => cases hflags
    | cons b flags =>
      obtain ⟨⟨htwo, d, hd⟩, hlater⟩ := List.forall_mem_cons.1 h
      refine .cons ?_ (ih (Nat.succ.inj hflags) hlater)
      cases b with
      | true => exact alike_of_mirrored htwo hd _
      | false => exact ⟨rfl, rfl⟩

omit [IsStrictOrderedRing K] in
/-- **Mirrored axes accept alike.** -/
theorem alike_mirrored (hI : I.WellFormed) (hflags : flags.length = I.axes.length) :
    Alike (I.mirrored flags) I :=
  ⟨rfl, forall₂_alike_mirrored hflags hI.ordered I.config.extpolfac⟩

omit [IsStrictOrderedRing K] in
theorem coordinates_mirrored (hflags : flags.length = I.axes.length) (xs : List K) :
    (I.mirrored flags).coordinates xs = I.coordinates xs := by
  have hlogarithmic : (doWhere Axis.mirrored flags I.axes).map Axis.logarithmic =
      I.axes.map Axis.logarithmic := map_doWhere_eq hflags fun _ => rfl
  exact coordinates_congr hlogarithmic xs

/-- **The interpolant of the mirrored interpolator** is that of the interpolator. -/
theorem coincide_mirrored (hI : I.WellFormed) (hflags : flags.length = I.axes.length) :
    Coincide (I.mirrored flags) I := by
  intro xs v w hv hw
  obtain ⟨-, qs, hqs, rfl⟩ := hv
  obtain ⟨-, ps, hps, rfl⟩ := hw
  have hlocated : (I.mirrored flags).axes.map Axis.located =
      doWhere List.reverse flags (I.axes.map Axis.located) := map_doWhere Axis.located_mirrored
  rw [coordinates_mirrored hflags, hlocated] at hqs
  have hshape : I.field.shape = (I.axes.map Axis.located).map List.length := by
    rw [hI.shape, List.map_map]
    exact List.map_congr_left fun a _ => a.length_located.symm
  exact Cell.value_flipped hI.ordered_located (by rw [List.length_map, hflags]) hps hqs hshape

/-! ## Locating on a mirrored axis -/

section Locating
variable {k : Nat} {a : Axis K} {values : NdArray K} {clamp : Bool} {e : Column K}

theorem locate_eq_positions {α : Type} [Scalar α] {I : Interpolator α} {a : Axis α}
    (ha : I.axes[k]? = some a) (values : NdArray α) :
    I.locate k values clamp = I.positions k a values >>= fun c =>
      if clamp then c.clamp I.config.tolerance else pure c := by
  rw [locate, if_neg (by omega), Int.toNat_natCast, ha]

omit [IsStrictOrderedRing K] in
/-- Located are the positions along the axis, none of them beyond repair if noise is to be
removed. -/
theorem exists_locate_iff (hI : I.WellFormed) (ha : I.axes[k]? = some a) :
    (∃ e, I.locate k values clamp = .ok e) ↔ ∃ c, I.positions k a values = .ok c ∧
      (clamp = true → ∀ p ∈ c.toList, p.deviates I.config.tolerance = false) := by
  rw [locate_eq_positions ha]
  cases clamp with
  | false => simp [Outcome.bind_eq_ok_iff]
  | true => simp [Outcome.bind_eq_ok_iff, Column.clamp_eq_ok_iff hI.tolerance]

omit [IsStrictOrderedRing K] in
/-- What is located are the positions, without noise if noise is to be removed. -/
theorem positions_of_locate (hI : I.WellFormed) (ha : I.axes[k]? = some a)
    (h : I.locate k values clamp = .ok e) : ∃ c, I.positions k a values = .ok c ∧
      e.toList = c.toList.map (if clamp then Position.clipped else id) := by
  rw [locate_eq_positions ha] at h
  obtain ⟨c, hc, he⟩ := Outcome.bind_eq_ok_iff.1 h
  refine ⟨c, hc, ?_⟩
  cases clamp with
  | false =>
    cases he
    exact (List.map_id _).symm
  | true =>
    obtain ⟨-, rfl⟩ := (Column.clamp_eq_ok_iff hI.tolerance).1 he
    exact Column.toList_ofPositions _

end Locating

omit [IsStrictOrderedRing K] in
/-- A value whose coordinate is on an inner point is on an inner point. -/
theorem inner_of_inner_located {a : Axis K} {x : K}
    (hpositive : a.logarithmic = true → ∀ y ∈ a.points, 0 < y) (hx : a.logarithmic = true → 0 < x)
    (h : Grid.Inner a.located (a.coordinate x)) : Grid.Inner a.points x := by
  obtain ⟨j, hj, hlast, heq⟩ := h
  rw [Axis.length_located] at hlast
  refine ⟨j, hj, hlast, ?_⟩
  by_cases hlog : a.logarithmic = true
  · rw [Axis.located, Axis.coordinate, if_pos hlog, if_pos hlog, List.getElem?_map,
      Option.map_eq_some_iff] at heq
    obtain ⟨y, hy, hxy⟩ := heq
    have hpos : 0 < y := hpositive hlog y (List.mem_of_getElem? hy)
    rw [hy, Elementary.eq_of_log_eq hpos (hx hlog) hxy]
  · rwa [Axis.located, Axis.coordinate, if_neg hlog, if_neg hlog] at heq

omit [IsStrictOrderedRing K] in
/-- **What holds of two columns**, of positions of the same values in a grid and in the mirrored
grid: as numbers they are opposite to each other, and so are the brackets of values off the inner
points. -/
structure Opposite (grid xs : List K) (c c' : Column K) : Prop where
  fractional : c'.fractional = c.fractional.map fun x => (grid.length - 1 : K) - x
  exchanged : ∀ (i : Nat) (x : K) (p : Position K), xs[i]? = some x → c.toList[i]? = some p →
    ¬ Grid.Inner grid x → c'.toList[i]? = some (p.mirrored grid.length)

section Columns
variable {grid zs : List K} {d : Direction} {c c' e e' : Column K}

omit [IsStrictOrderedRing K] in
/-- Positions of the same queries are opposite, and stay so after something that does no harm
is done to them all. -/
theorem opposite_of_fits (hfits : List.Forall₂ (Grid.Fits grid) zs c.toList)
    (hfits' : List.Forall₂ (Grid.Fits grid.reverse) zs c'.toList) {f : Position K → Position K}
    (he : e.toList = c.toList.map f) (he' : e'.toList = c'.toList.map f)
    (hf : ∀ z p q, Grid.Fits grid z p → Grid.Fits grid.reverse z q →
      Grid.Mirrors grid z (f p) (f q)) : Opposite grid zs e e' := by
  have hat : ∀ (i : Nat) (z : K), zs[i]? = some z →
      ∃ p q, e.toList[i]? = some p ∧ e'.toList[i]? = some q ∧ Grid.Mirrors grid z p q := by
    intro i z hz
    obtain ⟨p, hp, hfit⟩ := Choices.exists_getElem? hfits hz
    obtain ⟨q, hq, hfit'⟩ := Choices.exists_getElem? hfits' hz
    refine ⟨f p, f q, ?_, ?_, hf z p q hfit hfit'⟩
    · rw [he, List.getElem?_map, hp]
      rfl
    · rw [he', List.getElem?_map, hq]
      rfl
  constructor
  · rw [Column.fractional_eq_map, Column.fractional_eq_map, List.map_map]
    refine List.ext_getElem? fun i => ?_
    rw [List.getElem?_map, List.getElem?_map]
    cases hz : zs[i]? with
    | some z =>
      obtain ⟨p, q, hp, hq, hmirrors⟩ := hat i z hz
      rw [hp, hq]
      exact congrArg some hmirrors.fractional
    | none =>
      rw [List.getElem?_eq_none_iff] at hz
      rw [List.getElem?_eq_none (by rw [he', List.length_map, ← hfits'.length_eq]; exact hz),
        List.getElem?_eq_none (by rw [he, List.length_map, ← hfits.length_eq]; exact hz)]
      rfl
  · intro i z p hz hp hinner
    obtain ⟨p', q, hp', hq, hmirrors⟩ := hat i z hz
    rw [hp] at hp'
    cases hp'
    rw [hq, hmirrors.exchanged hinner]

/-- Noise is beyond repair in both columns or in neither. -/
theorem deviates_iff_of_fits (hord : Grid.Ordered d grid)
    (hfits : List.Forall₂ (Grid.Fits grid) zs c.toList)
    (hfits' : List.Forall₂ (Grid.Fits grid.reverse) zs c'.toList) {tolerance : K}
    (htolerance : 0 < tolerance) :
    (∀ q ∈ c'.toList, q.deviates tolerance = false) ↔
      ∀ p ∈ c.toList, p.deviates tolerance = false := by
  generalize c.toList = ps at hfits ⊢
  generalize c'.toList = qs at hfits' ⊢
  induction hfits generalizing qs with
  | nil =>
    cases hfits'
    rfl
  | cons head _ ih =>
    cases hfits' with
    | cons head' tail' =>
      rw [List.forall_mem_cons, List.forall_mem_cons, ih _ tail',
        head.deviates_eq hord head' htolerance]

end Columns

omit [LinearOrder K] [FloorRing K] [Elementary K] [IsStrictOrderedRing K] in
theorem axes_mirrored_getElem? {k : Nat} {a : Axis K} (hk : flags[k]? = some true)
    (ha : I.axes[k]? = some a) : (I.mirrored flags).axes[k]? = some a.mirrored := by
  show (doWhere Axis.mirrored flags I.axes)[k]? = some a.mirrored
  rw [doWhere, List.getElem?_zipWith, hk, ha]
  rfl

section Mirrored
variable {k : Nat} {a : Axis K} {values : NdArray K}

/-- The positions on both axes fit the same coordinates. -/
theorem fits_of_positions_mirrored (hI : I.WellFormed) (hJ : (I.mirrored flags).WellFormed)
    (ha : a ∈ I.axes) (ha' : a.mirrored ∈ (I.mirrored flags).axes) {c c' : Column K}
    (hc : I.positions k a values = .ok c)
    (hc' : (I.mirrored flags).positions k a.mirrored values = .ok c') :
    List.Forall₂ (Grid.Fits a.located) (values.toList.map a.coordinate) c.toList ∧
      List.Forall₂ (Grid.Fits a.located.reverse) (values.toList.map a.coordinate) c'.toList := by
  have hrank := rank_le_one_of_positions hc
  rw [positions_eq_vector k _ hrank] at hc hc'
  have hfits' := fits_of_positions hJ ha' hc'
  rw [Axis.located_mirrored] at hfits'
  exact ⟨List.forall₂_map_left_iff.2 (fits_of_positions hI ha hc), List.forall₂_map_left_iff.2 hfits'⟩

/-- Opposite positions of coordinates are opposite positions of values. -/
theorem Opposite.of_located (hI : I.WellFormed) (ha : a ∈ I.axes) {c : Column K}
    (hc : I.positions k a values = .ok c) {e e' : Column K}
    (h : Opposite a.located (values.toList.map a.coordinate) e e') :
    Opposite a.points values.toList e e' := by
  rw [positions_eq_vector k _ (rank_le_one_of_positions hc)] at hc
  obtain ⟨hfractional, hexchanged⟩ := h
  rw [Axis.length_located] at hfractional hexchanged
  refine ⟨hfractional, fun i x p hx hp hinner => hexchanged i (a.coordinate x) p ?_ hp fun h => ?_⟩
  · rw [List.getElem?_map, hx]
    rfl
  · have hpositive := (accepts_of_positions hI ha hc x (List.mem_of_getElem? hx)).1
    exact hinner (inner_of_inner_located (hI.positive a ha) hpositive h)

variable (hI : I.WellFormed) (hJ : (I.mirrored flags).WellFormed) (hk : flags[k]? = some true)
  (ha : I.axes[k]? = some a) {clamp : Bool}
include hI hJ hk ha

/-- On a mirrored axis the values are located that are located on the axis. -/
theorem exists_locate_mirrored_iff :
    (∃ e', (I.mirrored flags).locate k values clamp = .ok e') ↔
      ∃ e, I.locate k values clamp = .ok e := by
  have ha' := axes_mirrored_getElem? hk ha
  have hmem : a ∈ I.axes := List.mem_of_getElem? ha
  have hmem' : a.mirrored ∈ (I.mirrored flags).axes := List.mem_of_getElem? ha'
  obtain ⟨htwo, d, hord⟩ := hI.ordered a hmem
  have hboth := (positions_failAlike hJ hI rfl hmem' hmem (alike_of_mirrored htwo hord _) k
    values).exists_ok_iff
  have hgood : ∀ c c', I.positions k a values = .ok c →
      (I.mirrored flags).positions k a.mirrored values = .ok c' →
      ((∀ q ∈ c'.toList, q.deviates I.config.tolerance = false) ↔
        ∀ p ∈ c.toList, p.deviates I.config.tolerance = false) := by
    intro c c' hc hc'
    obtain ⟨hfits, hfits'⟩ := fits_of_positions_mirrored hI hJ hmem hmem' hc hc'
    exact deviates_iff_of_fits hord hfits hfits' hI.tolerance
  rw [exists_locate_iff hJ ha', exists_locate_iff hI ha]
  constructor
  · rintro ⟨c', hc', h⟩
    obtain ⟨c, hc⟩ := hboth.1 ⟨c', hc'⟩
    exact ⟨c, hc, fun hclamp => (hgood c c' hc hc').1 (h hclamp)⟩
  · rintro ⟨c, hc, h⟩
    obtain ⟨c', hc'⟩ := hboth.2 ⟨c, hc⟩
    exact ⟨c', hc', fun hclamp => (hgood c c' hc hc').2 (h hclamp)⟩

/-- **What is located on a mirrored axis** is opposite to what is located on the axis. -/
theorem opposite_of_locate {e e' : Column K} (he : I.locate k values clamp = .ok e)
    (he' : (I.mirrored flags).locate k values clamp = .ok e') :
    Opposite a.points values.toList e e' := by
  have ha' := axes_mirrored_getElem? hk ha
  have hmem : a ∈ I.axes := List.mem_of_getElem? ha
  obtain ⟨htwo, d, hord⟩ := hI.ordered a hmem
  obtain ⟨c, hc, he⟩ := positions_of_locate hI ha he
  obtain ⟨c', hc', he'⟩ := positions_of_locate hJ ha' he'
  obtain ⟨hfits, hfits'⟩ :=
    fits_of_positions_mirrored hI hJ hmem (List.mem_of_getElem? ha') hc hc'
  refine Opposite.of_located hI hmem hc (opposite_of_fits hfits hfits' he he' fun z p q hp hq => ?_)
  cases clamp with
  | false => exact hp.mirrors hord hq
  | true => exact hp.mirrors_clipped hord hq

end Mirrored

/-! ## Symmetry -/

/-- With rows of one length along a sequence, with any rows onto a grid and with numbers at a
point, one for each axis, the only fault is that a query is out of range. -/
theorem outOfRange_of_calls (hI : I.WellFormed) :
    (∀ xs : List K, xs.length = I.rank → ∀ f, I.valueAt (xs.map NdArray.scalar) = .error f →
      ∃ cause, f = .outOfRange cause) ∧
    (∀ (cs : List (List K)) (m : Nat), cs.length = I.rank → (∀ c ∈ cs, c.length = m) →
      ∀ f, I.along (cs.map NdArray.vector) none = .error f → ∃ cause, f = .outOfRange cause) ∧
    (∀ hs : List (List K), hs.length = I.rank → ∀ f, I.onto (hs.map NdArray.vector) none = .error f →
      ∃ cause, f = .outOfRange cause) := by
  refine ⟨?_, ?_, ?_⟩
  · intro xs hcount f hf
    have hcolumns := (valueAt_failAlike_columns hI _ f).1 hf
    rw [wrapped_scalars] at hcolumns
    exact outOfRange_of_columns hI (by rw [List.length_map, hcount]) hcolumns
  · intro cs m hcount hlen f hf
    have hrows : ∀ v ∈ cs.map NdArray.vector, v.toList.length = m := by
      refine List.forall_mem_map.2 fun c hc => ?_
      rw [NdArray.toList_vector, hlen c hc]
    exact outOfRange_of_columns hI hcount ((along_failAlike_columns hI hrows f).1 hf)
  · intro hs hcount f hf
    exact outOfRange_of_columns hI hcount ((onto_failAlike_columns hI _ f).1 hf)

/-- **Direction is no part of the result.**  Read any of the grids from their other ends, and flip
the field along these axes.

* An interpolator is made of this exactly when one is made of the grids and the field.
* The two answer every call alike, with the same values or the same fault, whatever the arguments
  and the container.
* If a call has what it needs, numbers or rows for all axes, and along a sequence rows of one
  length, the only fault is that a query is out of range.
* On an axis that is read from its other end the envelope is the same, the same values are located,
  and the positions, as numbers, are opposite to each other.  For a value that is on no inner grid
  point the brackets are opposite to each other, and the distances are exchanged. -/
theorem direction_symmetric {settings : Settings K} {cfg : Config K}
    (hcfg : Config.make settings = .ok cfg) {grids : List (NdArray K)} {flags : List Bool}
    (hflags : flags.length = grids.length) (field : NdArray K) :
    ((∃ J, make (doWhere NdArray.reversed flags grids) (field.flipped flags) cfg = .ok J) ↔
      ∃ I, make grids field cfg = .ok I) ∧
    ∀ I J, make grids field cfg = .ok I →
      make (doWhere NdArray.reversed flags grids) (field.flipped flags) cfg = .ok J →
      ((∀ point, J.valueAt point = I.valueAt point) ∧
        (∀ args out, J.along args out = I.along args out) ∧
        ∀ args out, J.onto args out = I.onto args out) ∧
      ((∀ xs : List K, xs.length = I.rank → ∀ f, I.valueAt (xs.map NdArray.scalar) = .error f →
          ∃ cause, f = .outOfRange cause) ∧
        (∀ (cs : List (List K)) (m : Nat), cs.length = I.rank → (∀ c ∈ cs, c.length = m) →
          ∀ f, I.along (cs.map NdArray.vector) none = .error f → ∃ cause, f = .outOfRange cause) ∧
        ∀ hs : List (List K), hs.length = I.rank →
          ∀ f, I.onto (hs.map NdArray.vector) none = .error f → ∃ cause, f = .outOfRange cause) ∧
      ∀ (k : Nat) (a b : Axis K), flags[k]? = some true → I.axes[k]? = some a →
        J.axes[k]? = some b →
        (∀ extpolfac, Grid.limits b.located extpolfac = Grid.limits a.located extpolfac) ∧
        ∀ values clamp,
          ((∃ c', J.locate k values clamp = .ok c') ↔ ∃ c, I.locate k values clamp = .ok c) ∧
          ∀ c c', I.locate k values clamp = .ok c → J.locate k values clamp = .ok c' →
            c'.fractional = c.fractional.map (fun x => (a.points.length - 1 : K) - x) ∧
            ∀ (i : Nat) (x : K) (p : Position K), values.toList[i]? = some x →
              c.toList[i]? = some p → ¬ Grid.Inner a.points x →
              c'.toList[i]? = some ⟨a.points.length - 2 - p.idx, p.complement, p.fraction⟩ := by
  refine ⟨exists_make_iff hflags, fun I J hI hJ => ?_⟩
  have hmirrored := make_mirrored hflags hI
  rw [hJ] at hmirrored
  cases hmirrored
  have hwI : I.WellFormed := Made.wellFormed ⟨settings, cfg, grids, field, hcfg, hI⟩
  have hwJ : (I.mirrored flags).WellFormed := Made.wellFormed ⟨settings, cfg, _, _, hcfg, hJ⟩
  have haxes : flags.length = I.axes.length := by
    rw [hflags, ← List.length_map NdArray.toList, ← (points_of_make hI).2, List.length_map]
  have hco := coincide_mirrored hwI haxes
  have halike := alike_mirrored hwI haxes
  refine ⟨⟨?_, ?_, ?_⟩, outOfRange_of_calls hwI, fun k a b hk ha hb => ⟨?_, ?_⟩⟩
  · exact hco.valueAt_congr hwJ hwI halike
  · exact hco.along_congr hwJ hwI halike
  · exact hco.onto_congr hwJ hwI halike
  · intro extpolfac
    rw [axes_mirrored_getElem? hk ha] at hb
    cases hb
    obtain ⟨htwo, d, hord⟩ := hwI.ordered a (List.mem_of_getElem? ha)
    exact (alike_of_mirrored htwo hord extpolfac).limits
  · intro values clamp
    refine ⟨exists_locate_mirrored_iff hwI hwJ hk ha, fun c c' hc hc' => ?_⟩
    obtain ⟨hfractional, hexchanged⟩ := opposite_of_locate hwI hwJ hk ha hc hc'
    exact ⟨hfractional, hexchanged⟩

/-- Both axes read from their other ends: a point between grid points of the first axis, and
beyond the first point of the second. -/
theorem direction_symmetric_two_axes :
    let field : NdArray ℚ := ⟨[3, 2], #[1, 2, 3, 5, 8, 13], rfl⟩
    let point : List (NdArray ℚ) := [NdArray.scalar 2, NdArray.scalar (9 / 4)]
    Config.make logSecond = .ok (twoAxes field).config ∧
      field.flipped [true, true] = ⟨[3, 2], #[13, 8, 5, 3, 2, 1], rfl⟩ ∧
      ∃ J v, make [NdArray.vector [3, 1, 0], NdArray.vector [1, 2]] (field.flipped [true, true])
          (twoAxes field).config = .ok J ∧
        (twoAxes field).valueAt point = .ok v ∧ J.valueAt point = .ok v := by
  intro field point
  have hcfg : Config.make logSecond = .ok (twoAxes field).config := config_twoAxes field
  have hI : make [NdArray.vector [0, 1, 3], NdArray.vector [2, 1]] field (twoAxes field).config =
      .ok (twoAxes field) := make_twoAxes rfl rfl rfl
  have hgrids : doWhere NdArray.reversed [true, true]
      [NdArray.vector [0, 1, 3], NdArray.vector [2, 1]] =
        ([NdArray.vector [3, 1, 0], NdArray.vector [1, 2]] : List (NdArray ℚ)) := by
    simp [doWhere, NdArray.reversed_vector]
  have hflags : [true, true].length =
      [NdArray.vector [0, 1, 3], (NdArray.vector [2, 1] : NdArray ℚ)].length := rfl
  obtain ⟨hiff, hsame⟩ := direction_symmetric hcfg hflags field
  obtain ⟨J, hJ⟩ := hiff.2 ⟨_, hI⟩
  obtain ⟨⟨hat, -, -⟩, -, -⟩ := hsame _ J hI hJ
  obtain ⟨v, hv⟩ := Outcome.exists_of_isOk (x := (twoAxes field).valueAt point) (by decide +kernel)
  rw [hgrids] at hJ
  exact ⟨hcfg, NdArray.ext_toList rfl (by decide +kernel), J, v, hJ, hv, (hat point).trans hv⟩

end Interpolator
end Regrid
