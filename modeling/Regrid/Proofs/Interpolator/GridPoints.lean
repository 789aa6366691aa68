import Regrid.Proofs.Interpolator.Calls
import Regrid.Proofs.Selections

/-!
# Values at grid points

A grid point may be located at the upper end of one bracket or at the lower end of the next,
on every axis anew.  In either case all of the weight is on the grid point, so the value at a
choice of grid points is the entry of the field there (`Interpolates.get?_eq`).  What lies in the
range of an axis is within its envelope, whatever the factor (`WellFormed.accepts_of_between`), so
grid points are always accepted (`acceptsAll_of_subset`).

Therefore a field is reproduced on its own grid, and a selection of its grid points gathers
the entries of the field (`grid_points_reproduced`).
-/
namespace Regrid

variable {K : Type} [Field K] [LinearOrder K]

/-! ## Cells -/

/-- At grid points of all axes the value in a cell is what belongs to their multi-index. -/
theorem Cell.value_at_points [IsStrictOrderedRing K] {grids : List (List K)} {zs : List K}
    {ps : List (Position K)} (hord : ∀ grid ∈ grids, ∃ d, Grid.Ordered d grid)
    (h : Fits grids zs ps) {ix : List Nat} (hix : Sample.entries? grids ix = some zs)
    (f : List Int → K) : value ps f = f (ix.map Nat.cast) := by
  induction h generalizing ix f with
  | nil =>
    cases ix with
    | nil => rfl
    | cons i is => cases hix
  | @cons grid grids z zs p ps head _ ih =>
    cases ix with
    | nil => cases hix
    | cons j js =>
      obtain ⟨y, ys, hy, hys, heq⟩ := Sample.entries?_cons_eq_some_iff.1 hix
      cases heq
      obtain ⟨d, hd⟩ := hord grid (List.mem_cons_self ..)
      obtain ⟨hj, -⟩ := List.getElem?_eq_some_iff.1 hy
      rw [Grid.getElem?_eq_point hj] at hy
      rw [← Option.some.inj hy] at head
      rw [value, head.lerp_point hd hj]
      exact ih (fun g hg => hord g (List.mem_cons_of_mem _ hg)) hys _

/-! ## Coordinates -/

variable [FloorRing K] [Elementary K]

omit [LinearOrder K] [FloorRing K] [Elementary K] [Field K] in
/-- The points of located space are the coordinates of the points. -/
theorem Axis.located_eq_map {α : Type} [Scalar α] (a : Axis α) :
    a.located = a.points.map a.coordinate := by
  unfold located
  by_cases h : a.logarithmic = true
  · rw [if_pos h]
    refine List.map_congr_left fun x _ => ?_
    rw [coordinate, if_pos h]
  · rw [if_neg h, List.map_congr_left (g := id) fun x _ => ?_, List.map_id]
    rw [coordinate, if_neg h]
    rfl

/-- The coordinates follow the values, which are positive if the axis is logarithmic. -/
theorem Axis.coordinate_le_coordinate {a : Axis K} {x y : K} (hx : a.logarithmic = true → 0 < x)
    (hle : x ≤ y) : a.coordinate x ≤ a.coordinate y := by
  by_cases hlog : a.logarithmic = true
  · have hpos := hx hlog
    rw [coordinate, coordinate, if_pos hlog, if_pos hlog]
    exact (Elementary.strictMonoOn_log.le_iff_le hpos (hpos.trans_le hle)).2 hle
  · rw [coordinate, coordinate, if_neg hlog, if_neg hlog]
    exact hle

/-- In the range of the points of an axis, the coordinate is in the range of theirs. -/
theorem Axis.between_located {a : Axis K} {x : K}
    (hpositive : a.logarithmic = true → ∀ y ∈ a.points, 0 < y) (h : Between a.points x) :
    (a.logarithmic = true → 0 < x) ∧ Between a.located (a.coordinate x) := by
  obtain ⟨⟨y, hy, hyx⟩, z, hz, hxz⟩ := h
  have hpos : a.logarithmic = true → 0 < x := fun hlog => (hpositive hlog y hy).trans_le hyx
  rw [located_eq_map]
  exact ⟨hpos, ⟨_, List.mem_map_of_mem hy, coordinate_le_coordinate (hpositive · y hy) hyx⟩,
    _, List.mem_map_of_mem hz, coordinate_le_coordinate hpos hxz⟩

namespace Interpolator

variable {I : Interpolator K} {xs : List K} {v : K}

/-- A choice in located space is one of the coordinates of grid points. -/
theorem entries?_located (axes : List (Axis K)) (jx : List Nat) :
    Sample.entries? (axes.map Axis.located) jx =
      (Sample.entries? (axes.map Axis.points) jx).map (List.zipWith Axis.coordinate axes) := by
  induction axes generalizing jx with
  | nil => cases jx <;> rfl
  | cons a axes ih =>
    cases jx with
    | nil => rfl
    | cons j js =>
      rw [List.map_cons, List.map_cons, Sample.entries?, Sample.entries?, Axis.located_eq_map,
        List.getElem?_map, ih]
      cases a.points[j]? with
      | none => rfl
      | some y => cases Sample.entries? (axes.map Axis.points) js <;> rfl

variable [IsStrictOrderedRing K]

/-- **Values in the range of an axis are accepted** by it, whatever the factor. -/
theorem WellFormed.accepts_of_between (hI : I.WellFormed) {a : Axis K} (ha : a ∈ I.axes) {x : K}
    (hx : Between a.points x) : a.Accepts I.config.extpolfac x := by
  obtain ⟨htwo, d, hord⟩ := hI.ordered a ha
  rw [← Axis.length_located] at htwo
  obtain ⟨hpos, hbetween⟩ := Axis.between_located (hI.positive a ha) hx
  exact (Axis.accepts_iff hord htwo _ x).2 ⟨hpos, hord.inEnvelope htwo hI.extpolfac hbetween⟩

/-- Grid points are accepted by their axis. -/
theorem WellFormed.accepts_of_mem (hI : I.WellFormed) {a : Axis K} (ha : a ∈ I.axes) {x : K}
    (hx : x ∈ a.points) : a.Accepts I.config.extpolfac x :=
  hI.accepts_of_between ha ⟨⟨x, hx, le_rfl⟩, x, hx, le_rfl⟩

/-- Rows of grid points are accepted. -/
theorem acceptsAll_of_subset (hI : I.WellFormed) {xss : List (List K)}
    (h : List.Forall₂ (fun (a : Axis K) xs => xs ⊆ a.points) I.axes xss) : I.AcceptsAll xss := by
  refine List.forall₂_iff_zip.2 ⟨h.length_eq, fun {a xs} hmem x hx => ?_⟩
  have hsub : xs ⊆ a.points := (List.forall₂_iff_zip.1 h).2 hmem
  exact hI.accepts_of_mem (List.of_mem_zip hmem).1 (hsub hx)

/-- **The value at grid points** is the entry of the field. -/
theorem Interpolates.get?_eq (hI : I.WellFormed) (h : I.Interpolates xs v) {jx : List Nat}
    (hjx : Sample.entries? (I.axes.map Axis.points) jx = some xs) : I.field.get? jx = some v := by
  obtain ⟨-, ps, hps, rfl⟩ := h
  have hsome : (I.field.get? jx).isSome := by
    have hshape : I.field.shape = (I.axes.map Axis.points).map List.length := by
      rw [hI.shape, List.map_map]
      rfl
    rw [NdArray.get?_isSome_iff, hshape, ← Sample.entries?_isSome_iff, hjx]
    rfl
  obtain ⟨w, hw⟩ := Option.isSome_iff_exists.1 hsome
  have hlocated : Sample.entries? (I.axes.map Axis.located) jx = some (I.coordinates xs) := by
    rw [entries?_located, hjx]
    rfl
  rw [Cell.value_at_points hI.ordered_located hps hlocated, NdArray.entry_cast, hw]
  rfl

/-! ## Selections of grid points -/

omit [Field K] [LinearOrder K] [FloorRing K] [Elementary K] [IsStrictOrderedRing K] in
/-- What is selected from the points of an axis is among them. -/
theorem pick_points_subset {axes : List (Axis K)} {jss : List (List Nat)}
    (h : axes.length = jss.length) :
    List.Forall₂ (fun (a : Axis K) xs => xs ⊆ a.points) axes
      (List.zipWith Column.pick (axes.map Axis.points) jss) := by
  induction axes generalizing jss with
  | nil => exact .nil
  | cons a axes ih =>
    cases jss with
    | nil => cases h
    | cons js jss => exact .cons (fun _ => Column.mem_of_mem_pick) (ih (Nat.succ.inj h))

/-- Onto a selection of grid points, the field gathered there. -/
theorem onto_pick (hI : I.WellFormed) {jss : List (List Nat)}
    (hjss : List.Forall₂ (fun (xs : List K) js => ∀ j ∈ js, j < xs.length)
      (I.axes.map Axis.points) jss) :
    ∃ r, I.onto ((List.zipWith Column.pick (I.axes.map Axis.points) jss).map NdArray.vector) none =
        .ok r ∧ r.shape = jss.map List.length ∧
      ∀ ix jx, Sample.entries? jss ix = some jx →
        ∃ v, r.get? ix = some v ∧ I.field.get? jx = some v := by
  have hcount : I.axes.length = jss.length := by rw [← hjss.length_eq, List.length_map]
  have haccepts := acceptsAll_of_subset hI (pick_points_subset hcount)
  obtain ⟨r, hr, hshape, -⟩ := exists_onto hI haccepts
  refine ⟨r, hr, hshape.trans (Column.length_zipWith_pick hjss), fun ix jx hjx => ?_⟩
  obtain ⟨xs, hxs⟩ := Sample.exists_entries?_of_lt hjss hjx
  have hpick : Sample.entries? (List.zipWith Column.pick (I.axes.map Axis.points) jss) ix =
      some xs := by
    rw [Sample.entries?_pick hjss, hjx, Option.bind_some, hxs]
  obtain ⟨v, hv, hvalue⟩ := exists_get?_onto hI hr hpick
  exact ⟨v, hv, hvalue.get?_eq hI hxs⟩

/-- Onto its own grid, the field. -/
theorem onto_points (hI : I.WellFormed) :
    I.onto ((I.axes.map Axis.points).map NdArray.vector) none = .ok I.field := by
  have haccepts : I.AcceptsAll (I.axes.map Axis.points) := by
    refine acceptsAll_of_subset hI (List.forall₂_map_right_iff.2 (List.forall₂_same.2 ?_))
    intro a _
    exact List.Subset.refl _
  obtain ⟨r, hr, hshape, -⟩ := exists_onto hI haccepts
  have hfield : r = I.field := by
    refine NdArray.ext_get? (by rw [hshape, hI.shape, List.map_map]; rfl) fun ix hix => ?_
    rw [hshape, ← Sample.entries?_isSome_iff] at hix
    obtain ⟨xs, hxs⟩ := Option.isSome_iff_exists.1 hix
    obtain ⟨v, hv, hvalue⟩ := exists_get?_onto hI hr hxs
    rw [hv, hvalue.get?_eq hI hxs]
  rw [hr, hfield]

/-- Along a sequence of grid points, the entries of the field there. -/
theorem along_pick (hI : I.WellFormed) {jss : List (List Nat)} {m : Nat}
    (hjss : List.Forall₂ (fun (xs : List K) js => ∀ j ∈ js, j < xs.length)
      (I.axes.map Axis.points) jss) (hlen : ∀ js ∈ jss, js.length = m) :
    ∃ r, I.along ((List.zipWith Column.pick (I.axes.map Axis.points) jss).map NdArray.vector) none =
        .ok r ∧ r.shape = [m] ∧
      ∀ i < m, ∀ jx, List.Forall₂ (fun (js : List Nat) j => js[i]? = some j) jss jx →
        ∃ v, r.get? [i] = some v ∧ I.field.get? jx = some v := by
  have hcount : I.axes.length = jss.length := by rw [← hjss.length_eq, List.length_map]
  have hrows : ∀ xs ∈ List.zipWith Column.pick (I.axes.map Axis.points) jss, xs.length = m :=
    Choices.forall_eq_of_map_eq (Column.length_zipWith_pick hjss) hlen
  obtain ⟨r, hr, hshape, -⟩ :=
    exists_along hI hrows (acceptsAll_of_subset hI (pick_points_subset hcount))
  refine ⟨r, hr, hshape, fun i hi jx hjx => ?_⟩
  obtain ⟨xs, hxs, hat⟩ := Sample.exists_entriesAt_pick hjss hjx
  obtain ⟨v, hv, hvalue⟩ := exists_get?_along hI hrows hr hi hat
  exact ⟨v, hv, hvalue.get?_eq hI hxs⟩

/-- At a choice of grid points, the entry of the field there. -/
theorem exists_valueAt_points (hI : I.WellFormed) {jx : List Nat}
    (hxs : Sample.entries? (I.axes.map Axis.points) jx = some xs) :
    ∃ v, I.valueAt (xs.map NdArray.scalar) = .ok v ∧ I.field.get? jx = some v := by
  have hmem := Sample.mem_mesh.1 (Sample.mem_mesh_iff_entries?.2 ⟨jx, hxs⟩)
  have haccepts : I.Accepts xs := by
    have hsub : List.Forall₂ (fun (a : Axis K) x => x ∈ a.points) I.axes xs :=
      List.forall₂_map_left_iff.1 hmem.flip
    refine List.forall₂_iff_zip.2 ⟨hsub.length_eq, fun {a x} hax => ?_⟩
    exact hI.accepts_of_mem (List.of_mem_zip hax).1 ((List.forall₂_iff_zip.1 hsub).2 hax)
  obtain ⟨v, hv, hvalue⟩ := exists_valueAt hI haccepts
  exact ⟨v, hv, hvalue.get?_eq hI hxs⟩

/-- **Grid points are reproduced**, by every interpolator that is made.

* Onto grids of grid points, selected on each axis in any order and with repetitions, the
  values are the entries of the field at the selected places.
* Onto its own grids the values are the field.
* Along a sequence of grid points, and at one, the values are the entries of the field there. -/
theorem grid_points_reproduced {settings : Settings K} {cfg : Config K} {grids : List (NdArray K)}
    {field : NdArray K} {I : Interpolator K} (hcfg : Config.make settings = .ok cfg)
    (hI : make grids field cfg = .ok I) :
    (∀ jss : List (List Nat),
      List.Forall₂ (fun (g : NdArray K) js => ∀ j ∈ js, j < g.size) grids jss →
      ∃ r, I.onto (List.zipWith (fun g js => NdArray.vector (Column.pick g.toList js)) grids jss)
          none = .ok r ∧ r.shape = jss.map List.length ∧
        ∀ ix jx, Sample.entries? jss ix = some jx →
          ∃ v, r.get? ix = some v ∧ field.get? jx = some v) ∧
    I.onto grids none = .ok field ∧
    (∀ (m : Nat) (jss : List (List Nat)),
      List.Forall₂ (fun (g : NdArray K) js => ∀ j ∈ js, j < g.size) grids jss →
      (∀ js ∈ jss, js.length = m) →
      ∃ r, I.along (List.zipWith (fun g js => NdArray.vector (Column.pick g.toList js)) grids jss)
          none = .ok r ∧ r.shape = [m] ∧
        ∀ i < m, ∀ jx, List.Forall₂ (fun (js : List Nat) j => js[i]? = some j) jss jx →
          ∃ v, r.get? [i] = some v ∧ field.get? jx = some v) ∧
    (∀ jx xs, Sample.entries? (grids.map NdArray.toList) jx = some xs →
      ∃ v, I.valueAt (xs.map NdArray.scalar) = .ok v ∧ field.get? jx = some v) := by
  have hwell : I.WellFormed := Made.wellFormed ⟨settings, cfg, grids, field, hcfg, hI⟩
  obtain ⟨hrank, hpoints⟩ := points_of_make hI
  obtain ⟨-, -, -, -, -, -, -, rfl, -⟩ := make_eq_ok_iff.1 hI
  -- The selections are those from the points of the axes.
  have hplaces : ∀ jss : List (List Nat),
      List.Forall₂ (fun (g : NdArray K) js => ∀ j ∈ js, j < g.size) grids jss →
      List.Forall₂ (fun (xs : List K) js => ∀ j ∈ js, j < xs.length) (I.axes.map Axis.points)
        jss := by
    intro jss hjss
    rw [hpoints, List.forall₂_map_left_iff]
    refine hjss.imp fun g js hjs => ?_
    rwa [NdArray.length_toList]
  have hargs : ∀ jss : List (List Nat),
      List.zipWith (fun g js => NdArray.vector (Column.pick g.toList js)) grids jss =
        (List.zipWith Column.pick (I.axes.map Axis.points) jss).map NdArray.vector := by
    intro jss
    rw [hpoints, List.map_zipWith, List.zipWith_map_left]
  refine ⟨?_, ?_, ?_, ?_⟩
  · intro jss hjss
    rw [hargs]
    exact onto_pick hwell (hplaces jss hjss)
  · rw [onto_eq_vectors hrank, ← hpoints]
    exact onto_points hwell
  · intro m jss hjss hlen
    rw [hargs]
    exact along_pick hwell (hplaces jss hjss) hlen
  · intro jx xs hxs
    rw [← hpoints] at hxs
    exact exists_valueAt_points hwell hxs

/-- Grid points of an ascending axis and of a descending logarithmic one, the last of them
first and one of them twice. -/
theorem grid_points_reproduced_two_axes :
    let field : NdArray ℚ := ⟨[3, 2], #[1, 2, 3, 5, 8, 13], rfl⟩
    Config.make logSecond = .ok (twoAxes field).config ∧
      make [NdArray.vector [0, 1, 3], NdArray.vector [2, 1]] field (twoAxes field).config =
        .ok (twoAxes field) ∧
      (twoAxes field).onto [NdArray.vector [0, 1, 3], NdArray.vector [2, 1]] none = .ok field ∧
      ∃ r, (twoAxes field).onto [NdArray.vector [3, 1, 3], NdArray.vector [1]] none = .ok r ∧
        r.shape = [3, 1] ∧ r.get? [0, 0] = some 13 ∧ r.get? [1, 0] = some 5 := by
  intro field
  have hcfg : Config.make logSecond = .ok (twoAxes field).config := config_twoAxes field
  have hmake : make [NdArray.vector [0, 1, 3], NdArray.vector [2, 1]] field (twoAxes field).config =
      .ok (twoAxes field) := make_twoAxes rfl rfl rfl
  obtain ⟨honto, hself, -, -⟩ := grid_points_reproduced hcfg hmake
  refine ⟨hcfg, hmake, hself, ?_⟩
  have hplaces : List.Forall₂ (fun (g : NdArray ℚ) js => ∀ j ∈ js, j < g.size)
      [NdArray.vector [0, 1, 3], NdArray.vector [2, 1]] [[2, 1, 2], [1]] :=
    .cons (by decide) (.cons (by decide) .nil)
  obtain ⟨r, hr, hshape, hentries⟩ := honto [[2, 1, 2], [1]] hplaces
  obtain ⟨v, hv, hfield⟩ := hentries [0, 0] [2, 1] rfl
  obtain ⟨w, hw, hfield'⟩ := hentries [1, 0] [1, 1] rfl
  cases hfield
  cases hfield'
  exact ⟨r, hr, hshape, hv, hw⟩

end Interpolator
end Regrid
