import Regrid.Proofs.Interpolator.Calls
import Regrid.Proofs.Selections

/-!
# What the values do not depend on

Which bracket a query on a grid point is located in depends on the tie-break, on the
estimate that the scan starts from, and so on the factor of extrapolation, and on the
queries before it.  None of this is left in a value.  Interpolators for the same grids and
the same field that differ in tie-break, factor, backend and spot check have the same axes
(`axes_eq_of_make`), hence one interpolant; and in another order the queries of a call are
located from other brackets, but the values are those of the call, in that order
(`along_of_perm`, `onto_of_perm`).
-/
namespace Regrid

/-! ## Settings -/

/-- The logarithmic axes of a configuration are those of its settings. -/
theorem Config.logAxes_of_make {α : Type} [Scalar α] {settings : Settings α} {cfg : Config α}
    (h : make settings = .ok cfg) : settings.logAxes.mapM AxisNumber.axis = .ok cfg.logAxes :=
  (make_eq_ok_iff.1 h).logAxes

namespace Interpolator

section Making
variable {α : Type} [Scalar α] {cfg cfg' : Config α}

/-- Of a configuration the axes see only which of them are logarithmic. -/
theorem makeAxes_congr (h : cfg.logAxes = cfg'.logAxes) (k : Nat) (shape : List Nat)
    (grids : List (List α)) : makeAxes cfg k shape grids = makeAxes cfg' k shape grids := by
  induction shape generalizing k grids with
  | nil => rfl
  | cons extent shape ih =>
    cases grids with
    | nil => rfl
    | cons points grids =>
      have haxis : makeAxis cfg k extent points = makeAxis cfg' k extent points := by
        rw [makeAxis, makeAxis, Config.isLogarithmic, Config.isLogarithmic, h]
      rw [makeAxes, makeAxes, haxis, ih]

/-- **Grids, field and logarithmic axes** make the axes of an interpolator. -/
theorem axes_eq_of_make {grids : List (NdArray α)} {field : NdArray α} {I J : Interpolator α}
    (hI : make grids field cfg = .ok I) (hJ : make grids field cfg' = .ok J)
    (h : cfg.logAxes = cfg'.logAxes) : I.axes = J.axes ∧ I.field = J.field := by
  obtain ⟨points, hpoints, -, -, -, haxes, -, hfield, -⟩ := make_eq_ok_iff.1 hI
  obtain ⟨points', hpoints', -, -, -, haxes', -, hfield', -⟩ := make_eq_ok_iff.1 hJ
  rw [hpoints] at hpoints'
  obtain rfl := Except.ok.inj hpoints'
  rw [makeAxes_congr h, haxes'] at haxes
  exact ⟨(Except.ok.inj haxes).symm, hfield.trans hfield'.symm⟩

end Making

variable {K : Type} [Field K] [LinearOrder K] [FloorRing K] [Elementary K] {I : Interpolator K}

/-! ## The order of the queries -/

/-- Whether queries are accepted does not depend on their order, nor on repetitions. -/
theorem acceptsAll_congr {xss yss : List (List K)}
    (h : List.Forall₂ (fun xs ys => ∀ x, x ∈ xs ↔ x ∈ ys) xss yss) :
    I.AcceptsAll xss ↔ I.AcceptsAll yss := by
  unfold AcceptsAll
  generalize I.axes = axes
  induction h generalizing axes with
  | nil => rfl
  | cons head _ ih =>
    rw [List.forall₂_cons_right_iff, List.forall₂_cons_right_iff]
    refine exists_congr fun a => exists_congr fun rest => ?_
    rw [ih]
    simp only [head]

variable [IsStrictOrderedRing K]

/-- **Along a sequence in another order** there are values when there are values along it,
and they are those values in that order. -/
theorem along_of_perm (hI : I.WellFormed) {cs : List (List K)} {m : Nat}
    (hlen : ∀ c ∈ cs, c.length = m) {js : List Nat} (hjs : js.Perm (List.range m))
    (out : Option (Container K)) :
    ((∃ a, I.along (cs.map NdArray.vector) out = .ok a) ↔
      ∃ b, I.along ((cs.map (Column.pick · js)).map NdArray.vector) out = .ok b) ∧
    ∀ a b, I.along (cs.map NdArray.vector) out = .ok a →
      I.along ((cs.map (Column.pick · js)).map NdArray.vector) out = .ok b →
      b.shape = a.shape ∧ b.toList = Column.pick a.toList js := by
  have hperm : ∀ c ∈ cs, js.Perm (List.range c.length) := by
    intro c hc
    rwa [hlen c hc]
  have hlen' : ∀ c ∈ cs.map (Column.pick · js), c.length = m := by
    intro c hc
    obtain ⟨d, hd, rfl⟩ := List.mem_map.1 hc
    rw [Column.length_pick_of_perm (hperm d hd), hlen d hd]
  have haccepts : I.AcceptsAll cs ↔ I.AcceptsAll (cs.map (Column.pick · js)) := by
    refine acceptsAll_congr (List.forall₂_map_right_iff.2 (List.forall₂_same.2 fun c hc x => ?_))
    exact (Column.mem_pick_of_perm (hperm c hc)).symm
  rw [along_out, along_out _ out]
  apply Sample.deliver_related out
  · rw [exists_along_iff hI hlen, exists_along_iff hI hlen', haccepts]
  · intro a b ha hb
    obtain ⟨hshape, hv⟩ := along_eq_ok hI hlen ha
    obtain ⟨hshape', hw⟩ := along_eq_ok hI hlen' hb
    rw [Weights.sideBySide_pick ((acceptsAll_of_along hI ha).ne_nil hI) hlen
      (Column.lt_of_mem_perm hjs)] at hw
    exact ⟨hshape'.trans hshape.symm,
      (coincide_of_eq hI rfl rfl).values_eq hw (Column.forall₂_pick hv js)⟩
  · intro f a b hab
    rw [NdArray.toList_map, NdArray.toList_map, hab, Column.pick_map]

/-- **Onto a grid with its points in another order**, on any of its axes, there are values
when there are values onto the grid, and each is that at the place it was taken from. -/
theorem onto_of_perm (hI : I.WellFormed) {hs : List (List K)} {jss : List (List Nat)}
    (hjs : List.Forall₂ (fun (h : List K) js => js.Perm (List.range h.length)) hs jss)
    (out : Option (Container K)) :
    ((∃ a, I.onto (hs.map NdArray.vector) out = .ok a) ↔
      ∃ b, I.onto ((List.zipWith Column.pick hs jss).map NdArray.vector) out = .ok b) ∧
    ∀ a b, I.onto (hs.map NdArray.vector) out = .ok a →
      I.onto ((List.zipWith Column.pick hs jss).map NdArray.vector) out = .ok b →
      b.shape = a.shape ∧
        ∀ ix jx, Sample.entries? jss ix = some jx → b.get? ix = a.get? jx := by
  have hlt : List.Forall₂ (fun (h : List K) js => ∀ j ∈ js, j < h.length) hs jss :=
    hjs.imp fun h js hperm => Column.lt_of_mem_perm hperm
  obtain ⟨hmem, hlengths⟩ := Column.zipWith_pick_of_perm hjs
  rw [onto_out, onto_out _ out]
  apply Sample.deliver_related out
  · rw [exists_onto_iff hI, exists_onto_iff hI, acceptsAll_congr hmem]
  · intro a b ha hb
    refine ⟨?_, fun ix jx hjx => ?_⟩
    · rw [(onto_eq_ok hI hb).1, (onto_eq_ok hI ha).1, hlengths]
    · -- Both places are those of one point.
      obtain ⟨xs, hxs⟩ := Sample.exists_entries?_of_lt hlt hjx
      have hpick : Sample.entries? (List.zipWith Column.pick hs jss) ix = some xs := by
        rw [Sample.entries?_pick hlt, hjx, Option.bind_some, hxs]
      obtain ⟨v, hget, hv⟩ := exists_get?_onto hI ha hxs
      obtain ⟨w, hget', hw⟩ := exists_get?_onto hI hb hpick
      rw [hget, hget', hv.unique hI hw]
  · intro f a b hab ix jx hjx
    rw [NdArray.get?_map, NdArray.get?_map, hab ix jx hjx]

/-! ## Brackets leave no trace -/

/-- **The values are free of the choice of brackets.**

* Take two interpolators for the same grids and the same field, from settings that differ at
  most in the factor of extrapolation, the tie-break, the backend and whether weights are
  checked.  A call that both answer is answered alike, at a point, along a sequence and onto a
  grid, whatever the arguments and the container.
* Along a sequence whose points are put in another order, the same for every axis, there are
  values when there are values along the sequence, and they are those values in that order.
* Onto a grid whose points are put in another order, on each axis in one of its own, there are
  values when there are values onto the grid, and each of them is that at the multi-index that
  its own is taken from. -/
theorem values_free_of_brackets {settings : Settings K} {extpolfac : K} {tieBreak : Option TieBreak}
    {backend : Option BackendChoice} {checkWeights : Bool} {cfg cfg' : Config K}
    (hcfg : Config.make settings = .ok cfg)
    (hcfg' : Config.make { settings with extpolfac, tieBreak, backend, checkWeights } = .ok cfg')
    {grids : List (NdArray K)} {field : NdArray K} {I J : Interpolator K}
    (hI : make grids field cfg = .ok I) (hJ : make grids field cfg' = .ok J) :
    ((∀ point v w, I.valueAt point = .ok v → J.valueAt point = .ok w → v = w) ∧
      (∀ args out a b, I.along args out = .ok a → J.along args out = .ok b → a = b) ∧
      ∀ args out a b, I.onto args out = .ok a → J.onto args out = .ok b → a = b) ∧
    (∀ (cs : List (List K)) (m : Nat), (∀ c ∈ cs, c.length = m) →
      ∀ js : List Nat, js.Perm (List.range m) → ∀ out,
        ((∃ a, I.along (cs.map NdArray.vector) out = .ok a) ↔
          ∃ b, I.along ((cs.map (Column.pick · js)).map NdArray.vector) out = .ok b) ∧
        ∀ a b, I.along (cs.map NdArray.vector) out = .ok a →
          I.along ((cs.map (Column.pick · js)).map NdArray.vector) out = .ok b →
          b.shape = a.shape ∧ b.toList = Column.pick a.toList js) ∧
    (∀ (hs : List (List K)) (jss : List (List Nat)),
      List.Forall₂ (fun (h : List K) js => js.Perm (List.range h.length)) hs jss → ∀ out,
        ((∃ a, I.onto (hs.map NdArray.vector) out = .ok a) ↔
          ∃ b, I.onto ((List.zipWith Column.pick hs jss).map NdArray.vector) out = .ok b) ∧
        ∀ a b, I.onto (hs.map NdArray.vector) out = .ok a →
          I.onto ((List.zipWith Column.pick hs jss).map NdArray.vector) out = .ok b →
          b.shape = a.shape ∧
            ∀ ix jx, Sample.entries? jss ix = some jx → b.get? ix = a.get? jx) := by
  have hlog : cfg.logAxes = cfg'.logAxes := by
    have h := Config.logAxes_of_make hcfg
    rw [Config.logAxes_of_make hcfg'] at h
    exact (Except.ok.inj h).symm
  obtain ⟨haxes, hfield⟩ := axes_eq_of_make hI hJ hlog
  have hwI : I.WellFormed := Made.wellFormed ⟨settings, cfg, grids, field, hcfg, hI⟩
  have hwJ : J.WellFormed := Made.wellFormed ⟨_, cfg', grids, field, hcfg', hJ⟩
  have hco : Coincide I J := coincide_of_eq hwI haxes hfield
  refine ⟨⟨?_, ?_, ?_⟩, ?_, ?_⟩
  · intro point v w hv hw
    exact hco.valueAt_eq hwI hwJ hv hw
  · intro args out a b ha hb
    exact hco.along_eq hwI hwJ ha hb
  · intro args out a b ha hb
    exact hco.onto_eq hwI hwJ ha hb
  · intro cs m hlen js hjs out
    exact along_of_perm hwI hlen hjs out
  · intro hs jss hjs out
    exact onto_of_perm hwI hjs out

/-- A point on an inner grid point of the ascending axis and on an end of the other, located
in different brackets by two interpolators that differ in all that may differ. -/
theorem values_free_of_brackets_two_axes :
    let field : NdArray ℚ := ⟨[3, 2], #[1, 2, 3, 5, 8, 13], rfl⟩
    let cfg : Config ℚ :=
      ⟨3 / 4, 1 / 1000, ⟨false, 1 / 1000000⟩, .lower, .fused, .adaptive3, [⟨1, false⟩]⟩
    let I := twoAxes field
    let J := { twoAxes field with config := cfg, backend := .fused }
    let point : List (NdArray ℚ) := [NdArray.scalar 1, NdArray.scalar 2]
    Config.make logSecond = .ok I.config ∧
      Config.make { logSecond with
        extpolfac := 3 / 4, tieBreak := some .lower, backend := some .fused,
        checkWeights := false } = .ok cfg ∧
      (I.locate 0 (NdArray.scalar 1) false).toOption.map Column.idx = some [0] ∧
      (J.locate 0 (NdArray.scalar 1) false).toOption.map Column.idx = some [1] ∧
      ∃ v, I.valueAt point = .ok v ∧ J.valueAt point = .ok v := by
  intro field cfg I J point
  have hcfg : Config.make logSecond = .ok I.config := config_twoAxes field
  have hcfg' : Config.make { logSecond with
      extpolfac := 3 / 4, tieBreak := some .lower, backend := some .fused,
      checkWeights := false } = .ok cfg := config_fused
  have hI : make [NdArray.vector [0, 1, 3], NdArray.vector [2, 1]] field I.config = .ok I :=
    make_twoAxes rfl rfl rfl
  have hJ : make [NdArray.vector [0, 1, 3], NdArray.vector [2, 1]] field cfg = .ok J :=
    make_twoAxes rfl rfl rfl
  obtain ⟨⟨hat, -, -⟩, -, -⟩ := values_free_of_brackets hcfg hcfg' hI hJ
  refine ⟨hcfg, hcfg', by decide +kernel, by decide +kernel, ?_⟩
  obtain ⟨v, hv⟩ := Outcome.exists_of_isOk (x := I.valueAt point) (by decide +kernel)
  obtain ⟨w, hw⟩ := Outcome.exists_of_isOk (x := J.valueAt point) (by decide +kernel)
  exact ⟨v, hv, by rw [hw, hat point v w hv hw]⟩

end Interpolator
end Regrid
