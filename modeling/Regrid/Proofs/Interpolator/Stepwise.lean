import Regrid.Proofs.Interpolator.Regridded

/-!
# One axis at a time

A field may be brought onto new grids in one call, or one axis after the other in any order: each
time an interpolator is made for the field as it is, and called onto the grids as they are with new
points on one axis (`Interpolator.ontoStepwise`).  On the way the axes that are still to come have
their old points, the others have their new ones (`Stepwise.between`).

The field on the way is what the first interpolator is on the grids on the way.  One step
preserves this (`Interpolator.exists_onto_step`): the axis that moves still has the points that
the first interpolator has, and on each of the others the call asks for the points that are
there, which are carried over whatever they are.  So in the end, in any order, the field is what
the first interpolator is on the new grids (`Interpolator.stepwise_eq_onto`).
-/
namespace Regrid

/-! ## Grids on the way -/

namespace Stepwise

variable {α β : Type} {olds news : List (List α)} {todo : List Nat}

/-- **The grids on the way** from old ones to new ones, when the axes `todo` are still to come. -/
def between (olds news : List (List α)) (todo : List Nat) : List (List α) :=
  olds.mapIdx fun k old => if k ∈ todo then old else news.getD k []

theorem length_between : (between olds news todo).length = olds.length := List.length_mapIdx

theorem getElem?_between (hlen : olds.length = news.length) (k : Nat) :
    (between olds news todo)[k]? = if k ∈ todo then olds[k]? else news[k]? := by
  rw [between, List.getElem?_mapIdx]
  by_cases hk : k < olds.length
  · rw [List.getElem?_eq_getElem hk, List.getElem?_eq_getElem (hlen ▸ hk), List.getD_eq_getElem]
    split <;> rfl
  · rw [List.getElem?_eq_none (by omega), List.getElem?_eq_none (by omega)]
    simp

/-- Before the first step. -/
theorem between_range (hlen : olds.length = news.length)
    (h : ∀ k < olds.length, k ∈ todo) : between olds news todo = olds := by
  refine List.ext_getElem? fun k => ?_
  rw [getElem?_between hlen]
  by_cases hk : k < olds.length
  · rw [if_pos (h k hk)]
  · rw [List.getElem?_eq_none (by omega), List.getElem?_eq_none (by omega), ite_self]

/-- After the last step. -/
theorem between_nil (hlen : olds.length = news.length) : between olds news [] = news :=
  List.ext_getElem? fun k => by rw [getElem?_between hlen, if_neg (by simp)]

/-- A step changes one of the grids. -/
theorem getElem?_between_cons (hlen : olds.length = news.length) (k j : Nat) :
    (between olds news (k :: todo))[j]? =
      if j = k then olds[j]? else (between olds news todo)[j]? := by
  rw [getElem?_between hlen, getElem?_between hlen]
  by_cases hj : j = k
  · simp [hj]
  · simp [hj]

theorem set_between (hlen : olds.length = news.length) {k : Nat} (hk : k ∉ todo) :
    (between olds news (k :: todo)).set k (news.getD k []) = between olds news todo := by
  refine List.ext_getElem? fun j => ?_
  rw [List.getElem?_set, length_between, getElem?_between_cons hlen]
  by_cases hj : k = j
  · subst hj
    rw [if_pos rfl, getElem?_between hlen, if_neg hk]
    split
    · next hlt => rw [List.getElem?_eq_getElem (hlen ▸ hlt), List.getD_eq_getElem]
    · next hlt => rw [List.getElem?_eq_none (by omega)]
  · rw [if_neg hj, if_neg (Ne.symm hj)]

/-- What holds of the old grids and of the new ones holds on the way. -/
theorem forall₂_between {R : β → List α → Prop} {as : List β} (holds : List.Forall₂ R as olds)
    (hnews : List.Forall₂ R as news) : List.Forall₂ R as (between olds news todo) := by
  have hlen := holds.length_eq.symm.trans hnews.length_eq
  rw [Choices.forall₂_iff_getElem?] at holds hnews ⊢
  refine ⟨by rw [length_between, holds.1], fun k a points ha hpoints => ?_⟩
  rw [getElem?_between hlen] at hpoints
  split at hpoints
  · exact holds.2 k a points ha hpoints
  · exact hnews.2 k a points ha hpoints

end Stepwise

namespace Interpolator

/-- **The field brought onto new grids one axis after the other**, in the order in which the
axes are listed: each time an interpolator is made, and called onto the grids with new points on
one axis. -/
def ontoStepwise {α : Type} [Scalar α] (cfg : Config α) (news : List (List α)) :
    List Nat → List (NdArray α) → NdArray α → Except (Fault α) (NdArray α)
  | [], _, field => return field
  | k :: todo, grids, field => do
    let I ← make grids field cfg
    let grids := grids.set k (NdArray.vector (news.getD k []))
    let field ← I.onto grids none
    ontoStepwise cfg news todo grids field

variable {K : Type} [Field K] [LinearOrder K] [IsStrictOrderedRing K] [FloorRing K] [Elementary K]
variable {I : Interpolator K}

/-! ## One step -/

section Step
variable {J : Interpolator K} {grids next : List (List K)} {extpolfac : K}

/-- What a step asks for: each axis either is where the interpolator `I` has it, or is asked
for points that it has. -/
def Asks (I : Interpolator K) (grids next : List (List K)) : Prop :=
  ∀ (j : Nat) (a : Axis K) (g h : List K), I.axes[j]? = some a → grids[j]? = some g →
    next[j]? = some h → g = a.points ∨ h ⊆ g

variable (hasks : Asks I grids next)
  (hgrids : List.Forall₂ (Axis.MovesTo extpolfac) I.axes grids)
include hasks hgrids

/-- The next points are accepted on the grids, too. -/
theorem Asks.acceptsAll (hwJ : J.WellFormed)
    (haxes : J.axes = List.zipWith Axis.withPoints I.axes grids)
    (hextpolfac : J.config.extpolfac = extpolfac)
    (hnext : List.Forall₂ (Axis.MovesTo extpolfac) I.axes next) : J.AcceptsAll next := by
  obtain ⟨hcount, hmoves⟩ := Choices.forall₂_iff_getElem?.1 hnext
  refine Choices.forall₂_iff_getElem?.2 ⟨?_, fun j b h hb hh x hx => ?_⟩
  · rw [← hcount, haxes, List.length_zipWith, ← hgrids.length_eq, min_self]
  · have hmem := List.mem_of_getElem? hb
    rw [haxes] at hb
    obtain ⟨a, g, ha, hg, rfl⟩ := List.getElem?_zipWith_eq_some.1 hb
    rcases hasks j a g h ha hg hh with rfl | hsub
    · rw [hextpolfac]
      exact (hmoves j a h ha hh).accepts x hx
    · exact hwJ.accepts_of_mem hmem (hsub hx)

/-- The next points are carried over. -/
theorem Asks.carries (hwI : I.WellFormed) (hcount : I.axes.length = next.length) {xs : List K}
    (hxs : List.Forall₂ (· ∈ ·) xs next) :
    Cell.Carries (I.axes.map Axis.located)
      ((List.zipWith Axis.withPoints I.axes grids).map Axis.located) (I.coordinates xs) := by
  refine carries_located hgrids.length_eq (hcount.trans hxs.length_eq.symm) ?_
  intro j a g x ha hg hx
  obtain ⟨h, hh, hxh⟩ := Choices.exists_getElem? hxs hx
  obtain ⟨htwo, d, hd⟩ := hwI.ordered a (List.mem_of_getElem? ha)
  rw [← Axis.length_located] at htwo
  -- A grid carries over to itself; a point of another grid is found there, wherever it is located.
  rcases hasks j a g h ha hg hh with rfl | hsub
  · exact Grid.Refines.carries ⟨⟨d, hd⟩, htwo, ⟨d, hd⟩, List.Subset.refl _⟩ _
  · obtain ⟨d', hd'⟩ := ((Choices.forall₂_iff_getElem?.1 hgrids).2 j a g ha hg).ordered
    refine Grid.carries_point hd htwo hd' ?_
    rw [Axis.located_eq_map, Axis.coordinate_withPoints]
    exact List.mem_map_of_mem (hsub hxh)

end Step

section Run
variable {settings : Settings K} {cfg : Config K} {grids : List (NdArray K)} {field : NdArray K}
  (hcfg : Config.make settings = .ok cfg) (hI : make grids field cfg = .ok I)
include hcfg hI

/-- One step.  Where the values of an interpolator on some grids are known, they make
another interpolator, and both have the same values on the next grids. -/
theorem exists_onto_next {grids' next : List (List K)}
    (hgrids' : List.Forall₂ (Axis.MovesTo cfg.extpolfac) I.axes grids')
    (hnext : List.Forall₂ (Axis.MovesTo cfg.extpolfac) I.axes next) (hasks : Asks I grids' next)
    {G : NdArray K} (hG : I.onto (grids'.map NdArray.vector) none = .ok G) :
    ∃ J F, make (grids'.map NdArray.vector) G cfg = .ok J ∧
      J.onto (next.map NdArray.vector) none = .ok F ∧
      I.onto (next.map NdArray.vector) none = .ok F := by
  have hwI : I.WellFormed := Made.wellFormed ⟨settings, cfg, grids, field, hcfg, hI⟩
  obtain ⟨-, -, -, -, -, -, hb, -, rfl⟩ := make_eq_ok_iff.1 hI
  have hmake := make_moved (fun _ => rfl) hI hgrids' (onto_eq_ok hwI hG).1 hb
  have hwJ := Made.wellFormed ⟨settings, I.config, _, G, hcfg, hmake⟩
  obtain ⟨hpoints, hlogarithmic⟩ := Axis.map_withPoints hgrids'.length_eq
  obtain ⟨F, hF, hshape, -⟩ := exists_onto hwI (hnext.imp fun a h hmove => hmove.accepts)
  obtain ⟨F', hF', hshape', -⟩ := exists_onto hwJ (hasks.acceptsAll hgrids' hwJ rfl rfl hnext)
  refine ⟨_, F, hmake, ?_, hF⟩
  -- Both fields have the same shape, so they are compared entry by entry.
  have heq : F' = F := by
    refine NdArray.ext_get? (hshape'.trans hshape.symm) fun ix hix => ?_
    rw [hshape', ← Sample.entries?_isSome_iff] at hix
    obtain ⟨xs, hxs⟩ := Option.isSome_iff_exists.1 hix
    obtain ⟨v, hv, hvalue⟩ := exists_get?_onto hwI hF hxs
    obtain ⟨w, hw, hvalue'⟩ := exists_get?_onto hwJ hF' hxs
    have hmem := Sample.mem_mesh.1 (Sample.mem_mesh_iff_entries?.2 ⟨ix, hxs⟩)
    have hcarries := hasks.carries hgrids' hwI hnext.length_eq hmem
    rw [hv, hw, value_moved hwI hlogarithmic.symm (by rw [hpoints, hG]) hcarries hvalue hvalue']
  rw [hF', heq]

omit [IsStrictOrderedRing K] hcfg hI in
theorem ontoStepwise_cons {news : List (List K)} {k : Nat} {todo : List Nat} {J : Interpolator K}
    {F : NdArray K} (hJ : make grids field cfg = .ok J)
    (hF : J.onto (grids.set k (NdArray.vector (news.getD k []))) none = .ok F) :
    ontoStepwise cfg news (k :: todo) grids field =
      ontoStepwise cfg news todo (grids.set k (NdArray.vector (news.getD k []))) F := by
  rw [ontoStepwise, hJ, Outcome.ok_bind]
  change J.onto _ none >>= _ = _
  rw [hF, Outcome.ok_bind]

/-- The run.  Where the axes `todo` are still to come, the field that the first interpolator is
on the grids on the way becomes what it is on the new grids. -/
theorem ontoStepwise_between {news : List (List K)}
    (hnews : List.Forall₂ (Axis.MovesTo cfg.extpolfac) I.axes news) {todo : List Nat}
    (htodo : todo.Nodup) {G : NdArray K}
    (hG : I.onto ((Stepwise.between (I.axes.map Axis.points) news todo).map NdArray.vector) none =
      .ok G) :
    ontoStepwise cfg news todo
        ((Stepwise.between (I.axes.map Axis.points) news todo).map NdArray.vector) G =
      I.onto (news.map NdArray.vector) none := by
  have hwI : I.WellFormed := Made.wellFormed ⟨settings, cfg, grids, field, hcfg, hI⟩
  have hstay : List.Forall₂ (Axis.MovesTo cfg.extpolfac) I.axes (I.axes.map Axis.points) := by
    obtain ⟨-, -, -, -, -, -, -, -, rfl⟩ := make_eq_ok_iff.1 hI
    exact hwI.movesTo_points
  have hlen : (I.axes.map Axis.points).length = news.length := by
    rw [List.length_map, hnews.length_eq]
  induction todo generalizing G with
  | nil =>
    rw [Stepwise.between_nil hlen] at hG ⊢
    exact hG.symm
  | cons k todo ih =>
    obtain ⟨hk, htodo⟩ := List.nodup_cons.1 htodo
    -- Axis `k` has not moved yet, and on all others the next points are those that are there.
    have hasks : Asks I (Stepwise.between (I.axes.map Axis.points) news (k :: todo))
        (Stepwise.between (I.axes.map Axis.points) news todo) := by
      intro j a g h ha hg hh
      rw [Stepwise.getElem?_between_cons hlen] at hg
      split at hg
      · rw [List.getElem?_map, ha] at hg
        exact .inl (Option.some.inj hg).symm
      · rw [hh] at hg
        obtain rfl := Option.some.inj hg
        exact .inr (List.Subset.refl _)
    obtain ⟨J, F, hJ, hnext, hF⟩ := exists_onto_next hcfg hI
      (Stepwise.forall₂_between hstay hnews) (Stepwise.forall₂_between hstay hnews) hasks hG
    have hset := congrArg (List.map NdArray.vector) (Stepwise.set_between hlen hk)
    rw [List.map_set] at hset
    rw [ontoStepwise_cons hJ (by rw [hset, hnext]), hset]
    exact ih htodo hF

end Run

/-- **Axis by axis is at once.**  Take an interpolator and for each of its axes a new grid: two
points or more in strict order, in either direction, that the axis accepts.  The field is sampled
onto the new grids, and one gets the same field axis by axis, in every order of the axes: each
time an interpolator is made for the field as it is, and called onto the grids as they are with the
new points on one axis. -/
theorem stepwise_eq_onto {settings : Settings K} {cfg : Config K} {grids : List (NdArray K)}
    {field : NdArray K} (hcfg : Config.make settings = .ok cfg)
    (hI : make grids field cfg = .ok I) {news : List (List K)}
    (hnews : List.Forall₂ (fun (a : Axis K) points => 2 ≤ points.length ∧
      (∃ d, Grid.Ordered d points) ∧ ∀ x ∈ points, a.Accepts cfg.extpolfac x) I.axes news) :
    ∃ F, I.onto (news.map NdArray.vector) none = .ok F ∧
      ∀ order : List Nat, order.Perm (List.range grids.length) →
        ontoStepwise cfg news order grids field = .ok F := by
  have hwI : I.WellFormed := Made.wellFormed ⟨settings, cfg, grids, field, hcfg, hI⟩
  have hmoves : List.Forall₂ (Axis.MovesTo cfg.extpolfac) I.axes news :=
    hnews.imp fun a points h => Axis.movesTo_of_ordered h.1 h.2.1 h.2.2
  have hgrids := vectors_of_make hwI hI
  have hlen : (I.axes.map Axis.points).length = news.length := by
    rw [List.length_map, hnews.length_eq]
  obtain ⟨-, -, -, -, -, -, -, rfl, rfl⟩ := make_eq_ok_iff.1 hI
  obtain ⟨F, hF, -⟩ := exists_onto hwI (hmoves.imp fun a points h => h.accepts)
  refine ⟨F, hF, fun order horder => ?_⟩
  have hbetween : Stepwise.between (I.axes.map Axis.points) news order = I.axes.map Axis.points := by
    refine Stepwise.between_range hlen fun k hk => horder.mem_iff.2 (List.mem_range.2 ?_)
    rwa [hgrids, List.length_map]
  have hrun := ontoStepwise_between hcfg hI hmoves (horder.nodup_iff.2 List.nodup_range)
    (G := I.field) (by rw [hbetween, onto_points hwI])
  rw [hbetween, ← hgrids, hF] at hrun
  exact hrun

/-- An ascending axis that is brought onto descending points, one of them beyond its end, and a
descending logarithmic one that is brought onto more points, in either order. -/
theorem stepwise_eq_onto_two_axes :
    let field : NdArray ℚ := ⟨[3, 2], #[1, 2, 3, 5, 8, 13], rfl⟩
    let grids : List (NdArray ℚ) := [NdArray.vector [0, 1, 3], NdArray.vector [2, 1]]
    let news : List (List ℚ) := [[7 / 2, 1 / 2], [1, 5 / 4, 7 / 4]]
    let cfg := (twoAxes field).config
    Config.make logSecond = .ok cfg ∧ make grids field cfg = .ok (twoAxes field) ∧
      ∃ F, (twoAxes field).onto (news.map NdArray.vector) none = .ok F ∧
        ontoStepwise cfg news [0, 1] grids field = .ok F ∧
        ontoStepwise cfg news [1, 0] grids field = .ok F := by
  intro field grids news cfg
  have hcfg : Config.make logSecond = .ok cfg := config_twoAxes field
  have hI : make grids field cfg = .ok (twoAxes field) := make_twoAxes rfl rfl rfl
  have hnews : List.Forall₂ (fun (a : Axis ℚ) points => 2 ≤ points.length ∧
      (∃ d, Grid.Ordered d points) ∧ ∀ x ∈ points, a.Accepts cfg.extpolfac x)
      (twoAxes field).axes news := by
    refine .cons ⟨by decide, ⟨.descending, by decide +kernel⟩, ?_⟩
      (.cons ⟨by decide, ⟨.ascending, by decide +kernel⟩, ?_⟩ .nil)
    · exact Axis.accepts_of_inEnvelope .ascending (1 / 2) (by decide +kernel) (by decide)
        (by decide +kernel)
    · exact Axis.accepts_of_inEnvelope .descending (1 / 2) (by decide +kernel) (by decide)
        (by decide +kernel)
  obtain ⟨F, hF, hstepwise⟩ := stepwise_eq_onto hcfg hI hnews
  exact ⟨hcfg, hI, F, hF, hstepwise [0, 1] (by decide), hstepwise [1, 0] (by decide)⟩

end Interpolator
end Regrid
