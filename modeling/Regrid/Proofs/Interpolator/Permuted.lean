import Regrid.Proofs.Interpolator.Calls
import Regrid.Proofs.Transposed

/-!
# Axes in another order

The grids of an interpolator are put in another order, the field is transposed and the logarithmic
axes are renumbered (`Settings.permuted`).  What is made of this is the permuted interpolator, and
it is made exactly when the interpolator is (`Interpolator.make_permuted_iff`).  Its interpolant is
that of the interpolator with the coordinates of the points in the same order
(`Interpolator.interpolates_permuted`).  So the values at a point and along a sequence are the same,
and those onto a grid are the transposed ones (`Interpolator.axes_in_any_order`).
-/
namespace Regrid

/-! ## Settings -/

/-- The number of an axis in another order; a number of no axis stays what it is. -/
def renumbered (s : List Nat) (k : Nat) : Nat := if k < s.length then s.idxOf k else k

section Renumbered
variable {s : List Nat} {n : Nat} (hs : s.Perm (List.range n))
include hs

theorem renumbered_eq_iff {j k : Nat} (hjk : s[j]? = some k) (l : Nat) :
    renumbered s l = j ↔ l = k := by
  have hj := (List.getElem?_eq_some_iff.1 hjk).1
  unfold renumbered
  constructor
  · intro h
    split at h
    · next hl =>
      rw [Column.length_of_perm_range hs] at hl
      have hread := Column.getElem?_idxOf hs hl
      rw [h, hjk] at hread
      exact (Option.some.inj hread).symm
    · omega
  · rintro rfl
    have hl := Column.lt_of_mem_perm hs l (List.mem_of_getElem? hjk)
    rw [if_pos (by rwa [Column.length_of_perm_range hs]), Column.idxOf_getElem? hs hjk]

theorem renumbered_lt_iff (k : Nat) : renumbered s k < n ↔ k < n := by
  have hlen := Column.length_of_perm_range hs
  unfold renumbered
  split
  · next hk =>
    have hlt := (List.getElem?_eq_some_iff.1 (Column.getElem?_idxOf hs (hlen ▸ hk))).1
    omega
  · rfl

theorem renumbered_injective : Function.Injective (renumbered s) := by
  intro k l h
  by_cases hk : k < n
  · have hlt := (renumbered_lt_iff hs k).2 hk
    have hread : s[renumbered s k]? = some k := by
      rw [renumbered, if_pos (by rwa [Column.length_of_perm_range hs]), Column.getElem?_idxOf hs hk]
    exact ((renumbered_eq_iff hs hread l).1 h.symm).symm
  · have hl : ¬ l < n := by rwa [← renumbered_lt_iff hs, ← h, renumbered_lt_iff hs]
    rw [← Column.length_of_perm_range hs] at hk hl
    rwa [renumbered, renumbered, if_neg hk, if_neg hl] at h

end Renumbered

section Settings
variable {α : Type}

/-- **The settings with the logarithmic axes renumbered**, those that a configuration says. -/
def Settings.permuted (settings : Settings α) (s : List Nat) (logAxes : List LogAxis) : Settings α :=
  { settings with logAxes := logAxes.map fun l => .whole (renumbered s l.axis) }

/-- The configuration with the logarithmic axes renumbered. -/
def Config.permuted (cfg : Config α) (s : List Nat) : Config α :=
  { cfg with logAxes := cfg.logAxes.map fun l => ⟨renumbered s l.axis, false⟩ }

variable {settings : Settings α} {cfg : Config α} {s : List Nat} {n : Nat}
  (hs : s.Perm (List.range n))
include hs

/-- Renumbered settings pass, too. -/
theorem Config.make_permuted [Scalar α] (h : make settings = .ok cfg) :
    make (settings.permuted s cfg.logAxes) = .ok (cfg.permuted s) := by
  have hfor := make_eq_ok_iff.1 h
  refine make_eq_ok_iff.2 { hfor with logAxes := ?_, nodup := ?_ }
  · rw [Settings.permuted, Outcome.mapM_eq_ok_iff, Config.permuted, List.forall₂_map_left_iff,
      List.forall₂_map_right_iff, List.forall₂_same]
    intro l _
    rw [AxisNumber.axis, if_neg (by omega), Int.toNat_natCast]
  · have hnodup := hfor.nodup.map (renumbered_injective hs)
    rw [List.map_map] at hnodup
    rw [Config.permuted, List.map_map]
    exact hnodup

/-- An axis is logarithmic where it went. -/
theorem Config.isLogarithmic_permuted {j k : Nat} (hjk : s[j]? = some k) :
    (cfg.permuted s).isLogarithmic j = cfg.isLogarithmic k := by
  rw [isLogarithmic, isLogarithmic, permuted, List.any_map]
  refine congrArg (List.any _) (funext fun l => ?_)
  rw [Function.comp_apply, Bool.eq_iff_iff, beq_iff_eq, beq_iff_eq]
  exact renumbered_eq_iff hs hjk l.axis

/-- Whether the logarithmic axes are among the axes stays as it is. -/
theorem Config.isLogarithmic_permuted_lt :
    (∀ k, (cfg.permuted s).isLogarithmic k = true → k < n) ↔
      ∀ k, cfg.isLogarithmic k = true → k < n := by
  simp [isLogarithmic, permuted, renumbered_lt_iff hs]

end Settings

/-! ## Selections of what belongs to the axes -/

/-- Three lists with an entry each for every axis: what holds of three empty lists and of entries
that belong together, put in front of lists of which it holds, holds of the lists in any order. -/
theorem Column.pick_rec {β γ δ : Type} {T : β → γ → δ → Prop}
    {P : List β → List γ → List δ → Prop} {xs : List β} {ys : List γ} {zs : List δ}
    (hread : ∀ k : Nat, (xs[k]? = none ∧ ys[k]? = none ∧ zs[k]? = none) ∨
      ∃ x y z, xs[k]? = some x ∧ ys[k]? = some y ∧ zs[k]? = some z ∧ T x y z)
    (hnil : P [] [] []) (hcons : ∀ x y z later later' later'', T x y z → P later later' later'' →
      P (x :: later) (y :: later') (z :: later'')) (keys : List Nat) :
    P (pick xs keys) (pick ys keys) (pick zs keys) := by
  induction keys with
  | nil => exact hnil
  | cons k keys ih =>
    rw [pick_cons, pick_cons, pick_cons]
    rcases hread k with ⟨hx, hy, hz⟩ | ⟨x, y, z, hx, hy, hz, htogether⟩
    · rwa [hx, hy, hz]
    · rw [hx, hy, hz]
      exact hcons x y z _ _ _ htogether ih

/-- Positions that fit queries fit them in another order. -/
theorem Cell.Fits.pick {K : Type} [Field K] [LinearOrder K] {grids : List (List K)} {xs : List K}
    {ps : List (Position K)} (h : Fits grids xs ps) (keys : List Nat) :
    Fits (Column.pick grids keys) (Column.pick xs keys) (Column.pick ps keys) := by
  have hread : ∀ k : Nat, (grids[k]? = none ∧ xs[k]? = none ∧ ps[k]? = none) ∨
      ∃ grid x p, grids[k]? = some grid ∧ xs[k]? = some x ∧ ps[k]? = some p ∧ Grid.Fits grid x p := by
    induction h with
    | nil => exact fun k => .inl ⟨rfl, rfl, rfl⟩
    | cons head _ ih =>
      rintro (_ | k)
      · exact .inr ⟨_, _, _, rfl, rfl, rfl, head⟩
      · exact ih k
  exact Column.pick_rec hread .nil (fun _ _ _ _ _ _ => .cons) keys

/-- A choice from lists in another order is the choice in that order. -/
theorem Sample.entries?_pick_lists {β : Type} {lists : List (List β)} {ix : List Nat} {ys : List β}
    (h : entries? lists ix = some ys) (keys : List Nat) :
    entries? (Column.pick lists keys) (Column.pick ix keys) = some (Column.pick ys keys) := by
  have hread : ∀ k : Nat, (lists[k]? = none ∧ ix[k]? = none ∧ ys[k]? = none) ∨
      ∃ xs i y, lists[k]? = some xs ∧ ix[k]? = some i ∧ ys[k]? = some y ∧ xs[i]? = some y := by
    induction lists generalizing ix ys with
    | nil =>
      cases ix with
      | nil =>
        cases h
        exact fun k => .inl ⟨rfl, rfl, rfl⟩
      | cons i is => cases h
    | cons xs lists ih =>
      cases ix with
      | nil => cases h
      | cons i is =>
        obtain ⟨y, zs, hy, hzs, rfl⟩ := entries?_cons_eq_some_iff.1 h
        rintro (_ | k)
        · exact .inr ⟨_, _, _, rfl, rfl, rfl, hy⟩
        · exact ih hzs k
  refine Column.pick_rec (P := fun lists ix ys => entries? lists ix = some ys) hread rfl ?_ keys
  intro xs i y _ _ ys' hentry hlater
  exact entries?_cons_eq_some_iff.2 ⟨y, ys', hentry, hlater, rfl⟩

namespace Interpolator

variable {K : Type} [Field K] [LinearOrder K] [FloorRing K] [Elementary K]

/-- **The interpolator with its axes in another order.** -/
def permuted (I : Interpolator K) (s : List Nat) : Interpolator K where
  axes := Column.pick I.axes s
  field := I.field.transposed s
  config := I.config.permuted s
  backend := I.backend

variable [IsStrictOrderedRing K] {I : Interpolator K} {s : List Nat}

/-! ## Making -/

section Making
variable {grids : List (NdArray K)} {field : NdArray K} {cfg : Config K}

omit [LinearOrder K] [FloorRing K] [Elementary K] [IsStrictOrderedRing K] [Field K] in
/-- The axes on grids in another order are the axes in that order. -/
theorem axesFrom_permuted {points : List (List K)} (hs : s.Perm (List.range points.length)) :
    axesFrom (cfg.permuted s) 0 (Column.pick points s) = Column.pick (axesFrom cfg 0 points) s := by
  have hlt := Column.lt_of_mem_perm hs
  refine List.ext_getElem? fun j => ?_
  rw [axesFrom, List.getElem?_mapIdx, Column.getElem?_pick hlt,
    Column.getElem?_pick (by rwa [axesFrom, List.length_mapIdx])]
  cases hjk : s[j]? with
  | none => rfl
  | some k =>
    rw [Option.bind_some, Option.bind_some, axesFrom, List.getElem?_mapIdx, Nat.zero_add,
      Config.isLogarithmic_permuted hs hjk, Nat.zero_add]

section
variable (hrank : field.rank = grids.length) (hs : s.Perm (List.range grids.length))
include hrank hs

omit [IsStrictOrderedRing K] in
/-- In another order the checks pass exactly when they pass. -/
theorem passes_permuted_iff :
    Passes (Column.pick grids s) (field.transposed s) (cfg.permuted s) ↔ Passes grids field cfg := by
  have hlen := Column.length_pick_of_perm hs
  have hpoints : s.Perm (List.range (grids.map NdArray.toList).length) := by rwa [List.length_map]
  have hmem : ∀ g, g ∈ Column.pick grids s ↔ g ∈ grids := fun g => Column.mem_pick_of_perm hs
  have hempty : Column.pick grids s ≠ [] ↔ grids ≠ [] := by
    rw [← List.length_pos_iff, ← List.length_pos_iff, hlen]
  have hshape : (field.transposed s).shape = (Column.pick grids s).map NdArray.size ↔
      field.shape = grids.map NdArray.size := by
    rw [NdArray.shape_transposed, ← Column.pick_map]
    exact ⟨Column.eq_of_pick_eq hs hrank (List.length_map _), fun h => by rw [h]⟩
  have hsound : (∀ a ∈ axesFrom (cfg.permuted s) 0 ((Column.pick grids s).map NdArray.toList),
      Axis.Sound a) ↔ ∀ a ∈ axesFrom cfg 0 (grids.map NdArray.toList), Axis.Sound a := by
    rw [← Column.pick_map, axesFrom_permuted hpoints]
    refine forall_congr' fun a => imp_congr_left (Column.mem_pick_of_perm ?_)
    rwa [axesFrom, List.length_mapIdx]
  constructor
  · intro h
    refine ⟨fun g hg => h.rows g ((hmem g).2 hg), hempty.1 h.nonempty, hshape.1 h.shape, ?_,
      hsound.1 h.sound⟩
    exact (Config.isLogarithmic_permuted_lt hs).1 (hlen ▸ h.logAxes)
  · intro h
    refine ⟨fun g hg => h.rows g ((hmem g).1 hg), hempty.2 h.nonempty, hshape.2 h.shape, ?_,
      hsound.2 h.sound⟩
    rw [hlen]
    exact (Config.isLogarithmic_permuted_lt hs).2 h.logAxes

/-- In another order the permuted interpolator is made. -/
theorem make_permuted (h : make grids field cfg = .ok I) :
    make (Column.pick grids s) (field.transposed s) (cfg.permuted s) = .ok (I.permuted s) := by
  obtain ⟨hpasses, hbackend, haxes, rfl, rfl⟩ := make_eq_ok_iff_passes.1 h
  refine make_eq_ok_iff_passes.2 ⟨(passes_permuted_iff hrank hs).2 hpasses, hbackend, ?_, rfl, rfl⟩
  rw [← Column.pick_map, axesFrom_permuted (by rwa [List.length_map]), ← haxes]
  rfl

/-- It is made exactly when the interpolator is. -/
theorem exists_make_permuted_iff :
    (∃ J, make (Column.pick grids s) (field.transposed s) (cfg.permuted s) = .ok J) ↔
      ∃ I, make grids field cfg = .ok I := by
  constructor
  · rintro ⟨J, hJ⟩
    obtain ⟨hpasses, hbackend, -⟩ := make_eq_ok_iff_passes.1 hJ
    exact ⟨⟨_, field, cfg, J.backend⟩, make_eq_ok_iff_passes.2
      ⟨(passes_permuted_iff hrank hs).1 hpasses, hbackend, rfl, rfl, rfl⟩⟩
  · rintro ⟨I, hI⟩
    exact ⟨_, make_permuted hrank hs hI⟩

end

end Making

/-! ## Accepting and interpolating -/

section Calls
variable (hI : I.WellFormed) (hs : s.Perm (List.range I.axes.length))
include hs

omit [IsStrictOrderedRing K] in
theorem accepts_permuted_iff {xs : List K} (hlen : xs.length = I.axes.length) :
    (I.permuted s).Accepts (Column.pick xs s) ↔ I.Accepts xs :=
  Column.forall₂_pick_iff hs rfl hlen

omit [IsStrictOrderedRing K] in
theorem acceptsAll_permuted_iff {xss : List (List K)} (hlen : xss.length = I.axes.length) :
    (I.permuted s).AcceptsAll (Column.pick xss s) ↔ I.AcceptsAll xss :=
  Column.forall₂_pick_iff hs rfl hlen

include hI

omit [IsStrictOrderedRing K] in
theorem Interpolates.permuted {xs : List K} {v : K} (h : I.Interpolates xs v) :
    (I.permuted s).Interpolates (Column.pick xs s) v := by
  obtain ⟨haccepts, ps, hps, rfl⟩ := h
  have hlen : I.axes.length = xs.length := haccepts.length_eq
  refine ⟨(accepts_permuted_iff hs hlen.symm).2 haccepts, Column.pick ps s, ?_, ?_⟩
  · have hpick := hps.pick s
    rwa [Column.pick_map, coordinates, Column.pick_zipWith _ hlen] at hpick
  · have hshape : I.field.shape = (I.axes.map Axis.located).map List.length := by
      rw [hI.shape, List.map_map]
      exact List.map_congr_left fun a _ => a.length_located.symm
    refine Cell.value_transposed (hshape ▸ hps.among) ?_
    rwa [NdArray.rank, hI.shape, List.length_map]

/-- The interpolant in another order is that of the interpolator. -/
theorem interpolates_permuted_iff (hJ : (I.permuted s).WellFormed) {xs : List K}
    (hlen : xs.length = I.axes.length) {v : K} :
    (I.permuted s).Interpolates (Column.pick xs s) v ↔ I.Interpolates xs v := by
  refine ⟨fun h => ?_, Interpolates.permuted hI hs⟩
  -- The interpolator has a value there, too, and values are unique.
  obtain ⟨w, -, hw⟩ := exists_valueAt hI ((accepts_permuted_iff hs hlen).1 h.1)
  rwa [h.unique hJ (hw.permuted hI hs)]

variable (hJ : (I.permuted s).WellFormed)
include hJ

/-- At a point the value is the same. -/
theorem valueAt_permuted {point : List (NdArray K)} (hlen : point.length = I.axes.length) {v : K} :
    (I.permuted s).valueAt (Column.pick point s) = .ok v ↔ I.valueAt point = .ok v := by
  have hscalars : ∀ xs : List K, point = xs.map NdArray.scalar →
      ((I.permuted s).valueAt (Column.pick point s) = .ok v ↔ I.valueAt point = .ok v) := by
    rintro xs rfl
    rw [List.length_map] at hlen
    rw [Column.pick_map, valueAt_eq_ok_iff hI, valueAt_eq_ok_iff hJ,
      interpolates_permuted_iff hI hs hJ hlen]
  constructor
  · intro h
    -- Arguments that are scalars in another order have been scalars before.
    obtain ⟨ys, hys⟩ := scalars_of_valueAt h
    have hback := congrArg (Column.pick · (Column.inverse s)) hys
    simp only [Column.pick_inverse hs hlen, Column.pick_map] at hback
    exact (hscalars _ hback).1 h
  · intro h
    obtain ⟨xs, hxs⟩ := scalars_of_valueAt h
    exact (hscalars xs hxs).2 h

section Rows
variable {xss : List (List K)} (hlen : xss.length = I.axes.length)
include hlen

theorem exists_along_permuted_iff :
    (∃ b, (I.permuted s).along ((Column.pick xss s).map NdArray.vector) none = .ok b) ↔
      ∃ a, I.along (xss.map NdArray.vector) none = .ok a := by
  have hmem : ∀ xs, xs ∈ Column.pick xss s ↔ xs ∈ xss :=
    fun xs => Column.mem_pick_of_perm (by rwa [hlen])
  constructor
  · rintro ⟨b, hb⟩
    obtain ⟨m, hm⟩ := exists_length_of_along hJ hb
    rw [exists_along_iff hI fun xs hxs => hm xs ((hmem xs).2 hxs), ← acceptsAll_permuted_iff hs hlen]
    exact acceptsAll_of_along hJ hb
  · rintro ⟨a, ha⟩
    obtain ⟨m, hm⟩ := exists_length_of_along hI ha
    rw [exists_along_iff hJ fun xs hxs => hm xs ((hmem xs).1 hxs), acceptsAll_permuted_iff hs hlen]
    exact acceptsAll_of_along hI ha

omit hlen in
/-- Along a sequence the values are the same. -/
theorem along_permuted_eq {a b : NdArray K} (ha : I.along (xss.map NdArray.vector) none = .ok a)
    (hb : (I.permuted s).along ((Column.pick xss s).map NdArray.vector) none = .ok b) : b = a := by
  obtain ⟨m, hm⟩ := exists_length_of_along hI ha
  have hm' : ∀ xs ∈ Column.pick xss s, xs.length = m :=
    fun xs hxs => hm xs (Column.mem_of_mem_pick hxs)
  have hshape := (along_eq_ok hI hm ha).1
  have hshape' := (along_eq_ok hJ hm' hb).1
  refine NdArray.ext_get? (hshape'.trans hshape.symm) fun ix hix => ?_
  rw [hshape'] at hix
  -- The multi-indices of a sequence are its places.
  obtain ⟨i, rfl, hi⟩ : ∃ i, ix = [i] ∧ i < m := by
    have hinside := NdArray.place?_isSome_iff_forall₂.1 hix
    obtain ⟨i, rest, hi, hrest, rfl⟩ := List.forall₂_cons_left_iff.1 hinside
    obtain rfl := List.forall₂_nil_left_iff.1 hrest
    exact ⟨i, rfl, hi⟩
  obtain ⟨xs, hxs⟩ := Choices.exists_entriesAt hi hm
  obtain ⟨v, hv, hvalue⟩ := exists_get?_along hI hm ha hi hxs
  obtain ⟨w, hw, hvalue'⟩ := exists_get?_along hJ hm' hb hi (Column.forall₂_pick hxs s)
  rw [hv, hw, hvalue'.unique hJ (hvalue.permuted hI hs)]

theorem exists_onto_permuted_iff :
    (∃ b, (I.permuted s).onto ((Column.pick xss s).map NdArray.vector) none = .ok b) ↔
      ∃ a, I.onto (xss.map NdArray.vector) none = .ok a := by
  rw [exists_onto_iff hI, exists_onto_iff hJ, acceptsAll_permuted_iff hs hlen]

/-- Onto a grid the values are the transposed ones. -/
theorem onto_permuted_eq {a b : NdArray K} (ha : I.onto (xss.map NdArray.vector) none = .ok a)
    (hb : (I.permuted s).onto ((Column.pick xss s).map NdArray.vector) none = .ok b) :
    b = a.transposed s := by
  have hshape := (onto_eq_ok hI ha).1
  have hrank : s.Perm (List.range a.rank) := by
    rwa [NdArray.rank, hshape, List.length_map, hlen]
  refine NdArray.eq_transposed hrank ?_ fun ix hix => ?_
  · rw [(onto_eq_ok hJ hb).1, hshape, Column.pick_map]
  · rw [hshape, ← Sample.entries?_isSome_iff] at hix
    obtain ⟨xs, hxs⟩ := Option.isSome_iff_exists.1 hix
    obtain ⟨v, hv, hvalue⟩ := exists_get?_onto hI ha hxs
    obtain ⟨w, hw, hvalue'⟩ := exists_get?_onto hJ hb (Sample.entries?_pick_lists hxs s)
    rw [hv, hw, hvalue'.unique hJ (hvalue.permuted hI hs)]

end Rows

section Arguments
variable {args : List (NdArray K)} (hlen : args.length = I.axes.length)
include hlen

/-- A call along a sequence is answered alike. -/
theorem along_permuted (out : Option (Container K)) (a : NdArray K) :
    (I.permuted s).along (Column.pick args s) out = .ok a ↔ I.along args out = .ok a := by
  have hmem : ∀ v, v ∈ Column.pick args s ↔ v ∈ args :=
    fun v => Column.mem_pick_of_perm (by rwa [hlen])
  have hrows : (∀ v ∈ args, v.rank ≤ 1) → ∀ values,
      ((I.permuted s).along (Column.pick args s) none = .ok values ↔
        I.along args none = .ok values) := by
    intro hrank values
    have hlen' : (args.map NdArray.toList).length = I.axes.length := by rw [List.length_map, hlen]
    rw [along_eq_vectors hrank, along_eq_vectors fun v hv => hrank v ((hmem v).1 hv),
      ← Column.pick_map, Outcome.eq_ok_iff_of_exists (exists_along_permuted_iff hI hs hJ hlen')
        fun a b ha hb => along_permuted_eq hI hs hJ ha hb]
    exact exists_eq_right'
  -- A container is filled with the values that a call without one returns.
  rw [along_out, along_out args, Outcome.bind_eq_ok_iff, Outcome.bind_eq_ok_iff]
  refine exists_congr fun values => and_congr_left fun _ => ?_
  constructor
  · intro h
    exact (hrows (fun v hv => rank_le_one_of_along h v ((hmem v).2 hv)) values).1 h
  · intro h
    exact (hrows (rank_le_one_of_along h) values).2 h

/-- A call onto a grid is answered with the transposed values. -/
theorem onto_permuted (b : NdArray K) :
    (I.permuted s).onto (Column.pick args s) none = .ok b ↔
      ∃ a, I.onto args none = .ok a ∧ b = a.transposed s := by
  have hmem : ∀ v, v ∈ Column.pick args s ↔ v ∈ args :=
    fun v => Column.mem_pick_of_perm (by rwa [hlen])
  have hrows : (∀ v ∈ args, v.rank ≤ 1) →
      ((I.permuted s).onto (Column.pick args s) none = .ok b ↔
        ∃ a, I.onto args none = .ok a ∧ b = a.transposed s) := by
    intro hrank
    have hlen' : (args.map NdArray.toList).length = I.axes.length := by rw [List.length_map, hlen]
    rw [onto_eq_vectors hrank, onto_eq_vectors fun v hv => hrank v ((hmem v).1 hv),
      ← Column.pick_map]
    exact Outcome.eq_ok_iff_of_exists (exists_onto_permuted_iff hI hs hJ hlen')
      (fun a b ha hb => onto_permuted_eq hI hs hJ hlen' ha hb) b
  constructor
  · intro h
    exact (hrows fun v hv => rank_le_one_of_onto h v ((hmem v).2 hv)).1 h
  · rintro ⟨a, ha, hb⟩
    exact (hrows (rank_le_one_of_onto ha)).2 ⟨a, ha, hb⟩

end Arguments

end Calls

/-- **The order of the axes does not matter.**  Take settings that pass, grids, a field with as many
dimensions, and the numbers of the axes in another order.

* The settings with the logarithmic axes renumbered pass, too.
* The grids in the other order and the transposed field make an interpolator exactly when the grids
  and the field do.
* Of two such interpolators, and arguments of which those of the one are those of the other in the
  other order, either both give a value at the point, or along the sequence, and the values are the
  same, or neither does; and onto a grid the one gives the transposed values of the other. -/
theorem axes_in_any_order {settings : Settings K} {cfg : Config K} {grids : List (NdArray K)}
    {field : NdArray K} (hcfg : Config.make settings = .ok cfg) (hrank : field.rank = grids.length)
    {s : List Nat} (hs : s.Perm (List.range grids.length)) :
    ∃ cfg', Config.make (settings.permuted s cfg.logAxes) = .ok cfg' ∧
      ((∃ J, make (Column.pick grids s) (field.transposed s) cfg' = .ok J) ↔
        ∃ I, make grids field cfg = .ok I) ∧
      ∀ I J, make grids field cfg = .ok I →
        make (Column.pick grids s) (field.transposed s) cfg' = .ok J →
        ∀ args : List (NdArray K), args.length = grids.length →
          (∀ v, J.valueAt (Column.pick args s) = .ok v ↔ I.valueAt args = .ok v) ∧
          (∀ out a, J.along (Column.pick args s) out = .ok a ↔ I.along args out = .ok a) ∧
          ∀ b, J.onto (Column.pick args s) none = .ok b ↔
            ∃ a, I.onto args none = .ok a ∧ b = a.transposed s := by
  have hcfg' := Config.make_permuted hs hcfg
  refine ⟨cfg.permuted s, hcfg', exists_make_permuted_iff hrank hs, fun I J hI hJ args hargs => ?_⟩
  have hwI : I.WellFormed := Made.wellFormed ⟨settings, cfg, grids, field, hcfg, hI⟩
  have hwJ : J.WellFormed := Made.wellFormed ⟨_, cfg.permuted s, _, _, hcfg', hJ⟩
  obtain rfl : I.permuted s = J := by
    rw [make_permuted hrank hs hI] at hJ
    exact Except.ok.inj hJ
  have haxes : I.axes.length = grids.length := by
    simpa using congrArg List.length (points_of_make hI).2
  rw [← haxes] at hs hargs
  refine ⟨?_, ?_, ?_⟩
  · intro v
    exact valueAt_permuted hwI hs hwJ hargs
  · intro out a
    exact along_permuted hwI hs hwJ hargs out a
  · intro b
    exact onto_permuted hwI hs hwJ hargs b

/-- The logarithmic axis first, and a call at a point and onto a grid. -/
theorem axes_in_any_order_two_axes :
    let field : NdArray ℚ := ⟨[3, 2], #[1, 2, 3, 5, 8, 13], rfl⟩
    let I := twoAxes field
    ∃ cfg' J v a, Config.make (logSecond.permuted [1, 0] [⟨1, false⟩]) = .ok cfg' ∧
      make [NdArray.vector [2, 1], NdArray.vector [0, 1, 3]] (field.transposed [1, 0]) cfg' = .ok J ∧
      I.valueAt [NdArray.scalar 2, NdArray.scalar (3 / 2)] = .ok v ∧
      J.valueAt [NdArray.scalar (3 / 2), NdArray.scalar 2] = .ok v ∧
      I.onto [NdArray.vector [0, 2, 3], NdArray.vector [1]] none = .ok a ∧
      J.onto [NdArray.vector [1], NdArray.vector [0, 2, 3]] none = .ok (a.transposed [1, 0]) := by
  intro field I
  have hcfg : Config.make logSecond = .ok I.config := config_twoAxes field
  have hI : make [NdArray.vector [0, 1, 3], NdArray.vector [2, 1]] field I.config = .ok I :=
    make_twoAxes rfl rfl rfl
  have hrank : field.rank = [NdArray.vector [0, 1, (3 : ℚ)], NdArray.vector [2, 1]].length := rfl
  have hs : [1, 0].Perm (List.range [NdArray.vector [0, 1, (3 : ℚ)], NdArray.vector [2, 1]].length) := by
    decide
  obtain ⟨cfg', hcfg', hiff, hcalls⟩ := axes_in_any_order hcfg hrank hs
  obtain ⟨J, hJ⟩ := hiff.2 ⟨I, hI⟩
  obtain ⟨hat, -, -⟩ := hcalls I J hI hJ [NdArray.scalar 2, NdArray.scalar (3 / 2)] rfl
  obtain ⟨-, -, honto⟩ := hcalls I J hI hJ [NdArray.vector [0, 2, 3], NdArray.vector [1]] rfl
  obtain ⟨v, hv⟩ := Outcome.exists_of_isOk
    (x := I.valueAt [NdArray.scalar 2, NdArray.scalar (3 / 2)]) (by decide +kernel)
  obtain ⟨a, ha⟩ := Outcome.exists_of_isOk
    (x := I.onto [NdArray.vector [0, 2, 3], NdArray.vector [1]] none) (by decide +kernel)
  exact ⟨cfg', J, v, a, hcfg', hJ, hv, (hat v).2 hv, ha, (honto _).2 ⟨a, ha, rfl⟩⟩

end Interpolator
end Regrid
