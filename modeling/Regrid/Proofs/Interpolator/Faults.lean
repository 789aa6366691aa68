import Regrid.Proofs.Interpolator.Calls
import Regrid.Proofs.Kinds

/-!
# How calls fail

A call fails where its arguments are located.  Once there are columns of positions nothing
else fails at a point and onto a grid (`valueAt_failAlike_columns`,
`onto_failAlike_columns`); along a sequence the columns may still be of different lengths,
and a container may be refused at last.

Where an argument is located, only the limits count and whether the axis is logarithmic.
Interpolators whose axes agree in this fail alike (`valueAt_failAlike`, `along_failAlike`,
`onto_failAlike`), so if their interpolants coincide as well they answer every call in the
same way (`Coincide.valueAt_congr`, `Coincide.along_congr`, `Coincide.onto_congr`).

With as many arguments as there are axes, and rows of one length, the only fault is that a
query is out of range (`outOfRange_of_columns`).
-/
namespace Regrid

open Outcome

variable {K : Type} [Field K] [LinearOrder K] [FloorRing K] [Elementary K]

/-- **Two axes accept alike**: both of them by the logarithm or neither, and within the same
limits. -/
structure Axis.Alike (extpolfac : K) (a b : Axis K) : Prop where
  logarithmic : a.logarithmic = b.logarithmic
  limits : Grid.limits a.located extpolfac = Grid.limits b.located extpolfac

namespace Interpolator

variable [IsStrictOrderedRing K] {I J : Interpolator K}

/-- **Interpolators accept alike**: by the same factor, and axis by axis. -/
structure Alike (I J : Interpolator K) : Prop where
  extpolfac : I.config.extpolfac = J.config.extpolfac
  axes : List.Forall₂ (Axis.Alike I.config.extpolfac) I.axes J.axes

theorem positions_failAlike (hI : I.WellFormed) (hJ : J.WellFormed)
    (he : I.config.extpolfac = J.config.extpolfac) {a b : Axis K} (ha : a ∈ I.axes) (hb : b ∈ J.axes)
    (h : a.Alike I.config.extpolfac b) (k : Nat) (v : NdArray K) :
    FailAlike (I.positions k a v) (J.positions k b v) := by
  obtain ⟨htwo, d, hord⟩ := hI.ordered a ha
  obtain ⟨htwo', d', hord'⟩ := hJ.ordered b hb
  rw [← Axis.length_located] at htwo htwo'
  obtain ⟨low, high, hlimits, -⟩ := Grid.exists_limits hord htwo I.config.extpolfac
  have hlimits' : Grid.limits b.located I.config.extpolfac = .ok (low, high) := by
    rw [← h.limits, hlimits]
  refine (FailAlike.refl (queries k v)).bind fun xs xs' hxs hxs' => ?_
  rw [hxs] at hxs'
  cases hxs'
  refine FailAlike.mapError ?_ (onAxis k)
  have hcoordinates : Axis.coordinates a xs = Axis.coordinates b xs := by
    rw [Axis.coordinates, Axis.coordinates, h.logarithmic]
  rw [hcoordinates]
  refine (FailAlike.refl (Axis.coordinates b xs)).bind fun zs zs' hzs hzs' => ?_
  rw [hzs] at hzs'
  cases hzs'
  rw [← he]
  exact (I.backend.locate_failAlike hord htwo hI.extpolfac _ hlimits zs).trans
    (J.backend.locate_failAlike hord' htwo' hI.extpolfac _ hlimits' zs).symm

theorem allPositions_failAlike (hI : I.WellFormed) (hJ : J.WellFormed)
    (he : I.config.extpolfac = J.config.extpolfac) {axes axes' : List (Axis K)}
    (h : List.Forall₂ (Axis.Alike I.config.extpolfac) axes axes') (haxes : axes ⊆ I.axes)
    (haxes' : axes' ⊆ J.axes) (k : Nat) (args : List (NdArray K)) :
    FailAlike (I.allPositions k axes args) (J.allPositions k axes' args) := by
  induction h generalizing k args with
  | nil => exact .of_ok [] []
  | @cons a b axes axes' head _ ih =>
    cases args with
    | nil => exact .of_ok [] []
    | cons v args =>
      obtain ⟨ha, haxes⟩ := List.cons_subset.1 haxes
      obtain ⟨hb, haxes'⟩ := List.cons_subset.1 haxes'
      refine (positions_failAlike hI hJ he ha hb head k v).bind fun c c' _ _ => ?_
      refine (ih haxes haxes' (k + 1) args).bind fun cs cs' _ _ => ?_
      exact .of_ok (c :: cs) (c' :: cs')

/-- Arguments are located on all axes or refused alike. -/
theorem columns_failAlike (hI : I.WellFormed) (hJ : J.WellFormed) (h : Alike I J)
    (args : List (NdArray K)) : FailAlike (I.columns args) (J.columns args) := by
  have hcount : I.checkCount args.length = J.checkCount args.length := by
    rw [checkCount, checkCount, rank, rank, h.axes.length_eq]
  rw [columns, columns, hcount]
  exact (FailAlike.refl _).bind fun _ _ _ _ => allPositions_failAlike hI hJ h.extpolfac h.axes
    (List.Subset.refl _) (List.Subset.refl _) 0 args

/-! ## At a point and onto a grid -/

/-- Arguments that are located are rows of accepted queries. -/
theorem acceptsAll_of_columns_eq_ok (hI : I.WellFormed) {args : List (NdArray K)}
    {cs : List (Column K)} (h : I.columns args = .ok cs) :
    I.AcceptsAll (args.map NdArray.toList) := by
  rw [columns_eq_vectors (rank_le_one_of_columns h)] at h
  obtain ⟨hcount, hcs⟩ := columns_eq_ok_iff.1 h
  rw [List.length_map] at hcount
  exact acceptsAll_of_columns hI (checkCount_eq_ok_iff.2 hcount) hcs

/-- **At a point** a call fails as locating fails. -/
theorem valueAt_failAlike_columns (hI : I.WellFormed) (point : List (NdArray K)) :
    FailAlike (I.valueAt point) (I.columns (point.map Locate.wrapped)) := by
  rw [valueAt_eq_columns]
  refine FailAlike.bind_ok fun cs hcs => ?_
  obtain ⟨xs, rfl⟩ := scalars_of_columns hcs
  have haccepts : I.Accepts xs := by
    have hall := acceptsAll_of_columns_eq_ok hI hcs
    rwa [wrapped_scalars, NdArray.map_toList_vector, acceptsAll_singletons] at hall
  obtain ⟨v, hv, -⟩ := exists_valueAt hI haccepts
  rw [valueAt_eq_columns, hcs, ok_bind] at hv
  exact ⟨v, hv⟩

/-- **Onto a grid** a call fails as locating fails. -/
theorem onto_failAlike_columns (hI : I.WellFormed) (args : List (NdArray K)) :
    FailAlike (I.onto args none) (I.columns args) := by
  rw [onto_eq_columns]
  refine FailAlike.bind_ok fun cs hcs => ?_
  obtain ⟨a, ha, -⟩ := exists_onto hI (acceptsAll_of_columns_eq_ok hI hcs)
  rw [← onto_eq_vectors (rank_le_one_of_columns hcs), onto_eq_columns, hcs, ok_bind] at ha
  exact ⟨a, ha⟩

/-- **A point is refused alike.** -/
theorem valueAt_failAlike (hI : I.WellFormed) (hJ : J.WellFormed) (h : Alike I J)
    (point : List (NdArray K)) : FailAlike (I.valueAt point) (J.valueAt point) :=
  (valueAt_failAlike_columns hI point).trans
    ((columns_failAlike hI hJ h _).trans (valueAt_failAlike_columns hJ point).symm)

theorem onto_failAlike (hI : I.WellFormed) (hJ : J.WellFormed) (h : Alike I J)
    (args : List (NdArray K)) : FailAlike (I.onto args none) (J.onto args none) :=
  (onto_failAlike_columns hI args).trans
    ((columns_failAlike hI hJ h args).trans (onto_failAlike_columns hJ args).symm)

/-! ## Along a sequence -/

/-- Columns are as long as the arguments. -/
theorem length_of_columns (hI : I.WellFormed) {args : List (NdArray K)} {cs : List (Column K)}
    (h : I.columns args = .ok cs) :
    cs.map Column.length = (args.map NdArray.toList).map List.length := by
  obtain ⟨cs', -, hcs', hplaced, -⟩ := (acceptsAll_of_columns_eq_ok hI h).exists_columns hI
  rw [columns_eq_vectors (rank_le_one_of_columns h)] at h
  obtain ⟨-, hcs⟩ := columns_eq_ok_iff.1 h
  rw [hcs'] at hcs
  cases hcs
  exact hplaced.length_eq.2

/-- Columns that have weights are sampled. -/
theorem exists_sample_of_blue (hI : I.WellFormed) {args : List (NdArray K)} {cs : List (Column K)}
    (hcs : I.columns args = .ok cs) {w : NdArray K} (hw : Weights.blue cs none = .ok w) :
    ∃ a, I.backend.sample w I.field (cs.map .many) none I.config.sumCheck = .ok a := by
  obtain ⟨n, hn⟩ := Weights.exists_length_of_blue hw
  have hrows : ∀ xs ∈ args.map NdArray.toList, xs.length = n :=
    Choices.forall_eq_of_map_eq (length_of_columns hI hcs).symm hn
  obtain ⟨a, ha, -⟩ := exists_along hI hrows (acceptsAll_of_columns_eq_ok hI hcs)
  rw [← along_eq_vectors (rank_le_one_of_columns hcs), along_eq_columns, hcs, ok_bind, hw,
    ok_bind] at ha
  exact ⟨a, ha⟩

/-- **A sequence is refused alike.** -/
theorem along_failAlike (hI : I.WellFormed) (hJ : J.WellFormed) (h : Alike I J)
    (args : List (NdArray K)) : FailAlike (I.along args none) (J.along args none) := by
  rw [along_eq_columns, along_eq_columns]
  refine (columns_failAlike hI hJ h args).bind fun cs cs' hcs hcs' => ?_
  have hlengths : cs.map Column.length = cs'.map Column.length := by
    rw [length_of_columns hI hcs, length_of_columns hJ hcs']
  refine (Weights.blue_failAlike hlengths).bind fun w w' hw hw' => ?_
  obtain ⟨a, ha⟩ := exists_sample_of_blue hI hcs hw
  obtain ⟨b, hb⟩ := exists_sample_of_blue hJ hcs' hw'
  rw [ha, hb]
  exact .of_ok a b

/-- Along a sequence with rows of one length a call fails as locating fails. -/
theorem along_failAlike_columns (hI : I.WellFormed) {args : List (NdArray K)} {m : Nat}
    (hlen : ∀ v ∈ args, v.toList.length = m) : FailAlike (I.along args none) (I.columns args) := by
  rw [along_eq_columns]
  refine FailAlike.bind_ok fun cs hcs => ?_
  have hrows : ∀ xs ∈ args.map NdArray.toList, xs.length = m := List.forall_mem_map.2 hlen
  obtain ⟨a, ha, -⟩ := exists_along hI hrows (acceptsAll_of_columns_eq_ok hI hcs)
  rw [← along_eq_vectors (rank_le_one_of_columns hcs), along_eq_columns, hcs, ok_bind] at ha
  exact ⟨a, ha⟩

/-! ## One answer -/

namespace Coincide

variable (h : Coincide I J) (hI : I.WellFormed) (hJ : J.WellFormed) (halike : Alike I J)
include h hI hJ halike

/-- **Every point is answered alike**, with a value or a fault. -/
theorem valueAt_congr (point : List (NdArray K)) : I.valueAt point = J.valueAt point :=
  (valueAt_failAlike hI hJ halike point).eq fun _ _ hv hw => h.valueAt_eq hI hJ hv hw

/-- **Every sequence is answered alike**, and so is every container. -/
theorem along_congr (args : List (NdArray K)) (out : Option (Container K)) :
    I.along args out = J.along args out := by
  rw [along_out, along_out _ out]
  rw [(along_failAlike hI hJ halike args).eq fun _ _ ha hb => h.along_eq hI hJ ha hb]

theorem onto_congr (args : List (NdArray K)) (out : Option (Container K)) :
    I.onto args out = J.onto args out := by
  rw [onto_out, onto_out _ out]
  rw [(onto_failAlike hI hJ halike args).eq fun _ _ ha hb => h.onto_eq hI hJ ha hb]

end Coincide

/-! ## Out of range -/

omit [IsStrictOrderedRing K] in
theorem outOfRange_of_coordinates {a : Axis K} {xs : List K} {f : Fault K}
    (h : Axis.coordinates a xs = .error f) : ∃ cause, f = .outOfRange cause := by
  unfold Axis.coordinates at h
  split at h
  · split at h
    · cases h
      exact ⟨_, rfl⟩
    · cases h
  · cases h

/-- A row is refused only for a query that is out of range. -/
theorem outOfRange_of_positions (hI : I.WellFormed) {a : Axis K} (ha : a ∈ I.axes) {k : Nat}
    {xs : List K} {f : Fault K} (h : I.positions k a (NdArray.vector xs) = .error f) :
    ∃ cause, f = .outOfRange cause := by
  obtain ⟨htwo, d, hord⟩ := hI.ordered a ha
  rw [← Axis.length_located] at htwo
  obtain ⟨low, high, hlimits, -⟩ := Grid.exists_limits hord htwo I.config.extpolfac
  rw [positions_vector] at h
  obtain ⟨e, he, rfl⟩ := mapError_eq_error_iff.1 h
  have hcause : ∃ cause, e = .outOfRange cause := by
    rcases bind_eq_error_iff.1 he with hcoordinates | ⟨zs, -, hlocate⟩
    · exact outOfRange_of_coordinates hcoordinates
    · have hfail := I.backend.locate_failAlike hord htwo hI.extpolfac I.config.tieBreak hlimits zs
      exact Grid.outOfRange_of_checkWithin ((hfail e).1 hlocate)
  obtain ⟨cause, rfl⟩ := hcause
  exact ⟨_, rfl⟩

/-- A row with a value that is not accepted is refused. -/
theorem positions_refused (hI : I.WellFormed) {a : Axis K} (ha : a ∈ I.axes) (k : Nat) {xs : List K}
    (h : ¬ ∀ x ∈ xs, a.Accepts I.config.extpolfac x) :
    Refused .outOfRange (I.positions k a (NdArray.vector xs)) := by
  cases hpositions : I.positions k a (NdArray.vector xs) with
  | ok c => exact absurd (accepts_of_positions hI ha hpositions) h
  | error f =>
    obtain ⟨cause, rfl⟩ := outOfRange_of_positions hI ha hpositions
    exact ⟨_, rfl, rfl⟩

theorem outOfRange_of_allPositions (hI : I.WellFormed) {axes : List (Axis K)} (haxes : axes ⊆ I.axes)
    {k : Nat} {xss : List (List K)} {f : Fault K}
    (h : I.allPositions k axes (xss.map NdArray.vector) = .error f) :
    ∃ cause, f = .outOfRange cause := by
  induction axes generalizing k xss with
  | nil => cases h
  | cons a axes ih =>
    cases xss with
    | nil => cases h
    | cons xs xss =>
      obtain ⟨ha, haxes⟩ := List.cons_subset.1 haxes
      rw [List.map_cons, allPositions] at h
      rcases bind_eq_error_iff.1 h with hpositions | ⟨c, -, h⟩
      · exact outOfRange_of_positions hI ha hpositions
      · rcases bind_eq_error_iff.1 h with hlater | ⟨cs, -, h⟩
        · exact ih haxes hlater
        · cases h

/-- **With a row for every axis** the only fault is that a query is out of range. -/
theorem outOfRange_of_columns (hI : I.WellFormed) {xss : List (List K)} (hcount : xss.length = I.rank)
    {f : Fault K} (h : I.columns (xss.map NdArray.vector) = .error f) :
    ∃ cause, f = .outOfRange cause := by
  have hok : I.checkCount (xss.map NdArray.vector).length = .ok () := by
    rw [checkCount_eq_ok_iff, List.length_map, hcount, rank]
  rw [columns, hok, ok_bind] at h
  exact outOfRange_of_allPositions hI (List.Subset.refl _) h

end Interpolator
end Regrid
