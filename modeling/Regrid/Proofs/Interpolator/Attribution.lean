import Regrid.Fault.Message
import Regrid.Interpolator.Session
import Regrid.Proofs.Columns
import Regrid.Proofs.Interpolator.Answered
import Regrid.Proofs.Interpolator.Polynomials
import Regrid.Proofs.Locate.Refusals
import Regrid.Scalar.Double

/-!
# The axis that is out of range

A value offends against an axis (`Axis.Offends`) if the axis is logarithmic and the value is nought
or less, if its coordinate is no number, or if the coordinate is beyond a limit.  A call that is out
of range tells the first axis that is offended (`Interpolator.FirstOffended`): a value of its
argument offends against it, and the arguments of all axes before it pass.  The fault is attributed to
that axis then (`Interpolator.Attributed`).

The axes are gone through one by one.  Along each, out of range is told with its number, and nothing
is located unless all values pass (`positions_outOfRange`, `passes_of_positions`); so the number that
is told is that of the first offended axis (`allPositions_outOfRange`).  What follows the location can
fail in other ways, but not for a range: the brackets are those of the grid, so even a stencil has its
window.

The removal of noise comes after the location, and what it refuses is told without the axis
(`clamp_tells_no_axis`).  It is the only call that does so (`out_of_range_attributed`).
-/
namespace Regrid

open Outcome

variable {α : Type} [Scalar α]

/-! ## Values that offend -/

/-- **A value offends against an axis.** -/
inductive Axis.Offends (a : Axis α) (extpolfac x : α) : Prop
  /-- The axis is logarithmic, and the value nought or less. -/
  | notPositive (hlog : a.logarithmic = true) (hx : Scalar.le x Scalar.zero = true)
  /-- The coordinate is no number. -/
  | notNumber (hx : Scalar.isNaN (a.coordinate x) = true)
  /-- The coordinate is beyond a limit of the points that values are located among. -/
  | beyond {low high : α} (hlimits : Grid.limits a.located extpolfac = .ok (low, high))
      (hx : Scalar.lt (a.coordinate x) low = true ∨ Scalar.lt high (a.coordinate x) = true)

/-- **An argument passes an axis**: it is a row or a single number, and none of its values offends. -/
structure Axis.Passes (a : Axis α) (extpolfac : α) (v : NdArray α) : Prop where
  row : v.rank ≤ 1
  clean : ∀ x ∈ v.toList, ¬ a.Offends extpolfac x

/-- Where there are limits, the checks tell whether a value offends. -/
theorem Axis.offends_iff {a : Axis α} {extpolfac low high x : α}
    (hlimits : Grid.limits a.located extpolfac = .ok (low, high)) :
    a.Offends extpolfac x ↔ (a.logarithmic = true ∧ Locate.isNotPositive x = true) ∨
      Grid.isOutside low high (a.coordinate x) = true := by
  rw [Grid.isOutside, Bool.or_eq_true, Bool.or_eq_true]
  constructor
  · rintro (⟨hlog, hx⟩ | hx | ⟨hlimits', hx⟩)
    · exact .inl ⟨hlog, hx⟩
    · exact .inr (.inl (.inl hx))
    · rw [hlimits] at hlimits'
      cases hlimits'
      exact .inr (hx.imp_left .inr)
  · rintro (⟨hlog, hx⟩ | (hx | hx) | hx)
    · exact .notPositive hlog hx
    · exact .notNumber hx
    · exact .beyond hlimits (.inl hx)
    · exact .beyond hlimits (.inr hx)

/-- **The first axis that is offended**: a value of its argument offends against it, and the arguments
of all axes before it pass. -/
structure Interpolator.FirstOffended (axes : List (Axis α)) (extpolfac : α)
    (args : Nat → Option (NdArray α)) (k : Nat) : Prop where
  offends : ∃ a v, axes[k]? = some a ∧ args k = some v ∧ ∃ x ∈ v.toList, a.Offends extpolfac x
  before : ∀ j < k, ∀ a v, axes[j]? = some a → args j = some v → a.Passes extpolfac v

/-- **A fault is attributed** to the first axis that is offended: it tells the number of that one. -/
def Interpolator.Attributed (I : Interpolator α) (args : Nat → Option (NdArray α))
    (cause : RangeFault α) : Prop :=
  ∃ k inner, cause = .onAxis k inner ∧ FirstOffended I.axes I.config.extpolfac args k

/-- The argument of a call for an axis. -/
def Call.argument : Call α → Nat → Option (NdArray α)
  | .valueAt point, k => point[k]?
  | .along coordinates _, k => coordinates[k]?
  | .onto newGrids _, k => newGrids[k]?
  | .locate axis values _, k => if (k : Int) = axis then some values else none
  | .polyAlong coordinates, k => [coordinates][k]?

namespace Interpolator

variable {I : Interpolator α} {cause : RangeFault α}

/-! ## Along one axis -/

omit [Scalar α] in
/-- Out of range is told with the axis. -/
theorem eq_onAxis_of_outOfRange {k : Nat} {f : Fault α} (h : onAxis k f = .outOfRange cause) :
    ∃ inner, f = .outOfRange inner ∧ cause = .onAxis k inner := by
  cases f with
  | outOfRange inner =>
    cases h
    exact ⟨inner, rfl, rfl⟩
  | _ => cases h

omit [Scalar α] in
theorem queries_failsWithin (k : Nat) (v : NdArray α) :
    FailsWithin [.dimensionMismatch] (queries k v) := by
  unfold queries
  split
  · exact .of_ok _
  · exact .of_ok _
  · exact .of_error (List.mem_singleton_self _)

theorem exists_offends_of_coordinates {a : Axis α} {xs : List α} {f : Fault α} (extpolfac : α)
    (h : Axis.coordinates a xs = .error f) : ∃ x ∈ xs, a.Offends extpolfac x := by
  by_contra hnone
  have hpositive : a.logarithmic = true → ∀ x ∈ xs, Locate.isNotPositive x = false := fun hlog x hx =>
    Bool.eq_false_iff.2 fun hbad => hnone ⟨x, hx, .notPositive hlog hbad⟩
  rw [Axis.coordinates_eq_ok_iff.2 ⟨hpositive, rfl⟩] at h
  cases h

/-- **What is out of range along an axis** is told with its number, and a value offends. -/
theorem positions_outOfRange {k : Nat} {a : Axis α} {v : NdArray α}
    (h : I.positions k a v = .error (.outOfRange cause)) :
    ∃ inner, cause = .onAxis k inner ∧ ∃ x ∈ v.toList, a.Offends I.config.extpolfac x := by
  rcases bind_eq_error_iff.1 h with h | ⟨xs, hxs, h⟩
  · exact absurd h ((queries_failsWithin k v).ne_outOfRange (by decide) cause)
  obtain ⟨-, rfl⟩ := queries_eq_ok_iff.1 hxs
  obtain ⟨f, hf, hk⟩ := mapError_eq_error_iff.1 h
  obtain ⟨inner, rfl, rfl⟩ := eq_onAxis_of_outOfRange hk
  refine ⟨inner, rfl, ?_⟩
  rcases bind_eq_error_iff.1 hf with hf | ⟨zs, hzs, hf⟩
  · exact exists_offends_of_coordinates _ hf
  · obtain ⟨-, rfl⟩ := Axis.coordinates_eq_ok_iff.1 hzs
    obtain ⟨low, high, hlimits, z, hz, hout⟩ := Backend.limits_of_locate_outOfRange hf
    obtain ⟨x, hx, rfl⟩ := List.mem_map.1 hz
    exact ⟨x, hx, (Axis.offends_iff hlimits).2 (.inr hout)⟩

/-- **What is located along an axis** passes it, and the brackets are those of its points. -/
theorem passes_of_positions {k : Nat} {a : Axis α} {v : NdArray α} {c : Column α}
    (h : I.positions k a v = .ok c) :
    a.Passes I.config.extpolfac v ∧ ∀ p ∈ c.toList, 0 ≤ p.idx ∧ p.idx + 2 ≤ a.located.length := by
  have hrow := rank_le_one_of_positions h
  rw [positions_eq_vector k a hrow] at h
  obtain ⟨zs, hzs, hlocate⟩ := positions_eq_ok_iff.1 h
  obtain ⟨hpositive, rfl⟩ := Axis.coordinates_eq_ok_iff.1 hzs
  obtain ⟨⟨low, high, hlimits, hinside⟩, hbrackets⟩ := Backend.of_locate_eq_ok hlocate
  refine ⟨⟨hrow, fun x hx => ?_⟩, hbrackets⟩
  rw [Axis.offends_iff hlimits]
  rintro (⟨hlog, hbad⟩ | hout)
  · exact Bool.false_ne_true ((hpositive hlog x hx).symm.trans hbad)
  · exact Bool.false_ne_true ((hinside _ (List.mem_map_of_mem hx)).symm.trans hout)

/-! ## Along all axes -/

namespace FirstOffended

variable {a : Axis α} {axes : List (Axis α)} {extpolfac : α} {v : NdArray α} {args : List (NdArray α)}
  {k : Nat}

/-- The first axis of all is offended. -/
theorem here (h : ∃ x ∈ v.toList, a.Offends extpolfac x) :
    FirstOffended (a :: axes) extpolfac ((v :: args)[·]?) 0 where
  offends := ⟨a, v, rfl, rfl, h⟩
  before _ hj := absurd hj (Nat.not_lt_zero _)

/-- The first axis of all passes, and it is one of the others. -/
theorem there (h : FirstOffended axes extpolfac (args[·]?) k) (hv : a.Passes extpolfac v) :
    FirstOffended (a :: axes) extpolfac ((v :: args)[·]?) (k + 1) where
  offends := h.offends
  before j hj b w hb hw := by
    cases j with
    | zero =>
      cases hb
      cases hw
      exact hv
    | succ j => exact h.before j (Nat.lt_of_succ_lt_succ hj) b w hb hw

/-- One more dimension around each argument does not matter. -/
theorem of_wrapped (h : FirstOffended axes extpolfac ((args.map Locate.wrapped)[·]?) k) :
    FirstOffended axes extpolfac (args[·]?) k := by
  obtain ⟨⟨a, w, ha, hw, hoffends⟩, hbefore⟩ := h
  rw [List.getElem?_map] at hw
  obtain ⟨v, hv, rfl⟩ := Option.map_eq_some_iff.1 hw
  refine ⟨⟨a, v, ha, hv, hoffends⟩, fun j hj b u hb hu => ?_⟩
  have hpasses := hbefore j hj b (Locate.wrapped u) hb (by rw [List.getElem?_map, hu]; rfl)
  exact ⟨(Nat.le_succ _).trans hpasses.row, hpasses.clean⟩

end FirstOffended

/-- **What is out of range along several axes** is told with the number of the first that is
offended. -/
theorem allPositions_outOfRange {first : Nat} {axes : List (Axis α)} {args : List (NdArray α)}
    (h : I.allPositions first axes args = .error (.outOfRange cause)) :
    ∃ k inner, cause = .onAxis (first + k) inner ∧
      FirstOffended axes I.config.extpolfac (args[·]?) k := by
  induction axes generalizing first args with
  | nil => cases args <;> cases h
  | cons a axes ih =>
    cases args with
    | nil => cases h
    | cons v args =>
      rcases bind_eq_error_iff.1 h with h | ⟨c, hc, h⟩
      · obtain ⟨inner, rfl, hoffends⟩ := positions_outOfRange h
        exact ⟨0, inner, rfl, .here hoffends⟩
      -- The argument of this axis has been located, so it passes.
      rcases bind_eq_error_iff.1 h with h | ⟨cs, -, h⟩
      · obtain ⟨k, inner, rfl, hk⟩ := ih h
        refine ⟨k + 1, inner, ?_, hk.there (passes_of_positions hc).1⟩
        rw [Nat.add_assoc, Nat.add_comm 1 k]
      · cases h

/-- A call tells the axis, if it is told at all when its arguments have been located. -/
theorem columns_outOfRange {args : List (NdArray α)}
    (h : I.columns args = .error (.outOfRange cause)) :
    I.Attributed (args[·]?) cause := by
  rcases bind_eq_error_iff.1 h with h | ⟨_, _, h⟩
  · have hcount : FailsWithin [.dimensionMismatch] (I.checkCount args.length) :=
      .ite (fun _ => .of_error (List.mem_singleton_self _)) fun _ => .of_ok _
    exact absurd h (hcount.ne_outOfRange (by decide) cause)
  · obtain ⟨k, inner, rfl, hk⟩ := allPositions_outOfRange h
    exact ⟨k, inner, by rw [Nat.zero_add], hk⟩

end Interpolator

/-! ## After the location -/

namespace Weights

theorem red_failsWithin (ps : List (Position α)) :
    FailsWithin [.dimensionMismatch] (red ps none) := by
  cases ps with
  | nil => exact .of_error (List.mem_singleton_self _)
  | cons p ps => exact .of_ok _

theorem blue_failsWithin (cs : List (Column α)) :
    FailsWithin [.dimensionMismatch] (blue cs none) := by
  by_cases hlengths : ∃ n, ∀ c ∈ cs, c.length = n
  · obtain ⟨n, hn⟩ := hlengths
    cases cs with
    | nil => exact .of_error (List.mem_singleton_self _)
    | cons c ds =>
      obtain ⟨w, hw, -⟩ := exists_of_sequence (List.cons_ne_nil c ds) hn
      exact .of_exists_ok ⟨w, hw⟩
  · obtain ⟨f, hf, hkind⟩ := blue_refused hlengths
    rw [hf]
    exact .of_error (List.mem_singleton.2 hkind)

theorem green_failsWithin (cs : List (Column α)) :
    FailsWithin [.dimensionMismatch] (green cs none) := by
  cases cs with
  | nil => exact .of_error (List.mem_singleton_self _)
  | cons c ds => exact .of_ok _

end Weights

namespace Interpolator

variable {I : Interpolator α} {cause : RangeFault α}

theorem sample_failsWithin (I : Interpolator α) (w : NdArray α) (ps : List (Placement α))
    (out : Option (Container α)) :
    FailsWithin Sample.faultKinds (I.backend.sample w I.field ps out I.config.sumCheck) :=
  Sample.sample_failsWithin (fun _ hix => I.backend.read_of_inside I.field hix) ps out

/-- In a bracket of the grid a stencil has its window, so a polynomial is refused for the lengths
of its table, or because points coincide. -/
theorem polynomialAt_failsWithin {points values : List α} {p : Position α}
    (hp : 0 ≤ p.idx ∧ p.idx + 2 ≤ points.length) (x : α) :
    FailsWithin [.dimensionMismatch, .singularStencil] (I.polynomialAt points values p x) := by
  have hwindow : FailsWithin [.dimensionMismatch, .singularStencil]
      (Stencil.window (some I.config.stencil) points.length p) := by
    by_cases hn : (I.config.stencil.size : Int) ≤ points.length
    · rw [I.config.stencil.window_eq_ok hn hp.1 hp.2]
      exact .of_ok _
    · rw [I.config.stencil.window_of_short (not_le.1 hn)]
      exact .of_error (List.mem_cons_self ..)
  refine hwindow.bind fun start _ => ?_
  exact (Backend.polynomial_failsWithin _ _ _ _).bind fun e _ => .of_ok _

/-- What comes after the location of a call with weights is not out of range. -/
theorem weighed_outOfRange {args : List (NdArray α)} {out : Option (Container α)}
    {weigh : List (Column α) → Except (Fault α) (NdArray α)}
    (hweigh : ∀ cs, FailsWithin [.dimensionMismatch] (weigh cs))
    (h : (I.columns args >>= fun cs => weigh cs >>= fun w =>
      I.backend.sample w I.field (cs.map .many) out I.config.sumCheck) = .error (.outOfRange cause)) :
    I.Attributed (args[·]?) cause := by
  refine columns_outOfRange (FailsWithin.outOfRange_of_bind h ?_ fun cs _ =>
    ((hweigh cs).mono ?_).bind fun w _ => I.sample_failsWithin w _ out)
  · decide
  · decide

theorem along_outOfRange {args : List (NdArray α)} {out : Option (Container α)}
    (h : I.along args out = .error (.outOfRange cause)) :
    I.Attributed (args[·]?) cause :=
  weighed_outOfRange Weights.blue_failsWithin ((along_eq_columns args out).symm.trans h)

theorem onto_outOfRange {args : List (NdArray α)} {out : Option (Container α)}
    (h : I.onto args out = .error (.outOfRange cause)) :
    I.Attributed (args[·]?) cause :=
  weighed_outOfRange Weights.green_failsWithin ((onto_eq_columns args out).symm.trans h)

theorem valueAt_outOfRange {point : List (NdArray α)}
    (h : I.valueAt point = .error (.outOfRange cause)) :
    I.Attributed (point[·]?) cause := by
  have hrest : ∀ cs : List (Column α), FailsWithin (.badIndex :: Sample.faultKinds)
      (cs.mapM (fun c => c.get 0) >>= fun ps => Weights.red ps none >>= fun w =>
        I.backend.sample w I.field (ps.map .one) none I.config.sumCheck >>= fun value =>
        orBadIndex (value.get? [])) := by
    intro cs
    have hget : FailsWithin [.badIndex] (cs.mapM fun c => c.get 0) :=
      .mapM fun c _ => .of_orBadIndex _
    refine (hget.mono (by decide)).bind fun ps _ => ?_
    refine ((Weights.red_failsWithin ps).mono (by decide)).bind fun w _ => ?_
    refine ((I.sample_failsWithin w _ none).mono (List.subset_cons_self ..)).bind fun value _ => ?_
    exact (FailsWithin.of_orBadIndex _).mono (by decide)
  rw [valueAt_eq_columns] at h
  obtain ⟨k, inner, hcause, hk⟩ :=
    columns_outOfRange (FailsWithin.outOfRange_of_bind h (by decide) fun cs _ => hrest cs)
  exact ⟨k, inner, hcause, hk.of_wrapped⟩

theorem polyAlong_outOfRange {v : NdArray α} (h : I.polyAlong v = .error (.outOfRange cause)) :
    I.Attributed ([v][·]?) cause := by
  rcases haxes : I.axes with _ | ⟨a, _ | ⟨b, axes⟩⟩
  · rw [polyAlong, haxes] at h
    cases h
  · rw [polyAlong_eq haxes] at h
    rcases bind_eq_error_iff.1 h with h | ⟨_, _, h⟩
    · have hleast : (2 : Int) ≤ Polynomial.leastPoints (some I.config.stencil) := by
        rw [Stencil.leastPoints_eq]
        have hthree := I.config.stencil.three_le_size
        omega
      exact absurd h ((Grid.checkReference_failsWithin hleast _ _).ne_outOfRange (by decide) cause)
    -- The brackets are those of the axis, so every position has its window.
    have hvalues : ∀ c, I.positions 0 a v = .ok c → FailsWithin [.dimensionMismatch, .singularStencil]
        (((c.toList.zip (v.toList.map a.coordinate)).mapM fun q =>
          I.polynomialAt a.located I.field.toList q.1 q.2) >>= fun values =>
            .ok (NdArray.vector values)) := by
      intro c hc
      refine (FailsWithin.mapM fun q hq => ?_).bind fun values _ => .of_ok _
      exact polynomialAt_failsWithin ((passes_of_positions hc).2 q.1 (List.of_mem_zip hq).1) q.2
    obtain ⟨inner, rfl, hoffends⟩ :=
      positions_outOfRange (FailsWithin.outOfRange_of_bind h (by decide) hvalues)
    exact ⟨0, inner, rfl, haxes ▸ .here hoffends⟩
  · rw [polyAlong, haxes] at h
    cases h

/-! ## Noise -/

/-- A column is out of range for the first position that is beyond repair. -/
theorem find?_of_clamp_outOfRange {tolerance : α} {c : Column α}
    (h : c.clamp tolerance = .error (.outOfRange cause)) :
    ∃ p, c.toList.find? (Position.deviates tolerance) = some p ∧
      cause = .deviates p.fraction p.complement tolerance := by
  rw [Column.clamp_eq] at h
  rcases bind_eq_error_iff.1 h with h | ⟨_, _, h⟩
  · have htolerance : FailsWithin [.invalidArgument] (Position.checkTolerance tolerance) :=
      .ite (fun _ => .of_error (List.mem_singleton_self _)) fun _ => .of_ok _
    exact absurd h (htolerance.ne_outOfRange (by decide) cause)
  · cases hfind : c.toList.find? (Position.deviates tolerance) with
    | none =>
      rw [hfind] at h
      cases h
    | some p =>
      rw [hfind] at h
      cases h
      exact ⟨p, rfl, rfl⟩

/-- Only an axis that there is can be out of range. -/
theorem exists_axis_of_locate_outOfRange {axis : Int} {v : NdArray α} {clamp : Bool}
    (h : I.locate axis v clamp = .error (.outOfRange cause)) :
    ∃ (k : Nat) (a : Axis α), axis = k ∧ I.axes[k]? = some a := by
  rw [locate] at h
  by_cases hneg : axis < 0
  · rw [if_pos hneg] at h
    cases h
  rw [if_neg hneg] at h
  cases ha : I.axes[axis.toNat]? with
  | none =>
    rw [ha] at h
    cases h
  | some a => exact ⟨axis.toNat, a, (Int.toNat_of_nonneg (not_lt.1 hneg)).symm, ha⟩

/-- A location is out of range for a value that offends, or, where noise is to be removed, for a
position that is beyond repair while no value offends. -/
theorem locate_outOfRange {k : Nat} {a : Axis α} (ha : I.axes[k]? = some a) {v : NdArray α}
    {clamp : Bool} (h : I.locate k v clamp = .error (.outOfRange cause)) :
    (∃ inner, cause = .onAxis k inner ∧ ∃ x ∈ v.toList, a.Offends I.config.extpolfac x) ∨
      clamp = true ∧ a.Passes I.config.extpolfac v ∧ ∃ c p, I.locate k v false = .ok c ∧
        c.toList.find? (Position.deviates I.config.tolerance) = some p ∧
        cause = .deviates p.fraction p.complement I.config.tolerance := by
  rw [locate_eq_positions ha] at h
  rcases bind_eq_error_iff.1 h with h | ⟨c, hc, h⟩
  · exact .inl (positions_outOfRange h)
  cases clamp with
  | false => cases h
  | true =>
    obtain ⟨p, hp, hcause⟩ := find?_of_clamp_outOfRange h
    refine .inr ⟨rfl, (passes_of_positions hc).1, c, p, ?_, hp, hcause⟩
    rw [locate_eq_positions ha, hc]
    rfl

/-! ## All calls -/

omit [Scalar α] in
theorem container_failsWithin (shelf : Shelf α) (out : Option String) :
    FailsWithin [.badIndex] (Session.container shelf out) := by
  cases out with
  | none => exact .of_ok none
  | some name => exact (FailsWithin.of_orBadIndex _).map some

/-- **A call that is out of range tells the first axis that is offended**, but for the removal of
noise.  Whichever call it is, and whatever the numbers are, either the fault tells an axis, a value of
whose argument offends against it, while the arguments of all axes before it pass; or the call is a
location along an axis with noise to be removed, its argument passes, the same call without the
removal succeeds, and the fault tells, without the axis, the distances of the first position that is
beyond repair. -/
theorem out_of_range_attributed {shelf : Shelf α} {call : Call α}
    (h : Session.answer I shelf call = .error (.outOfRange cause)) :
    I.Attributed call.argument cause ∨
    ∃ (k : Nat) (a : Axis α) (v : NdArray α) (c : Column α) (p : Position α),
      call = .locate k v true ∧ I.axes[k]? = some a ∧ a.Passes I.config.extpolfac v ∧
      I.locate k v false = .ok c ∧
      c.toList.find? (Position.deviates I.config.tolerance) = some p ∧
      cause = .deviates p.fraction p.complement I.config.tolerance := by
  have hreply : ∀ {β : Type} {x : Except (Fault α) β} {f : β → Reply α},
      (x >>= fun b => .ok (f b)) = .error (.outOfRange cause) → x = .error (.outOfRange cause) := by
    intro β x f hx
    have hok : ∀ b, x = .ok b → FailsWithin [] (.ok (f b) : Except (Fault α) (Reply α)) :=
      fun b _ => .of_ok (f b)
    exact FailsWithin.outOfRange_of_bind hx List.not_mem_nil hok
  cases call with
  | valueAt point => exact .inl (valueAt_outOfRange (hreply h))
  | along coordinates out =>
    rcases bind_eq_error_iff.1 h with h | ⟨c, -, h⟩
    · exact absurd h ((container_failsWithin shelf out).ne_outOfRange (by decide) cause)
    · exact .inl (along_outOfRange (hreply h))
  | onto newGrids out =>
    rcases bind_eq_error_iff.1 h with h | ⟨c, -, h⟩
    · exact absurd h ((container_failsWithin shelf out).ne_outOfRange (by decide) cause)
    · exact .inl (onto_outOfRange (hreply h))
  | polyAlong coordinates => exact .inl (polyAlong_outOfRange (hreply h))
  | locate axis v clamp =>
    have hlocate := hreply h
    obtain ⟨k, a, rfl, ha⟩ := exists_axis_of_locate_outOfRange hlocate
    rcases locate_outOfRange ha hlocate with ⟨inner, hcause, hoffends⟩ | ⟨rfl, hpasses, c, p, hnoise⟩
    · refine .inl ⟨k, inner, hcause, ⟨a, v, ha, if_pos rfl, hoffends⟩, fun j hj b w _ hw => ?_⟩
      -- A location has no argument for any other axis.
      have hother : ¬ (j : Int) = k := by omega
      rw [Call.argument, if_neg hother] at hw
      cases hw
    · exact .inr ⟨k, a, v, c, p, rfl, ha, hpasses, hnoise⟩

/-- A fault that tells an axis begins with it, in its text. -/
example (k : Nat) (inner : RangeFault Float) :
    (RangeFault.onAxis k inner).message = "Axis " ++ toString k ++ ": " ++ inner.message := rfl

/-- What a call finds out of range, if it is refused for that. -/
def outOfRange? {β : Type} : Except (Fault α) β → Option (RangeFault α)
  | .error (.outOfRange cause) => some cause
  | _ => none

/-- The axis that is told. -/
def toldAxis? : RangeFault α → Option Nat
  | .onAxis k _ => some k
  | _ => none

/-- Distances are beyond repair. -/
def isDeviation : RangeFault α → Bool
  | .deviates .. => true
  | _ => false

omit [Scalar α] in
theorem outOfRange?_eq_some_iff {β : Type} {x : Except (Fault α) β} :
    outOfRange? x = some cause ↔ x = .error (.outOfRange cause) := by
  constructor
  · intro h
    unfold outOfRange? at h
    split at h
    · cases h
      rfl
    · cases h
  · rintro rfl
    rfl

omit [Scalar α] in
theorem toldAxis?_eq_some_iff {k : Nat} :
    toldAxis? cause = some k ↔ ∃ inner, cause = .onAxis k inner := by
  cases cause with
  | onAxis j inner => simp [toldAxis?]
  | _ => exact iff_of_false nofun fun ⟨_, h⟩ => nomatch h

omit [Scalar α] in
theorem isDeviation_iff : isDeviation cause = true ↔
    ∃ fraction complement tolerance, cause = .deviates fraction complement tolerance := by
  cases cause with
  | deviates f c t => exact iff_of_true rfl ⟨f, c, t, rfl⟩
  | _ => exact iff_of_false nofun fun ⟨_, _, _, h⟩ => nomatch h

/-- The configuration that is made when nothing is asked for. -/
def plain : Config Float :=
  ⟨Grid.defaultExtpolfac, Position.defaultTolerance, ⟨true, SumCheck.defaultTolerance⟩, .keep,
    .reference, .adaptive3, []⟩

theorem config_plain : Config.make (Settings.default : Settings Float) = .ok plain :=
  Config.make_eq_ok_iff.2 ⟨rfl, by decide +kernel, by decide +kernel, by decide +kernel, rfl, rfl, rfl,
    rfl, .nil, rfl, rfl, rfl⟩

/-- Three axes, and a point of which two coordinates offend: the second one is no number, and the third
one is far outside.  The second axis is told. -/
theorem out_of_range_attributed_second_axis :
    let axis : NdArray Float := NdArray.vector [0, 1]
    let field : NdArray Float := ⟨[2, 2, 2], #[0, 1, 2, 3, 4, 5, 6, 7], rfl⟩
    let call : Call Float :=
      .along [NdArray.vector [1], NdArray.vector [0 / 0], NdArray.vector [9]] none
    ∃ I inner, I.Made ∧ make [axis, axis, axis] field plain = .ok I ∧
      Session.answer I [] call = .error (.outOfRange (.onAxis 1 inner)) ∧
      FirstOffended I.axes I.config.extpolfac call.argument 1 := by
  intro axis field call
  obtain ⟨I, hmake⟩ := exists_of_isOk
    (show (make [axis, axis, axis] field plain).isOk = true by decide +kernel)
  have htold : (outOfRange? (make [axis, axis, axis] field plain >>= fun I =>
      Session.answer I [] call)).bind toldAxis? = some 1 := by decide +kernel
  rw [hmake, ok_bind, Option.bind_eq_some_iff] at htold
  obtain ⟨cause, hanswer, haxis⟩ := htold
  obtain ⟨inner, rfl⟩ := toldAxis?_eq_some_iff.1 haxis
  have hrefused := outOfRange?_eq_some_iff.1 hanswer
  refine ⟨I, inner, ⟨_, plain, _, field, config_plain, hmake⟩, hmake, hrefused, ?_⟩
  rcases out_of_range_attributed hrefused with
    ⟨k, _, hcause, hfirst⟩ | ⟨_, _, _, _, _, -, -, -, -, -, hcause⟩
  · cases hcause
    exact hfirst
  · cases hcause

/-- The text of distances beyond repair begins with no axis. -/
theorem message_deviates_ne (fraction complement tolerance : Float) (k : Nat) (rest : String) :
    (RangeFault.deviates fraction complement tolerance).message ≠
      "Axis " ++ toString k ++ ": " ++ rest := by
  intro h
  have htext : "Fractional distances (" ++ typedRealText fraction ++ ", " ++ typedRealText complement ++
      ") deviate from [0, 1] by more than " ++ realText tolerance ++ "." =
        "Axis " ++ toString k ++ ": " ++ rest := h
  have hchars := congrArg String.toList htext
  simp only [String.toList_append, List.append_assoc] at hchars
  have hours : "Fractional distances (".toList = 'F' :: "ractional distances (".toList := by decide
  have htheirs : "Axis ".toList = 'A' :: "xis ".toList := by decide
  rw [hours, htheirs, List.cons_append, List.cons_append] at hchars
  exact absurd (List.cons.inj hchars).1 (by decide)

/-- **Noise that is too much is told without the axis.**  Half a spacing beyond the last point a value
is still located, and the removal of noise refuses its position. -/
theorem clamp_tells_no_axis :
    let axis : NdArray Float := NdArray.vector [0, 1, 2]
    let call : Call Float := .locate 0 (NdArray.vector [5 / 2]) true
    ∃ I cause, I.Made ∧ make [axis] axis plain = .ok I ∧
      Session.answer I [] call = .error (.outOfRange cause) ∧
      ∀ (k : Nat) (rest : String), cause.message ≠ "Axis " ++ toString k ++ ": " ++ rest := by
  intro axis call
  obtain ⟨I, hmake⟩ := exists_of_isOk (show (make [axis] axis plain).isOk = true by decide +kernel)
  have htold : (outOfRange? (make [axis] axis plain >>= fun I => Session.answer I [] call)).any
      isDeviation = true := by decide +kernel
  rw [hmake, ok_bind, Option.any_eq_true] at htold
  obtain ⟨cause, hanswer, hdeviates⟩ := htold
  obtain ⟨fraction, complement, tolerance, rfl⟩ := isDeviation_iff.1 hdeviates
  exact ⟨I, _, ⟨_, plain, _, axis, config_plain, hmake⟩, hmake, outOfRange?_eq_some_iff.1 hanswer,
    message_deviates_ne fraction complement tolerance⟩

end Interpolator
end Regrid
