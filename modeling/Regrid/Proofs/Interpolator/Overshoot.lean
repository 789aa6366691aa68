import Regrid.Proofs.Interpolator.GridPoints
import Regrid.Proofs.Interpolator.Mirrored
import Regrid.Proofs.Locate.Clipped
import Regrid.Proofs.Sample.Averages

/-!
# No overshoot inside the grids

Arguments in the range of the grids (`Interpolator.Covers`) are accepted whatever the factor, and
their positions are inside their brackets (`Covers.exists_columns`).  There is no noise in these, so
they are located alike whether noise is to be removed or not (`locate_eq_of_inside`).  Nothing of this
depends on the field: for another field of the shape the interpolator is made with it and has the same
axes (`make_withField`), and the same columns are sampled with the same weights.

A value may also be outside the range of a grid by noise.  When it is located without noise, its
position is moved to the end of its bracket and is inside again (`WellFormed.inside_of_locate`).

Positions inside their brackets make averages, whatever they come from and whichever protocol samples
them (`Sample.columnsAverage_of_inside`).  So the values of all fields are averages over the corners
of the same cells (`no_overshoot`).
-/
namespace Regrid

variable {K : Type} [Field K] [LinearOrder K] [IsStrictOrderedRing K] [FloorRing K] [Elementary K]

/-- There is no noise to be removed from positions inside their brackets. -/
theorem Column.clamp_eq_self {tolerance : K} (htolerance : 0 < tolerance) {c : Column K}
    (h : ∀ p ∈ c.toList, p.Inside) : c.clamp tolerance = .ok c := by
  refine (clamp_eq_ok_iff htolerance).2 ⟨fun p hp => (h p hp).not_deviates htolerance, ?_⟩
  have hclipped : c.toList.map Position.clipped = c.toList.map id :=
    List.map_congr_left fun p hp => (h p hp).clipped_eq
  rw [hclipped, List.map_id, ofPositions_toList]

namespace Interpolator

/-! ## Arguments in the range of the grids -/

/-- **The grids cover the arguments** of a call: these are rows or single numbers, one per axis, and
their numbers lie between the least and the greatest point of the axis. -/
structure Covers (I : Interpolator K) (args : List (NdArray K)) : Prop where
  rows : ∀ v ∈ args, v.rank ≤ 1
  between : List.Forall₂ (fun (a : Axis K) v => ∀ x ∈ v.toList, Between a.points x) I.axes args

variable {I : Interpolator K} {args : List (NdArray K)} {cs : List (Column K)}

/-- Positions that fit coordinates in the range of the grids are inside their brackets. -/
theorem Placed.inside {axes : List (Axis K)} {xss : List (List K)} (h : Placed axes xss cs)
    (hord : ∀ a ∈ axes, ∃ d, Grid.Ordered d a.located)
    (hbetween : List.Forall₂ (fun (a : Axis K) xs => ∀ x ∈ xs, Between a.located (a.coordinate x))
      axes xss) : ∀ c ∈ cs, ∀ p ∈ c.toList, p.Inside := by
  induction h with
  | nil => exact List.forall_mem_nil _
  | cons head _ ih =>
    obtain ⟨⟨d, hd⟩, hords⟩ := List.forall_mem_cons.1 hord
    obtain ⟨hxs, hxss⟩ := List.forall₂_cons.1 hbetween
    refine List.forall_mem_cons.2 ⟨fun p hp => ?_, ih hords hxss⟩
    obtain ⟨i, hi⟩ := List.mem_iff_getElem?.1 hp
    obtain ⟨x, hx, hfits⟩ := Choices.exists_getElem? head.flip hi
    exact hfits.inside hd (hxs x (List.mem_of_getElem? hx))

/-- **Arguments in the range of the grids** have positions inside their brackets. -/
theorem Covers.exists_columns (hI : I.WellFormed) (h : I.Covers args) :
    ∃ cs, I.columns args = .ok cs ∧ Placed I.axes (args.map NdArray.toList) cs ∧ cs ≠ [] ∧
      Sample.SoundColumns I.field.shape cs ∧ ∀ c ∈ cs, ∀ p ∈ c.toList, p.Inside := by
  have hargs : List.Forall₂ (fun (a : Axis K) v => a ∈ I.axes ∧ ∀ x ∈ v.toList, Between a.points x)
      I.axes args := (List.forall₂_and_left _ _).2 ⟨fun a ha => ha, h.between⟩
  have haccepts : I.AcceptsAll (args.map NdArray.toList) := by
    refine List.forall₂_map_right_iff.2 (hargs.imp fun a v hv x hx => ?_)
    exact hI.accepts_of_between hv.1 (hv.2 x hx)
  obtain ⟨cs, hcount, hcs, hplaced, hne, hsound⟩ := haccepts.exists_columns hI
  refine ⟨cs, ?_, hplaced, hne, hsound, hplaced.inside (fun a ha => (hI.ordered a ha).2) ?_⟩
  · rw [columns_eq_vectors h.rows, columns, List.length_map, hcount, Outcome.ok_bind, hcs]
  · refine List.forall₂_map_right_iff.2 (hargs.imp fun a v hv x hx => ?_)
    exact (Axis.between_located (hI.positive a hv.1) (hv.2 x hx)).2

/-- The columns of all axes hold the positions along each. -/
theorem positions_of_allPositions {α : Type} [Scalar α] {I : Interpolator α} {j : Nat}
    {axes : List (Axis α)} {args : List (NdArray α)} {cs : List (Column α)}
    (h : I.allPositions j axes args = .ok cs) {k : Nat} {a : Axis α} {v : NdArray α} {c : Column α}
    (ha : axes[k]? = some a) (hv : args[k]? = some v) (hc : cs[k]? = some c) :
    I.positions (j + k) a v = .ok c := by
  induction axes generalizing j args cs k with
  | nil => cases ha
  | cons a' axes ih =>
    cases args with
    | nil => cases hv
    | cons v' args =>
      obtain ⟨c', others, hc', hothers, rfl⟩ := allPositions_cons_eq_ok_iff.1 h
      cases k with
      | zero =>
        cases ha
        cases hv
        cases hc
        exact hc'
      | succ k =>
        rw [List.getElem?_cons_succ] at ha hv hc
        rw [← Nat.add_assoc, Nat.add_right_comm]
        exact ih hothers ha hv hc

/-- **Located are the same positions**, whether noise is to be removed or not. -/
theorem locate_eq_of_inside (hI : I.WellFormed) (hcs : I.columns args = .ok cs)
    (hinside : ∀ c ∈ cs, ∀ p ∈ c.toList, p.Inside) {k : Nat} {v : NdArray K} {c : Column K}
    (hv : args[k]? = some v) (hc : cs[k]? = some c) (clamp : Bool) :
    I.locate k v clamp = .ok c := by
  obtain ⟨hcount, hall⟩ := columns_eq_ok_iff.1 hcs
  have hk : k < I.axes.length := hcount ▸ (List.getElem?_eq_some_iff.1 hv).1
  have ha : I.axes[k]? = some I.axes[k] := List.getElem?_eq_getElem hk
  have hpositions := positions_of_allPositions hall ha hv hc
  rw [Nat.zero_add] at hpositions
  rw [locate_eq_positions ha, hpositions, Outcome.ok_bind]
  cases clamp with
  | false => rfl
  | true => exact Column.clamp_eq_self hI.tolerance (hinside c (List.mem_of_getElem? hc))

/-! ## Located without noise -/

/-- **Positions located without noise are inside their brackets**, and these are on the axis. -/
theorem WellFormed.inside_of_locate (hI : I.WellFormed) {k : Nat} {a : Axis K} {v : NdArray K}
    {c : Column K} (ha : I.axes[k]? = some a) (h : I.locate k v true = .ok c) :
    ∀ p ∈ c.toList, p.Inside ∧ Sample.Sound a.points.length p := by
  obtain ⟨e, he, hc⟩ := positions_of_locate hI ha h
  rw [positions_eq_vector k a (rank_le_one_of_positions he)] at he
  have hfits := fits_of_positions hI (List.mem_of_getElem? ha) he
  rw [hc, if_pos rfl]
  refine List.forall_mem_map.2 fun p hp => ?_
  obtain ⟨i, hi⟩ := List.mem_iff_getElem?.1 hp
  obtain ⟨x, -, hx⟩ := Choices.exists_getElem? hfits.flip hi
  have hinside := Position.inside_clipped hx.complement
  -- The bracket is the same, and only the distances have been moved.
  exact ⟨hinside, (Placed.sound_of_fits hx).1, hinside.whole⟩

/-- Columns that are located without noise, one on each axis. -/
theorem WellFormed.sound_of_located (hI : I.WellFormed) (hcount : cs.length = I.rank)
    (h : ∀ (k : Nat) c, cs[k]? = some c → ∃ v, I.locate k v true = .ok c) :
    cs ≠ [] ∧ Sample.SoundColumns I.field.shape cs ∧ ∀ c ∈ cs, ∀ p ∈ c.toList, p.Inside := by
  have hall : List.Forall₂ (fun (a : Axis K) c => ∀ p ∈ c.toList,
      p.Inside ∧ Sample.Sound a.points.length p) I.axes cs := by
    refine List.forall₂_iff_get.2 ⟨hcount.symm, fun k hk hk' => ?_⟩
    obtain ⟨v, hv⟩ := h k _ (List.getElem?_eq_getElem hk')
    exact hI.inside_of_locate (List.getElem?_eq_getElem hk) hv
  refine ⟨?_, ?_, fun c hc p hp => ?_⟩
  · rintro rfl
    exact hI.nonempty (List.length_eq_zero_iff.1 hcount.symm)
  · rw [hI.shape]
    exact List.forall₂_map_left_iff.2 (hall.imp fun a c hc p hp => (hc p hp).2)
  · obtain ⟨k, hk⟩ := List.mem_iff_getElem?.1 hc
    obtain ⟨a, -, ha⟩ := Choices.exists_getElem? hall.flip hk
    exact (ha p hp).1

/-! ## Any field of the shape -/

section Fields
variable {α : Type} [Scalar α] {grids : List (NdArray α)} {field f : NdArray α} {cfg : Config α}
  {I : Interpolator α} {args : List (NdArray α)} {cs : List (Column α)} {w : NdArray α}

/-- **Another field of the shape** makes an interpolator that has this field and is otherwise the
same. -/
theorem make_withField (h : make grids field cfg = .ok I) (hshape : f.shape = field.shape) :
    make grids f cfg = .ok { I with field := f } := by
  obtain ⟨points, hpoints, hne, hrank, hlog, haxes, hbackend, -, hconfig⟩ := make_eq_ok_iff.1 h
  refine make_eq_ok_iff.2 ⟨points, hpoints, hne, ?_, hlog, ?_, hbackend, rfl, hconfig⟩
  · rw [NdArray.rank, hshape]
    exact hrank
  · rw [hshape]
    exact haxes

theorem columns_withField (args : List (NdArray α)) :
    ({ I with field := f } : Interpolator α).columns args = I.columns args :=
  columns_congr (I := { I with field := f }) (J := I) rfl (fun _ _ _ => rfl) args

variable (h : make grids field cfg = .ok I) (hshape : f.shape = field.shape)
include h hshape

theorem along_withField (hcs : I.columns args = .ok cs) (hw : Weights.blue cs none = .ok w)
    (out : Option (Container α)) :
    (make grids f cfg >>= fun J => J.along args out) =
      I.backend.sample w f (cs.map .many) out I.config.sumCheck := by
  rw [make_withField h hshape, Outcome.ok_bind, along_eq_columns, columns_withField, hcs,
    Outcome.ok_bind, hw, Outcome.ok_bind]

theorem onto_withField (hcs : I.columns args = .ok cs) (hw : Weights.green cs none = .ok w)
    (out : Option (Container α)) :
    (make grids f cfg >>= fun J => J.onto args out) =
      I.backend.sample w f (cs.map .many) out I.config.sumCheck := by
  rw [make_withField h hshape, Outcome.ok_bind, onto_eq_columns, columns_withField, hcs,
    Outcome.ok_bind, hw, Outcome.ok_bind]

theorem valueAt_withField (hcs : I.columns (args.map Locate.wrapped) = .ok cs)
    {ps : List (Position α)} (hne : ps ≠ []) (hps : (cs.mapM fun c => c.get 0) = .ok ps)
    (hw : Weights.red ps none = .ok w) :
    (make grids f cfg >>= fun J => (J.valueAt args).map NdArray.scalar) =
      I.backend.sample w f (ps.map .one) none I.config.sumCheck := by
  rw [make_withField h hshape, Outcome.ok_bind, valueAt_eq_columns, columns_withField, hcs,
    Outcome.ok_bind, hps, Outcome.ok_bind, hw, Outcome.ok_bind, Backend.sample,
    Sample.sample_singles hne]
  cases Sample.red I.backend.sampler w f ps I.config.sumCheck with
  | error e => rfl
  | ok v => rfl

end Fields

end Interpolator

/-! ## Averages -/

namespace Sample

variable {shape : List Nat} {cs : List (Column K)}

omit [IsStrictOrderedRing K] in
/-- The backends average at the positions `ps`, with the weights `w`: whatever the check of the
weights is, what each of them gives for a field of the shape are averages in the cells of `pss`. -/
def BackendsAverage (shape : List Nat) (pss : List (List (Position K))) (w : NdArray K)
    (ps : List (Placement K)) (out : Option (Container K)) : Prop :=
  ∀ (b : Backend) (check : SumCheck K), 0 < check.tolerance →
    Averages shape pss w fun f => b.sample w f ps out check

/-- **The positions in columns make averages** by every protocol, with weights that are computed for
them first. -/
structure ColumnsAverage (shape : List Nat) (cs : List (Column K)) : Prop where
  /-- At one position of each column. -/
  single : ∀ ps, List.Forall₂ (· ∈ ·) ps (cs.map Column.toList) →
    ∃ w, (∀ mode, Weights.ofPlacements (ps.map .one) mode none = .ok w) ∧
      BackendsAverage shape [ps] w (ps.map .one) none
  /-- Along the sequence of positions, if the columns are of one length. -/
  sequence : ∀ n, (∀ c ∈ cs, c.length = n) →
    ∃ w, (∀ mode, Weights.layout (α := K) mode none cs.length = .ok .blue →
        Weights.ofPlacements (cs.map .many) mode none = .ok w) ∧
      ∀ out : Option (Container K), (∀ c ∈ out, c.Keeps [n]) →
        BackendsAverage shape (Weights.sideBySide (cs.map Column.toList)) w (cs.map .many) out
  /-- On the grid of positions. -/
  grid : ∃ w, (∀ mode, Weights.layout (α := K) mode none cs.length = .ok .green →
        Weights.ofPlacements (cs.map .many) mode none = .ok w) ∧
      ∀ out : Option (Container K), (∀ c ∈ out, c.Keeps (cs.map Column.length)) →
        BackendsAverage shape (mesh (cs.map Column.toList)) w (cs.map .many) out

/-- **Sound positions inside their brackets make averages.** -/
theorem columnsAverage_of_inside (hne : cs ≠ []) (hsound : SoundColumns shape cs)
    (hinside : ∀ c ∈ cs, ∀ p ∈ c.toList, p.Inside) : ColumnsAverage shape cs where
  single ps hmem := by
    have hps : ps ≠ [] := by
      rintro rfl
      exact hne (List.map_eq_nil_iff.1 (List.forall₂_nil_left_iff.1 hmem))
    have hpositions := sound_of_mem hsound hmem
    have hin := Choices.forall_mem_of_mem hmem (List.forall_mem_map.2 hinside)
    obtain ⟨w, hw⟩ : ∃ w, Weights.red ps none = .ok w := by
      obtain ⟨p, qs, rfl⟩ := List.exists_cons_of_ne_nil hps
      exact ⟨_, Weights.red_none p qs⟩
    refine ⟨w, fun mode => ?_, fun b check hcheck => ?_⟩
    · rw [Weights.ofPlacements_singles hps, hw]
    · exact averages_red b.sampler_exact hcheck hps hpositions hin hw
  sequence n hlen := by
    obtain ⟨w, hw, -⟩ := Weights.exists_of_sequence hne hlen
    refine ⟨w, fun mode hmode => ?_, fun out hout b check hcheck => ?_⟩
    · rw [Weights.ofPlacements_columns hne hmode, if_neg (by decide), hw]
    · exact averages_blue b.sampler_exact hcheck hne hsound hinside hlen hw hout
  grid := by
    obtain ⟨w, hw, -⟩ := Weights.exists_of_grid hne
    refine ⟨w, fun mode hmode => ?_, fun out hout b check hcheck => ?_⟩
    · rw [Weights.ofPlacements_columns hne hmode, if_pos rfl, hw]
    · exact averages_green b.sampler_exact hcheck hne hsound hinside hw hout

end Sample

namespace Interpolator

variable {I : Interpolator K} {args : List (NdArray K)} {cs : List (Column K)}

omit [IsStrictOrderedRing K] in
/-- Single numbers are located as the rows of one that they stand for. -/
theorem columns_wrapped (h : ∀ v ∈ args, v.shape = []) :
    I.columns (args.map Locate.wrapped) = I.columns args := by
  obtain ⟨xs, rfl⟩ := NdArray.exists_scalars_of_shapes h
  have hrows : ∀ v ∈ xs.map NdArray.scalar, v.rank ≤ 1 :=
    List.forall_mem_map.2 fun x _ => Nat.zero_le 1
  rw [wrapped_scalars, columns_eq_vectors hrows, List.map_map, List.map_map, List.map_map]
  rfl

/-- **A call and sampling with the weights** `w` at the positions `ps` **average alike**: for a field of
the shape, what the call gives and what any backend gives are averages in the cells of `pss`. -/
structure Averaged (shape : List Nat) (pss : List (List (Position K))) (w : NdArray K)
    (ps : List (Placement K)) (out : Option (Container K))
    (call : NdArray K → Except (Fault K) (NdArray K)) : Prop where
  called : Sample.Averages shape pss w call
  sampled : Sample.BackendsAverage shape pss w ps out

omit [IsStrictOrderedRing K] in
/-- A call that samples with the weights averages if all backends do. -/
theorem averaged_of_sampled {shape : List Nat} {pss : List (List (Position K))} {w : NdArray K}
    {ps : List (Placement K)} {out : Option (Container K)}
    {call : NdArray K → Except (Fault K) (NdArray K)} (hcheck : 0 < I.config.sumCheck.tolerance)
    (hcall : ∀ f, f.shape = shape → call f = I.backend.sample w f ps out I.config.sumCheck)
    (h : Sample.BackendsAverage shape pss w ps out) : Averaged shape pss w ps out call :=
  ⟨(h I.backend I.config.sumCheck hcheck).congr hcall, h⟩

section Protocols
omit [IsStrictOrderedRing K]
variable {grids : List (NdArray K)} (hwell : I.WellFormed) (hI : make grids I.field I.config = .ok I)
  (hne : cs ≠ []) (haverage : Sample.ColumnsAverage I.field.shape cs)
include hwell hI hne haverage

/-- At a point whose columns hold one position each, these are the ones that are sampled. -/
theorem averaged_valueAt {ps : List (Position K)}
    (hcs : I.columns (args.map Locate.wrapped) = .ok cs)
    (hsingle : List.Forall₂ (fun (c : Column K) p => c.toList = [p]) cs ps) :
    ∃ w, (∀ mode, Weights.ofPlacements (ps.map .one) mode none = .ok w) ∧
      Averaged I.field.shape [ps] w (ps.map .one) none
        fun f => make grids f I.config >>= fun J => (J.valueAt args).map NdArray.scalar := by
  have hps : ps ≠ [] := by
    rintro rfl
    exact hne (List.forall₂_nil_right_iff.1 hsingle)
  obtain ⟨w, hw, hsampled⟩ := haverage.single ps (mem_of_single hsingle)
  have hred := hw none
  rw [Weights.ofPlacements_singles hps] at hred
  exact ⟨w, hw, averaged_of_sampled hwell.sumTolerance
    (fun f hf => valueAt_withField hI hf hcs hps (mapM_get_zero hsingle) hred) hsampled⟩

/-- Along a sequence. -/
theorem averaged_along (hcs : I.columns args = .ok cs) {n : Nat} (hlen : ∀ c ∈ cs, c.length = n) :
    ∃ w, (∀ mode, Weights.layout (α := K) mode none cs.length = .ok .blue →
        Weights.ofPlacements (cs.map .many) mode none = .ok w) ∧
      ∀ out : Option (Container K), (∀ c ∈ out, c.Keeps [n]) →
        Averaged I.field.shape (Weights.sideBySide (cs.map Column.toList)) w (cs.map .many) out
          fun f => make grids f I.config >>= fun J => J.along args out := by
  obtain ⟨w, hw, hsampled⟩ := haverage.sequence n hlen
  have hblue := hw (some .blue) rfl
  rw [Weights.ofPlacements_columns hne rfl, if_neg (by decide)] at hblue
  exact ⟨w, hw, fun out hout => averaged_of_sampled hwell.sumTolerance
    (fun f hf => along_withField hI hf hcs hblue out) (hsampled out hout)⟩

/-- Onto a grid. -/
theorem averaged_onto (hcs : I.columns args = .ok cs) :
    ∃ w, (∀ mode, Weights.layout (α := K) mode none cs.length = .ok .green →
        Weights.ofPlacements (cs.map .many) mode none = .ok w) ∧
      ∀ out : Option (Container K), (∀ c ∈ out, c.Keeps (cs.map Column.length)) →
        Averaged I.field.shape (Sample.mesh (cs.map Column.toList)) w (cs.map .many) out
          fun f => make grids f I.config >>= fun J => J.onto args out := by
  obtain ⟨w, hw, hsampled⟩ := haverage.grid
  have hgreen := hw (some .green) rfl
  rw [Weights.ofPlacements_columns hne rfl, if_pos rfl] at hgreen
  exact ⟨w, hw, fun out hout => averaged_of_sampled hwell.sumTolerance
    (fun f hf => onto_withField hI hf hcs hgreen out) (hsampled out hout)⟩

end Protocols

/-- **No overshoot inside the grids.**  Arguments in the range of the grids have positions that are the
same whether noise is to be removed or not, and the values there are averages over the corners of the
cells, by a call as well as with weights that are computed first.  There are as many weights as corners,
parts of one that make one; a value lies between the least and the greatest that the field has at the
corners; and a field that is nowhere less has values that are nowhere less.

* At a point, for single numbers.
* Along a sequence, for arguments of one length, also into a container that keeps the values.
* Onto a grid, in the same way.

Positions that are located without noise make averages with weights that are computed for them, by all
three protocols, also those of values that are outside the range of a grid. -/
theorem no_overshoot {settings : Settings K} {cfg : Config K} {grids : List (NdArray K)}
    {field : NdArray K} (hcfg : Config.make settings = .ok cfg) (hI : make grids field cfg = .ok I) :
    (∀ args, I.Covers args → ∃ cs : List (Column K), cs.length = args.length ∧
      (∀ (k : Nat) v c, args[k]? = some v → cs[k]? = some c →
        ∀ clamp, I.locate k v clamp = .ok c) ∧
      ((∀ v ∈ args, v.shape = []) →
        ∃ ps w, List.Forall₂ (fun (c : Column K) p => c.toList = [p]) cs ps ∧
          (∀ mode, Weights.ofPlacements (ps.map .one) mode none = .ok w) ∧
          Averaged field.shape [ps] w (ps.map .one) none
            fun f => make grids f cfg >>= fun J => (J.valueAt args).map NdArray.scalar) ∧
      (∀ n, (∀ v ∈ args, v.size = n) →
        ∃ w, (∀ mode, Weights.layout (α := K) mode none cs.length = .ok .blue →
            Weights.ofPlacements (cs.map .many) mode none = .ok w) ∧
          ∀ out : Option (Container K), (∀ c ∈ out, c.Keeps [n]) →
            Averaged field.shape (Weights.sideBySide (cs.map Column.toList)) w (cs.map .many) out
              fun f => make grids f cfg >>= fun J => J.along args out) ∧
      ∃ w, (∀ mode, Weights.layout (α := K) mode none cs.length = .ok .green →
          Weights.ofPlacements (cs.map .many) mode none = .ok w) ∧
        ∀ out : Option (Container K), (∀ c ∈ out, c.Keeps (args.map NdArray.size)) →
          Averaged field.shape (Sample.mesh (cs.map Column.toList)) w (cs.map .many) out
            fun f => make grids f cfg >>= fun J => J.onto args out) ∧
    ∀ cs : List (Column K), cs.length = I.rank →
      (∀ (k : Nat) c, cs[k]? = some c → ∃ v, I.locate k v true = .ok c) →
      Sample.ColumnsAverage field.shape cs := by
  have hwell : I.WellFormed := Made.wellFormed ⟨settings, cfg, grids, field, hcfg, hI⟩
  obtain ⟨-, -, -, -, -, -, -, rfl, rfl⟩ := make_eq_ok_iff.1 hI
  refine ⟨fun args hargs => ?_, fun cs hcount hlocated => ?_⟩
  · obtain ⟨cs, hcs, hplaced, hne, hsound, hinside⟩ := hargs.exists_columns hwell
    have haverage := Sample.columnsAverage_of_inside hne hsound hinside
    have hlengths : cs.map Column.length = args.map NdArray.size := by
      rw [hplaced.length_eq.2, List.map_map]
      exact List.map_congr_left fun v _ => v.length_toList
    refine ⟨cs, ?_, fun k v c hv hc clamp => locate_eq_of_inside hwell hcs hinside hv hc clamp,
      fun hscalars => ?_, fun n hn => ?_, ?_⟩
    · rw [hplaced.length_eq.1, hargs.between.length_eq]
    · rw [← columns_wrapped hscalars] at hcs
      obtain ⟨xs, rfl⟩ := NdArray.exists_scalars_of_shapes hscalars
      rw [List.map_map] at hplaced
      obtain ⟨ps, hsingle, -⟩ := hplaced.exists_single
      obtain ⟨w, hw, haveraged⟩ := averaged_valueAt hwell hI hne haverage hcs hsingle
      exact ⟨ps, w, hsingle, hw, haveraged⟩
    · have hlen : ∀ c ∈ cs, c.length = n := Choices.forall_eq_of_map_eq hlengths hn
      exact averaged_along hwell hI hne haverage hcs hlen
    · rw [← hlengths]
      exact averaged_onto hwell hI hne haverage hcs
  · obtain ⟨hne, hsound, hinside⟩ := hwell.sound_of_located hcount hlocated
    exact Sample.columnsAverage_of_inside hne hsound hinside

/-- Between two points of an ascending axis and two of a descending logarithmic one, the corners are
the entries in two rows.  A little beyond the last point of the one and the first of the other, values
are located without noise. -/
theorem no_overshoot_two_axes :
    let field : NdArray ℚ := ⟨[3, 2], #[1, 2, 3, 5, 8, 13], rfl⟩
    let point : List (NdArray ℚ) := [NdArray.scalar 2, NdArray.scalar (3 / 2)]
    Config.make logSecond = .ok (twoAxes field).config ∧
      make [NdArray.vector [0, 1, 3], NdArray.vector [2, 1]] field (twoAxes field).config =
        .ok (twoAxes field) ∧
      (twoAxes field).Covers point ∧
      (∃ v, (twoAxes field).valueAt point = .ok v ∧ Between [3, 5, 8, 13] v) ∧
      ∃ c d, (twoAxes field).locate 0 (NdArray.vector [3001 / 1000]) true = .ok c ∧
        (twoAxes field).locate 1 (NdArray.vector [20001 / 10000]) true = .ok d ∧
        Sample.ColumnsAverage field.shape [c, d] := by
  intro field point
  have hcfg : Config.make logSecond = .ok (twoAxes field).config := config_twoAxes field
  have hmake : make [NdArray.vector [0, 1, 3], NdArray.vector [2, 1]] field (twoAxes field).config =
      .ok (twoAxes field) := make_twoAxes rfl rfl rfl
  have hcovers : (twoAxes field).Covers point := by
    refine ⟨by simp [point, NdArray.rank, NdArray.scalar], .cons ?_ (.cons ?_ .nil)⟩
    · intro x hx
      obtain rfl := List.mem_singleton.1 hx
      exact ⟨⟨1, by decide +kernel, by decide +kernel⟩, 3, by decide +kernel, by decide +kernel⟩
    · intro x hx
      obtain rfl := List.mem_singleton.1 hx
      exact ⟨⟨1, by decide +kernel, by decide +kernel⟩, 2, by decide +kernel, by decide +kernel⟩
  obtain ⟨hcalls, hclamped⟩ := no_overshoot hcfg hmake
  refine ⟨hcfg, hmake, hcovers, ?between, ?beyond⟩
  case beyond =>
    obtain ⟨c, hc⟩ : ∃ c, (twoAxes field).locate 0 (NdArray.vector [3001 / 1000]) true = .ok c :=
      Outcome.exists_of_isOk (by decide +kernel)
    obtain ⟨d, hd⟩ : ∃ d, (twoAxes field).locate 1 (NdArray.vector [20001 / 10000]) true = .ok d :=
      Outcome.exists_of_isOk (by decide +kernel)
    refine ⟨c, d, hc, hd, hclamped [c, d] rfl fun k e he => ?_⟩
    rcases k with _ | _ | k
    · cases he
      exact ⟨_, hc⟩
    · cases he
      exact ⟨_, hd⟩
    · cases he
  obtain ⟨cs, hlen, hlocate, hpoint, -⟩ := hcalls point hcovers
  obtain ⟨ps, w, hsingle, -, haveraged⟩ := hpoint (by simp [point, NdArray.scalar])
  obtain ⟨c, d, rfl⟩ := List.length_eq_two.1 hlen
  obtain ⟨p, qs, hp, hqs, rfl⟩ := List.forall₂_cons_left_iff.1 hsingle
  obtain ⟨q, rest, hq, hrest, rfl⟩ := List.forall₂_cons_left_iff.1 hqs
  obtain rfl := List.forall₂_nil_left_iff.1 hrest
  -- The brackets are the second along the first axis and the only one along the other.
  have hfirst : ((twoAxes field).locate 0 (NdArray.scalar 2) false).toOption.map
      (fun c => c.toList.map Position.idx) = some [1] := by decide +kernel
  have hsecond : ((twoAxes field).locate 1 (NdArray.scalar (3 / 2)) false).toOption.map
      (fun c => c.toList.map Position.idx) = some [0] := by decide +kernel
  have hc : (twoAxes field).locate 0 (NdArray.scalar 2) false = .ok c := hlocate 0 _ c rfl rfl false
  have hd : (twoAxes field).locate 1 (NdArray.scalar (3 / 2)) false = .ok d :=
    hlocate 1 _ d rfl rfl false
  rw [hc, Except.toOption, Option.map_some, hp] at hfirst
  rw [hd, Except.toOption, Option.map_some, hq] at hsecond
  have hidx : [p, q].map Position.idx = [1, 0] :=
    congrArg₂ List.append (Option.some.inj hfirst) (Option.some.inj hsecond)
  have hread : ((Sample.corners (Corner.offsets 2) [1, 0]).mapM field.read).toOption =
      some [3, 5, 8, 13] := by decide +kernel
  obtain ⟨values, hvalues, hall⟩ := haveraged.called.between field rfl
  rw [hmake, Outcome.ok_bind] at hvalues
  obtain ⟨v, hv, rfl⟩ := Outcome.map_eq_ok_iff.1 hvalues
  have hall : List.Forall₂ _ [[p, q]] [v] := hall
  obtain ⟨⟨ys, hys, hbetween⟩, -⟩ := List.forall₂_cons.1 hall
  have hys : (Sample.corners (Corner.offsets 2) [1, 0]).mapM field.read = .ok ys := by
    rwa [Cell.corners, hidx] at hys
  rw [hys] at hread
  cases hread
  exact ⟨v, hv, hbetween⟩

end Interpolator
end Regrid
