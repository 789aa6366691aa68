import Regrid.Backend
import Regrid.Proofs.Sample.Cells
import Regrid.Proofs.Sample.Checks
import Regrid.Proofs.Sample.Dispatch

/-!
# All samplers sample alike

Samplers differ in how they read a corner outside the field, and in the order of their additions.
What the checks in front of a protocol let pass has no corner outside.  So two samplers that read
alike at the corners inside the field and add alike (`Sampler.AlikeOn`) sample alike, whatever the
weights, the field and the positions are: with the same values, or with the same fault
(`Sample.sample_congr`).  Where the order of additions does not matter, all samplers are of this kind
(`Sampler.Exact.alikeOn`).
-/
namespace Regrid

namespace Sample

variable {α : Type}

/-- Both points of every bracket are among the points of its axis. -/
def OnAxes (shape : List Nat) (idx : List Int) : Prop :=
  List.Forall₂ (fun (n : Nat) i => 0 ≤ i ∧ i + 2 ≤ (n : Int)) shape idx

theorem onAxes_of_mem {shape : List Nat} {lists : List (List Int)}
    (h : (checkField shape lists : Except (Fault α) Unit) = .ok ()) {idx : List Int}
    (hmem : List.Forall₂ (· ∈ ·) idx lists) : OnAxes shape idx :=
  Choices.forall₂_of_mem (checkField_eq_ok_iff.1 h) hmem

/-- A corner of the cells of brackets, which are given axis by axis: along each axis it is one
of the brackets, or the point after it. -/
def IsCorner (lists : List (List Int)) (ix : List Int) : Prop :=
  List.Forall₂ (fun is j => ∃ i ∈ is, j = i ∨ j = i + 1) lists ix

/-- Cells are addressed at their corners. -/
theorem isCorner_of_mem_corners {lists : List (List Int)} {idx : List Int}
    (hmem : List.Forall₂ (· ∈ ·) idx lists) :
    ∀ ix ∈ corners (Corner.offsets idx.length) idx, IsCorner lists ix := by
  intro ix hix
  obtain ⟨bits, hbits, rfl⟩ := List.mem_map.1 hix
  obtain ⟨hlen, hbit⟩ := Corner.mem_offsets hbits
  clear hix hbits
  induction hmem generalizing bits with
  | nil => exact .nil
  | @cons i is _ _ head _ ih =>
    cases bits with
    | nil => cases hlen
    | cons b bits =>
      obtain ⟨hb, hlater⟩ := List.forall_mem_cons.1 hbit
      have hfirst : i + (b : Int) = i ∨ i + (b : Int) = i + 1 := by omega
      exact .cons ⟨i, head, hfirst⟩ (ih bits (Nat.succ.inj hlen) hlater)

end Sample

/-! ## Two samplers -/

/-- **Two samplers are alike on cells** of a field: they add products in the same way, and at the
corners inside the field they read the same. -/
structure Sampler.AlikeOn {α : Type} (s s' : Sampler α) (field : NdArray α)
    (lists : List (List Int)) : Prop where
  single : s.single = s'.single
  row : s.row = s'.row
  read : ∀ ix, Sample.IsCorner lists ix → NdArray.Inside field.shape ix →
    s.read field ix = s'.read field ix

/-- Without rounding, all samplers are alike on all cells. -/
theorem Sampler.Exact.alikeOn {α : Type} [Scalar α] {s s' : Sampler α} (hs : s.Exact)
    (hs' : s'.Exact) (field : NdArray α) (lists : List (List Int)) : s.AlikeOn s' field lists where
  single := funext₂ fun values weights => (hs.single ..).trans (hs'.single values weights).symm
  row := funext₂ fun values weights => (hs.row ..).trans (hs'.row values weights).symm
  read ix _ hinside := (hs.read field ix hinside).trans (hs'.read field ix hinside).symm

namespace Sample

variable {α : Type} {s s' : Sampler α} {field : NdArray α}

section Brackets
variable {lists : List (List Int)} (hs : s.AlikeOn s' field lists)
  (hfield : (checkField field.shape lists : Except (Fault α) Unit) = .ok ())
include hs hfield

theorem gather_congr {idx : List Int} (hmem : List.Forall₂ (· ∈ ·) idx lists) {axes : Nat}
    (haxes : field.rank = axes) :
    gather s field (Corner.offsets axes) idx = gather s' field (Corner.offsets axes) idx := by
  have hidx := onAxes_of_mem hfield hmem
  have hlen : axes = idx.length := haxes.symm.trans hidx.length_eq
  subst hlen
  refine Outcome.mapM_congr fun ix hix => ?_
  exact hs.read ix (isCorner_of_mem_corners hmem ix hix) (inside_of_mem_corners hidx ix hix)

theorem single_congr {idx : List Int} (hmem : List.Forall₂ (· ∈ ·) idx lists) (w : List α) :
    single s field idx w = single s' field idx w := by
  rw [single, single, gather_congr hs hfield hmem (onAxes_of_mem hfield hmem).length_eq, hs.single]

theorem rows_congr {axes : Nat} (haxes : field.rank = axes) {idx : List (List Int)}
    (hmem : ∀ is ∈ idx, List.Forall₂ (· ∈ ·) is lists) (w : List (List α)) :
    rows s field axes idx w = rows s' field axes idx w := by
  refine Outcome.mapM_congr fun ⟨is, row⟩ hrow => ?_
  simp only [gather_congr hs hfield (hmem is (List.of_mem_zip hrow).1) haxes, hs.row]

end Brackets

variable [Scalar α] {weights : NdArray α} {check : SumCheck α}

theorem red_congr {ps : List (Position α)} (hs : s.AlikeOn s' field (ps.map fun p => [p.idx])) :
    red s weights field ps check = red s' weights field ps check := by
  rw [red, red]
  refine Outcome.guard_congr fun _ => Outcome.bind_congr fun _ hchecks => ?_
  refine single_congr hs (checkRed_eq_ok_iff.1 hchecks).2.1 ?_ _
  rw [List.forall₂_map_left_iff, List.forall₂_map_right_iff, List.forall₂_same]
  exact fun p _ => List.mem_singleton_self _

section Columns
variable {cs : List (Column α)} (hs : s.AlikeOn s' field (cs.map Column.idx))
  (out : Option (Container α))
include hs

theorem blue_congr : blue s weights field cs out check = blue s' weights field cs out check := by
  rw [blue, blue]
  refine Outcome.guard_congr fun hempty => Outcome.bind_congr fun _ hchecks => ?_
  have hne : cs ≠ [] := fun h => hempty (List.isEmpty_iff.2 h)
  have hfield := ((checkBlue_eq_ok_iff hne).1 hchecks).2.1
  have haxes : field.rank = cs.length :=
    (checkField_eq_ok_iff.1 hfield).length_eq.trans (List.length_map _)
  -- Side by side, every point takes its brackets from the lists that were checked.
  have hlists : cs.map Column.idx ≠ [] := by rwa [Ne, List.map_eq_nil_iff]
  simp only [rows_congr hs hfield haxes fun is his => Weights.mem_sideBySide hlists his]

theorem green_congr : green s weights field cs out check = green s' weights field cs out check := by
  rw [green, green]
  refine Outcome.guard_congr fun _ => Outcome.bind_congr fun _ hchecks => ?_
  have hfield := (checkGreen_eq_ok_iff.1 hchecks).2.1
  have haxes : field.rank = cs.length :=
    (checkField_eq_ok_iff.1 hfield).length_eq.trans (List.length_map _)
  rw [rows_congr hs hfield haxes fun is his => mem_mesh.1 his]

end Columns

/-- **Samplers that are alike on the cells of the positions sample alike**, whatever the weights,
the field and the positions are. -/
theorem sample_congr {ps : List (Placement α)}
    (hs : s.AlikeOn s' field (ps.map Placement.indices)) (out : Option (Container α)) :
    sample s weights field ps out check = sample s' weights field ps out check := by
  induction ps using Placement.kind_cases with
  | nil => rfl
  | singles qs hne =>
    rw [Placement.indices_map_one] at hs
    rw [sample_singles hne, sample_singles hne, red_congr hs]
  | columns cs hne =>
    rw [Placement.indices_map_many] at hs
    rw [sample_columns hne, sample_columns hne, blue_congr hs, green_congr hs]
  | mixed ps h h' => rw [sample_mixed h h', sample_mixed h h']

end Sample

namespace Backend

variable {α : Type} [Scalar α] [ExactSums α]

theorem sampler_exact (b : Backend) : (b.sampler : Sampler α).Exact := by
  cases b with
  | fused => exact Sampler.fused_exact
  | reference => exact Sampler.reference_exact
  | compiled => exact Sampler.reference_exact
  | native => exact Sampler.reference_exact

/-- The backends sample alike. -/
theorem sample_eq (b b' : Backend) (weights field : NdArray α) (ps : List (Placement α))
    (out : Option (Container α)) (check : SumCheck α) :
    b.sample weights field ps out check = b'.sample weights field ps out check :=
  Sample.sample_congr (b.sampler_exact.alikeOn b'.sampler_exact field _) out

end Backend
end Regrid
