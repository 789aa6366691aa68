import Regrid.Proofs.Outcome
import Regrid.Sample

/-!
# Which protocol is taken

There is nothing to sample, or all positions are single ones, or all are columns, or the two are
mixed (`Placement.kind_cases`).  Single positions have the weights of one point and are sampled as
one (`Weights.ofPlacements_singles`, `Sample.sample_singles`).  Columns have those of a sequence or of
a grid, which is a matter of the layout (`Weights.ofPlacements_columns`), and are sampled as the
dimensions of the weights tell (`Sample.sample_columns`).  All else is refused.  A container for the values of
columns is looked at when the values are known (`Sample.sample_many_out`).
-/
namespace Regrid

/-! ## Placements of one kind -/

namespace Placement

variable {α : Type}

/-- The brackets of an argument. -/
def indices : Placement α → List Int
  | one p => [p.idx]
  | many c => c.idx

/-- The positions of an argument. -/
def positions : Placement α → List (Position α)
  | one p => [p]
  | many c => c.toList

theorem indices_map_one (ps : List (Position α)) :
    (ps.map one).map indices = ps.map fun p => [p.idx] := List.map_map

theorem indices_map_many (cs : List (Column α)) :
    (cs.map many).map indices = cs.map Column.idx := List.map_map

theorem singles_map_one (ps : List (Position α)) : singles (ps.map one) = some ps := by
  induction ps with
  | nil => rfl
  | cons p ps ih => rw [List.map_cons, singles, ih, Option.map_some]

theorem columns_map_many (cs : List (Column α)) : columns (cs.map many) = some cs := by
  induction cs with
  | nil => rfl
  | cons c cs ih => rw [List.map_cons, columns, ih, Option.map_some]

theorem singles_map_many {cs : List (Column α)} (hne : cs ≠ []) : singles (cs.map many) = none := by
  obtain ⟨c, cs, rfl⟩ := List.exists_cons_of_ne_nil hne
  rfl

theorem columns_map_one {ps : List (Position α)} (hne : ps ≠ []) : columns (ps.map one) = none := by
  obtain ⟨p, ps, rfl⟩ := List.exists_cons_of_ne_nil hne
  rfl

theorem eq_map_one_of_singles {ps : List (Placement α)} {qs : List (Position α)}
    (h : singles ps = some qs) : ps = qs.map one := by
  induction ps generalizing qs with
  | nil =>
    cases h
    rfl
  | cons p ps ih =>
    cases p with
    | many c => cases h
    | one p =>
      obtain ⟨rs, hrs, rfl⟩ := Option.map_eq_some_iff.1 h
      rw [List.map_cons, ← ih hrs]

theorem eq_map_many_of_columns {ps : List (Placement α)} {cs : List (Column α)}
    (h : columns ps = some cs) : ps = cs.map many := by
  induction ps generalizing cs with
  | nil =>
    cases h
    rfl
  | cons p ps ih =>
    cases p with
    | one p => cases h
    | many c =>
      obtain ⟨ds, hds, rfl⟩ := Option.map_eq_some_iff.1 h
      rw [List.map_cons, ← ih hds]

/-- **The four kinds of arguments**: none, single positions, columns, and both. -/
@[elab_as_elim]
theorem kind_cases {motive : List (Placement α) → Prop} (ps : List (Placement α))
    (nil : motive [])
    (singles : ∀ qs : List (Position α), qs ≠ [] → motive (qs.map one))
    (columns : ∀ cs : List (Column α), cs ≠ [] → motive (cs.map many))
    (mixed : ∀ ps : List (Placement α), Placement.singles ps = none → Placement.columns ps = none →
      motive ps) :
    motive ps := by
  by_cases hne : ps = []
  · rwa [hne]
  · cases hs : Placement.singles ps with
    | some qs =>
      have hps := eq_map_one_of_singles hs
      rw [hps] at hne ⊢
      exact singles qs fun h => hne (by rw [h]; rfl)
    | none =>
      cases hc : Placement.columns ps with
      | some cs =>
        have hps := eq_map_many_of_columns hc
        rw [hps] at hne ⊢
        exact columns cs fun h => hne (by rw [h]; rfl)
      | none => exact mixed ps hs hc

end Placement

/-! ## The weights of each -/

namespace Weights

variable {α : Type} [Scalar α]

/-- **Single positions** have the weights of one point, whatever the mode. -/
theorem ofPlacements_singles {ps : List (Position α)} (hne : ps ≠ []) (mode : Option Mode)
    (out : Option (Container α)) : ofPlacements (ps.map .one) mode out = red ps out := by
  rw [ofPlacements, if_neg (by simpa using hne), Placement.singles_map_one]

/-- **Columns** have the weights of a grid in the green layout, and else those of a sequence. -/
theorem ofPlacements_columns {cs : List (Column α)} (hne : cs ≠ []) {mode : Option Mode}
    {out : Option (Container α)} {p : Protocol} (h : layout mode out cs.length = .ok p) :
    ofPlacements (cs.map .many) mode out = if p = .green then green cs out else blue cs out := by
  rw [ofPlacements, if_neg (by simpa using hne), Placement.singles_map_many hne,
    Placement.columns_map_many, List.length_map, h]
  cases p <;> rfl

end Weights

/-! ## The protocol of each -/

namespace Sample

variable {α : Type}

theorem protocolOf_many (w : NdArray α) {cs : List (Column α)} (hne : cs ≠ []) :
    Weights.protocolOf w (cs.map .many) =
      if w.rank = 2 then .ok .blue
      else if w.rank = cs.length + 1 then .ok .green
      else .error (.dimensionMismatch (.weightsRank w.rank cs.length)) := by
  rw [Weights.protocolOf, if_neg (by simpa using hne), Placement.singles_map_many hne,
    Placement.columns_map_many]
  simp only [List.length_map]

variable [Scalar α] {s : Sampler α} {w field : NdArray α} {out : Option (Container α)}
  {check : SumCheck α}

theorem sample_nil :
    sample s w field [] out check = .error (.dimensionMismatch .noPosition) := rfl

/-- **Single positions** are sampled as one point, without a container. -/
theorem sample_singles {qs : List (Position α)} (hne : qs ≠ []) :
    sample s w field (qs.map .one) out check =
      if out.isSome then .error (.dimensionMismatch .needlessContainer)
      else (red s w field qs check).map NdArray.scalar := by
  have hprotocol : Weights.protocolOf w (qs.map .one) = .ok .red := by
    rw [Weights.protocolOf, if_neg (by simpa using hne), Placement.singles_map_one]
  rw [sample, hprotocol, Placement.singles_map_one, Placement.columns_map_one hne]
  cases out with
  | none => rfl
  | some c => rfl

/-- **Columns** are sampled as a sequence if the weights have two dimensions, and as a grid if
they have one for each axis and one more. -/
theorem sample_columns {cs : List (Column α)} (hne : cs ≠ []) :
    sample s w field (cs.map .many) out check =
      if w.rank = 2 then blue s w field cs out check
      else if w.rank = cs.length + 1 then green s w field cs out check
      else .error (.dimensionMismatch (.weightsRank w.rank cs.length)) := by
  rw [sample, protocolOf_many w hne, Placement.columns_map_many]
  split
  · rfl
  · split <;> rfl

/-- Single positions and columns are not sampled together. -/
theorem sample_mixed {ps : List (Placement α)} (hs : Placement.singles ps = none)
    (hc : Placement.columns ps = none) :
    sample s w field ps out check = .error (.dimensionMismatch .mixedPositions) := by
  have hne : ¬ ps.isEmpty := by
    rintro h
    rw [List.isEmpty_iff.1 h] at hs
    cases hs
  rw [sample, Weights.protocolOf, if_neg hne, hs, hc]
  rfl

/-! ## The container comes last -/

theorem blue_out (s : Sampler α) (w field : NdArray α) (cs : List (Column α))
    (out : Option (Container α)) (check : SumCheck α) :
    blue s w field cs out check = blue s w field cs none check >>= deliver out := by
  unfold blue
  split
  · rfl
  · rw [bind_assoc]
    refine congrArg _ (funext fun _ => ?_)
    rw [bind_assoc]
    rfl

theorem green_out (s : Sampler α) (w field : NdArray α) (cs : List (Column α))
    (out : Option (Container α)) (check : SumCheck α) :
    green s w field cs out check = green s w field cs none check >>= deliver out := by
  unfold green
  split
  · rfl
  · rw [bind_assoc]
    refine congrArg _ (funext fun _ => ?_)
    rw [bind_assoc]
    refine congrArg _ (funext fun _ => ?_)
    rw [bind_assoc]
    rfl

/-- **The container comes last** when columns are sampled. -/
theorem sample_many_out (s : Sampler α) (w field : NdArray α) (cs : List (Column α))
    (out : Option (Container α)) (check : SumCheck α) :
    sample s w field (cs.map .many) out check =
      sample s w field (cs.map .many) none check >>= deliver out := by
  by_cases hne : cs = []
  · subst hne
    rfl
  · rw [sample_columns hne, sample_columns hne, blue_out, green_out]
    split
    · rfl
    · split <;> rfl

end Sample
end Regrid
