import Regrid.Proofs.Sample.Averages
import Regrid.Proofs.Sample.Reads

/-!
# Weights and the layout they are taken for

What the weights of a cell make together is known without adding them up: it is the product over the
axes of what the two distances make (`Cell.total`).  So the sums of the weights of all cells are known,
in each of the three layouts (`Weights.sums_red`, `Weights.sums_blue`, `Weights.sums_green`).

Weights for any positions are computed in one layout and, when they are used, taken for weights in some
layout, by their dimensions only.  This is the layout in which they were computed
(`Weights.exists_protocolOf`).  On a single axis the weights of a grid are taken for those of a sequence,
and are (`Weights.blue_eq_green`).

So weights that are stored exactly pass the spot check if the distances of each position make one, and
nothing is refused any more but shapes and indices (`Backend.weights_are_recognized`).
-/
namespace Regrid

/-! ## Sums -/

namespace Weights

/-- The sum of the weights of each row stands where the row does. -/
theorem get?_sums {α : Type} [Scalar α] (w : NdArray α) (ix : List Nat) :
    (sums w).get? ix = (NdArray.place? w.lead ix).bind fun r => w.rows[r]?.map Sum.pairwise := by
  rw [NdArray.get?_eq_toList, sums, NdArray.toList_reduce]
  simp only [List.getElem?_map]
  rfl

variable {K : Type} [Field K] [LinearOrder K] [FloorRing K] [Elementary K]

/-- The sum of the weights of a cell is what the distances make. -/
theorem pairwise_cornerRow (ps : List (Position K)) : Sum.pairwise (cornerRow ps) = Cell.total ps := by
  rw [Sum.pairwise_eq_sum, sum_cornerRow_eq_total]

/-- **The sum of the weights of a position.** -/
theorem sums_red {ps : List (Position K)} (hne : ps ≠ []) :
    ∃ w, red ps none = .ok w ∧ sums w = NdArray.scalar (Cell.total ps) := by
  obtain ⟨p, qs, rfl⟩ := List.exists_cons_of_ne_nil hne
  refine ⟨_, red_none p qs, NdArray.ext_toList rfl ?_⟩
  rw [sums, NdArray.toList_reduce, NdArray.rows_vector, redRow_eq_cornerRow, List.map_singleton,
    pairwise_cornerRow, NdArray.toList_scalar]

/-- **The sums of the weights of a sequence**, a sum for each of its positions. -/
theorem sums_blue {cs : List (Column K)} {n : Nat} (hne : cs ≠ []) (hlen : ∀ c ∈ cs, c.length = n) :
    ∃ w, blue cs none = .ok w ∧ (sums w).shape = [n] ∧
      ∀ i ps, List.Forall₂ (fun (c : Column K) p => c.toList[i]? = some p) cs ps →
        (sums w).get? [i] = some (Cell.total ps) := by
  obtain ⟨w, hw, hshape, hrows⟩ := exists_of_sequence hne hlen
  have hlead : w.lead = [n] := by rw [NdArray.lead, hshape]; rfl
  refine ⟨w, hw, hlead, fun i ps hps => ?_⟩
  have hi : i < n := by
    obtain ⟨c, ds, rfl⟩ := List.exists_cons_of_ne_nil hne
    obtain ⟨p, qs, hp, -, -⟩ := List.forall₂_cons_left_iff.1 hps
    have hlt := (List.getElem?_eq_some_iff.1 hp).1
    rwa [Column.length_toList, hlen c (List.mem_cons_self ..)] at hlt
  have hplace : NdArray.place? [n] [i] = some i := by simp [NdArray.place?, hi]
  have hside := (Sample.getElem?_sideBySide (by simpa using hne)).2 (List.forall₂_map_left_iff.2 hps)
  rw [get?_sums, hlead, hplace, Option.bind_some, hrows, List.getElem?_map, hside, Option.map_some,
    Option.map_some, pairwise_cornerRow]

/-- **The sums of the weights of a grid**, a sum for each of its points. -/
theorem sums_green {cs : List (Column K)} (hne : cs ≠ []) :
    ∃ w, green cs none = .ok w ∧ (sums w).shape = cs.map Column.length ∧
      ∀ ix ps, Sample.entries? (cs.map Column.toList) ix = some ps →
        (sums w).get? ix = some (Cell.total ps) := by
  obtain ⟨w, hw, hshape, hrows⟩ := exists_of_grid hne
  have hlead : w.lead = cs.map Column.length := by rw [NdArray.lead, hshape, List.dropLast_concat]
  refine ⟨w, hw, hlead, fun ix ps hps => ?_⟩
  have hlengths : (cs.map Column.toList).map List.length = cs.map Column.length := by
    rw [List.map_map]
    exact List.map_congr_left fun c _ => c.length_toList
  have hinside := (Sample.entries?_isSome_iff (cs.map Column.toList) ix).1 (by rw [hps]; rfl)
  obtain ⟨r, hr⟩ := Option.isSome_iff_exists.1 hinside
  rw [get?_sums, hlead, ← hlengths, hr, Option.bind_some, hrows, List.getElem?_map,
    Sample.getElem?_mesh hr, hps, Option.map_some, Option.map_some, pairwise_cornerRow]

end Weights

/-! ## Layouts -/

namespace Weights

variable {α : Type} [Scalar α]

/-- **Weights in a layout** for some positions, put into a container if there is one. -/
inductive LaidOut (out : Option (Container α)) (w : NdArray α) : List (Placement α) → Protocol → Prop
  | red {ps : List (Position α)} (hne : ps ≠ []) (h : Weights.red ps out = .ok w) :
      LaidOut out w (ps.map .one) .red
  | blue {cs : List (Column α)} (hne : cs ≠ []) (h : Weights.blue cs out = .ok w) :
      LaidOut out w (cs.map .many) .blue
  | green {cs : List (Column α)} (hne : cs ≠ []) (h : Weights.green cs out = .ok w) :
      LaidOut out w (cs.map .many) .green

/-- On a single axis a sequence and a grid have the same weights. -/
theorem blue_singleton (c : Column α) (out : Option (Container α)) :
    Weights.blue [c] out = Weights.green [c] out := by
  simp only [Weights.blue]
  split
  · next hsome => cases hsome
  · rfl

omit [Scalar α] in
/-- Columns are laid out as a sequence or as a grid. -/
theorem layout_eq_ok {mode : Option Mode} {out : Option (Container α)} {n : Nat} {p : Protocol}
    (h : layout mode out n = .ok p) : p = .blue ∨ p = .green := by
  unfold layout at h
  split at h
  · cases h
    exact .inl rfl
  · cases h
    exact .inr rfl
  · cases h
  · split at h
    · cases h
      exact .inl rfl
    · split at h
      · cases h
      · split at h
        · cases h
          exact .inl rfl
        · split at h
          · cases h
            exact .inr rfl
          · cases h

variable {mode : Option Mode} {out : Option (Container α)} {w : NdArray α} {ps : List (Placement α)}
  {p : Protocol}

/-- Weights for any positions are laid out: for columns in the layout that is asked for. -/
theorem exists_laidOut (h : ofPlacements ps mode out = .ok w) :
    ∃ p, LaidOut out w ps p ∧
      ∀ cs : List (Column α), ps = cs.map .many → layout mode out cs.length = .ok p := by
  induction ps using Placement.kind_cases with
  | nil => cases h
  | singles qs hne =>
    rw [ofPlacements_singles hne] at h
    refine ⟨.red, .red hne h, fun cs hcs => ?_⟩
    have hcolumns := congrArg Placement.columns hcs
    rw [Placement.columns_map_one hne, Placement.columns_map_many] at hcolumns
    cases hcolumns
  | columns cs hne =>
    cases hlayout : layout mode out cs.length with
    | error f =>
      rw [ofPlacements, if_neg (by simpa using hne), Placement.singles_map_many hne,
        Placement.columns_map_many, List.length_map, hlayout] at h
      cases h
    | ok p =>
      have hasked : ∀ ds : List (Column α), cs.map .many = ds.map Placement.many →
          layout mode out ds.length = .ok p := by
        intro ds hds
        have hlen := congrArg List.length hds
        rw [List.length_map, List.length_map] at hlen
        rw [← hlen, hlayout]
      rw [ofPlacements_columns hne hlayout] at h
      rcases layout_eq_ok hlayout with rfl | rfl
      · exact ⟨.blue, .blue hne h, hasked⟩
      · exact ⟨.green, .green hne h, hasked⟩
  | mixed ps hs hc =>
    have hne : ¬ ps.isEmpty := by
      rintro hempty
      rw [List.isEmpty_iff.1 hempty] at hs
      cases hs
    rw [ofPlacements, if_neg hne, hs, hc] at h
    cases h

/-- What is delivered has the shape of the result. -/
theorem shape_of_deliver {result : NdArray α} (h : deliver out result = .ok w) :
    w.shape = result.shape := by
  cases out with
  | none =>
    cases h
    rfl
  | some c =>
    obtain ⟨-, -, rfl⟩ := (Container.contentsAfter_eq_ok_iff ..).1 h
    rfl

/-- A sequence has a row of weights for each of its positions. -/
theorem shape_of_blue {cs : List (Column α)} (h : Weights.blue cs out = .ok w) {n : Nat}
    (hlen : ∀ c ∈ cs, c.length = n) : w.shape = [n, Corner.count cs.length] := by
  cases cs with
  | nil => cases h
  | cons c cs =>
    simp only [Weights.blue] at h
    split at h
    · cases h
    · rw [← hlen c (List.mem_cons_self ..)]
      exact shape_of_deliver h

theorem shape_of_green {cs : List (Column α)} (h : Weights.green cs out = .ok w) :
    w.shape = cs.map Column.length ++ [Corner.count cs.length] := by
  cases cs with
  | nil => cases h
  | cons c cs => exact shape_of_deliver h

/-- **Weights are taken for what they are**: for weights in the layout in which they were computed, but
on a single axis for those of a sequence, which they are as well. -/
theorem LaidOut.exists_protocolOf (h : LaidOut out w ps p) :
    ∃ q, protocolOf w ps = .ok q ∧ LaidOut out w ps q ∧
      (q = p ∨ ps.length = 1 ∧ p = .green ∧ q = .blue) := by
  cases h with
  | @red ps hne h =>
    refine ⟨.red, ?_, .red hne h, .inl rfl⟩
    rw [protocolOf, if_neg (by simpa using hne), Placement.singles_map_one]
  | @blue cs hne h =>
    obtain ⟨n, hlen⟩ := exists_length_of_blue h
    have hrank : w.rank = 2 := by
      rw [NdArray.rank, shape_of_blue h hlen]
      rfl
    exact ⟨.blue, by rw [Sample.protocolOf_many w hne, if_pos hrank], .blue hne h, .inl rfl⟩
  | @green cs hne h =>
    have hrank : w.rank = cs.length + 1 := by
      rw [NdArray.rank, shape_of_green h, List.length_append, List.length_map, List.length_singleton]
    by_cases hone : cs.length = 1
    · obtain ⟨c, rfl⟩ := List.length_eq_one_iff.1 hone
      refine ⟨.blue, ?_, .blue hne (by rw [blue_singleton, h]), .inr ⟨rfl, rfl, rfl⟩⟩
      rw [Sample.protocolOf_many w hne, if_pos (show w.rank = 2 from hrank)]
    · refine ⟨.green, ?_, .green hne h, .inl rfl⟩
      rw [Sample.protocolOf_many w hne, if_neg (by omega), if_pos hrank]

/-- Stored exactly are weights that are the same without the container. -/
def StoredExactly (out : Option (Container α)) (w : NdArray α) (ps : List (Placement α)) : Prop :=
  ∀ p, LaidOut out w ps p → LaidOut none w ps p

/-- A container for numbers in double precision stores all weights exactly. -/
theorem storedExactly_of_double (h : ∀ c ∈ out, c.element = .double) : StoredExactly out w ps := by
  have hdeliver : ∀ result, deliver out result = .ok w → deliver none result = .ok w := by
    intro result hresult
    cases out with
    | none => exact hresult
    | some c =>
      obtain ⟨-, -, rfl⟩ := (Container.contentsAfter_eq_ok_iff ..).1 hresult
      rw [h c rfl, Container.rounded_double]
      rfl
  intro p hp
  cases hp with
  | @red ps hne h =>
    obtain ⟨q, qs, rfl⟩ := List.exists_cons_of_ne_nil hne
    exact .red hne (hdeliver _ h)
  | @blue cs hne h =>
    obtain ⟨c, ds, rfl⟩ := List.exists_cons_of_ne_nil hne
    refine .blue hne ?_
    simp only [Weights.blue] at h ⊢
    split at h
    · cases h
    · exact hdeliver _ h
  | @green cs hne h =>
    obtain ⟨c, ds, rfl⟩ := List.exists_cons_of_ne_nil hne
    exact .green hne (hdeliver _ h)

end Weights

/-! ## The spot check -/

namespace Weights

variable {K : Type} [Field K] [LinearOrder K] [FloorRing K] [Elementary K]
variable {w : NdArray K} {ps : List (Placement K)} {p : Protocol}

/-- Rows of weights that were computed without a container are those of positions of the
arguments. -/
theorem LaidOut.exists_positions (h : LaidOut none w ps p) : ∀ row ∈ w.rows,
    ∃ qs : List (Position K), row = cornerRow qs ∧ ∀ q ∈ qs, ∃ a ∈ ps, q ∈ a.positions := by
  have hchoice : ∀ (cs : List (Column K)) (qs : List (Position K)),
      List.Forall₂ (· ∈ ·) qs (cs.map Column.toList) →
      ∀ q ∈ qs, ∃ a ∈ cs.map Placement.many, q ∈ a.positions := by
    intro cs qs hqs
    refine Choices.forall_mem_of_mem hqs (List.forall_mem_map.2 fun c hc q hq => ?_)
    exact ⟨.many c, List.mem_map_of_mem hc, hq⟩
  cases h with
  | @red ps hne h =>
    obtain ⟨q, qs, rfl⟩ := List.exists_cons_of_ne_nil hne
    rw [red_none, Except.ok.injEq] at h
    subst h
    rw [NdArray.rows_vector, redRow_eq_cornerRow]
    intro row hrow
    refine ⟨q :: qs, List.mem_singleton.1 hrow, fun r hr => ?_⟩
    exact ⟨.one r, List.mem_map_of_mem hr, List.mem_singleton_self r⟩
  | @blue cs hne h =>
    obtain ⟨n, hlen⟩ := exists_length_of_blue h
    obtain ⟨w', hw', -, hrows⟩ := exists_of_sequence hne hlen
    rw [h, Except.ok.injEq] at hw'
    rw [hw', hrows]
    refine List.forall_mem_map.2 fun qs hqs => ⟨qs, rfl, hchoice cs qs ?_⟩
    exact mem_sideBySide (by simpa using hne) hqs
  | @green cs hne h =>
    obtain ⟨w', hw', -, hrows⟩ := exists_of_grid hne
    rw [h, Except.ok.injEq] at hw'
    rw [hw', hrows]
    exact List.forall_mem_map.2 fun qs hqs => ⟨qs, rfl, hchoice cs qs (Sample.mem_mesh.1 hqs)⟩

/-- Distances that make one give weights that pass the spot check. -/
theorem LaidOut.run_eq_ok (h : LaidOut none w ps p)
    (hone : ∀ a ∈ ps, ∀ q ∈ a.positions, q.complement = 1 - q.fraction) {check : SumCheck K}
    (htolerance : 0 < check.tolerance) : check.run w.rows = .ok () := by
  refine SumCheck.run_eq_ok htolerance fun row hrow => ?_
  obtain ⟨qs, rfl, hqs⟩ := h.exists_positions row hrow
  refine sum_cornerRow fun q hq => ?_
  obtain ⟨a, ha, hqa⟩ := hqs q hq
  rw [hone a ha q hqa, sub_add_cancel]

end Weights

/-- Weights in a layout have a shape that weights may have. -/
theorem Weights.LaidOut.weightsFit {α : Type} [Scalar α] {out : Option (Container α)} {w : NdArray α}
    {ps : List (Placement α)} {p : Protocol} (h : LaidOut out w ps p) : Sample.WeightsFit w ps := by
  cases h with
  | @red ps hne h =>
    obtain ⟨q, qs, rfl⟩ := List.exists_cons_of_ne_nil hne
    refine (Sample.weightsFit_singles hne).2 ?_
    rw [shape_of_deliver h, NdArray.shape_vector, length_redRow]
    rfl
  | @blue cs hne h =>
    obtain ⟨n, hlen⟩ := exists_length_of_blue h
    exact .inr ⟨cs, rfl, .inl ⟨n, hlen, by rw [shape_of_blue h hlen, Corner.count_eq]⟩⟩
  | @green cs hne h =>
    refine .inr ⟨cs, rfl, .inr ?_⟩
    rw [shape_of_green h, Corner.count_eq]

namespace Backend

variable {K : Type} [Field K] [LinearOrder K] [IsStrictOrderedRing K] [FloorRing K] [Elementary K]

/-- **Weights are recognized.**

* The sums of the weights of a position, of each position of a sequence and of each point of a grid are
  what the two distances make, multiplied over the axes: one, if they make one on every axis.
* Weights for any positions, computed in any mode and with any container, are computed in one layout,
  which for columns is the one that is asked for, and when they are used they are taken for weights in
  this layout; on a single axis those of a grid are taken for those of a sequence, and they are.
* If a container has stored them exactly and the distances of each position make one, no backend and no
  field refuses them at the spot check.  Sampling with them is refused for shapes, or else for a single
  position whose index is no machine word, and without a container it succeeds exactly if the brackets
  fit the field. -/
theorem weights_are_recognized :
    (∀ ps : List (Position K), ps ≠ [] →
      ∃ w, Weights.red ps none = .ok w ∧ Weights.sums w = NdArray.scalar (Cell.total ps)) ∧
    (∀ (cs : List (Column K)) (n : Nat), cs ≠ [] → (∀ c ∈ cs, c.length = n) →
      ∃ w, Weights.blue cs none = .ok w ∧ (Weights.sums w).shape = [n] ∧
        ∀ i ps, List.Forall₂ (fun (c : Column K) p => c.toList[i]? = some p) cs ps →
          (Weights.sums w).get? [i] = some (Cell.total ps)) ∧
    (∀ cs : List (Column K), cs ≠ [] →
      ∃ w, Weights.green cs none = .ok w ∧ (Weights.sums w).shape = cs.map Column.length ∧
        ∀ ix ps, Sample.entries? (cs.map Column.toList) ix = some ps →
          (Weights.sums w).get? ix = some (Cell.total ps)) ∧
    (∀ ps : List (Position K), (∀ p ∈ ps, p.complement = 1 - p.fraction) → Cell.total ps = 1) ∧
    (∀ (ps : List (Placement K)) mode out w, Weights.ofPlacements ps mode out = .ok w →
      (∃ p q, Weights.LaidOut out w ps p ∧
        (∀ cs : List (Column K), ps = cs.map .many → Weights.layout mode out cs.length = .ok p) ∧
        Weights.protocolOf w ps = .ok q ∧ Weights.LaidOut out w ps q ∧
        (q = p ∨ ps.length = 1 ∧ p = .green ∧ q = .blue)) ∧
      (Weights.StoredExactly out w ps →
        (∀ a ∈ ps, ∀ q ∈ a.positions, q.complement = 1 - q.fraction) →
        ∀ (b : Backend) (field : NdArray K) (check : SumCheck K), 0 < check.tolerance →
          (∀ values f, b.sample w field ps values check = .error f →
            f.kind = .dimensionMismatch ∨
              f.kind = .overflow ∧ Sample.BeyondWords w field ps values) ∧
          ((∃ a, b.sample w field ps none check = .ok a) ↔
            List.Forall₂ (fun (n : Nat) a => ∀ i ∈ Placement.indices a, 0 ≤ i ∧ i + 1 < (n : Int))
              field.shape ps))) ∧
    0 < (SumCheck.defaultTolerance : K) := by
  refine ⟨fun ps hne => Weights.sums_red hne, fun cs n hne hlen => Weights.sums_blue hne hlen,
    fun cs hne => Weights.sums_green hne, ?_, ?_, ?_⟩
  · intro ps hone
    exact Cell.total_eq_one fun p hp => by rw [hone p hp, sub_add_cancel]
  · intro ps mode out w hw
    obtain ⟨p, hlaid, hasked⟩ := Weights.exists_laidOut hw
    obtain ⟨q, hprotocol, hlaid', hsame⟩ := hlaid.exists_protocolOf
    refine ⟨⟨p, q, hlaid, hasked, hprotocol, hlaid', hsame⟩, ?_⟩
    intro hstored hone b field check htolerance
    have hread : ∀ ix, NdArray.Inside field.shape ix → b.sampler.read field ix = field.read ix :=
      fun ix hix => b.read_of_inside field hix
    have hrun : check.run w.rows = .ok () := (hstored p hlaid).run_eq_ok hone htolerance
    constructor
    · intro values f hf
      have hpass : Outcome.FailsWithin [.dimensionMismatch, .overflow] (check.run w.rows) := by
        rw [hrun]
        exact .of_ok ()
      have hkind := Sample.sample_failsWithin_of_run (List.mem_cons_self ..) hpass hread ps values
        (fun _ => by decide) f hf
      rcases List.mem_pair.1 hkind with hshapes | hindex
      · exact .inl hshapes
      · exact .inr ⟨hindex, (Sample.sample_overflow_iff hread ps values).1 ⟨f, hf, hindex⟩⟩
    · refine (Sample.exists_sample_iff hread hrun ps).trans ⟨fun h => h.brackets, fun h => ⟨?_, ?_, h⟩⟩
      · rintro rfl
        cases hw
      · exact hlaid.weightsFit
  · norm_num [SumCheck.defaultTolerance, Scalar.reciprocal]

/-- Positions on two axes whose weights are put into a container of the rank of a grid, one of the
positions being beyond its bracket. -/
theorem weights_are_recognized_two_axes :
    let c : Column ℚ := .ofPositions [⟨0, 1 / 4, 3 / 4⟩, ⟨1, 5 / 4, -1 / 4⟩]
    let d : Column ℚ := .ofPositions [⟨0, 1 / 2, 1 / 2⟩]
    let ps : List (Placement ℚ) := [.many c, .many d]
    ∃ w, Weights.ofPlacements ps (some .auto) (some (.zeros .double [2, 1, 4])) = .ok w ∧
      Weights.protocolOf w ps = .ok .green ∧
      ∃ a, fused.sample w ⟨[3, 2], #[1, 2, 3, 5, 8, 13], rfl⟩ ps none
        ⟨true, SumCheck.defaultTolerance⟩ = .ok a := by
  intro c d ps
  obtain ⟨-, -, -, -, hcalls, hdefault⟩ := weights_are_recognized (K := ℚ)
  obtain ⟨w, hw⟩ : ∃ w, Weights.ofPlacements ps (some .auto) (some (.zeros .double [2, 1, 4])) = .ok w :=
    Outcome.exists_of_isOk (by decide +kernel)
  obtain ⟨⟨p, q, -, hasked, hprotocol, -, hsame⟩, hsampled⟩ := hcalls ps _ _ w hw
  have hgreen : p = .green := Except.ok.inj (hasked [c, d] rfl).symm
  have hq : q = .green := hsame.elim (·.trans hgreen) fun h => absurd h.1 (by decide)
  have hone : ∀ a ∈ ps, ∀ q ∈ a.positions, q.complement = 1 - q.fraction := by decide +kernel
  have hstored : Weights.StoredExactly (some (.zeros .double [2, 1, 4])) w ps :=
    Weights.storedExactly_of_double fun c hc => by
      cases hc
      rfl
  obtain ⟨-, hsucceeds⟩ := hsampled hstored hone fused ⟨[3, 2], #[1, 2, 3, 5, 8, 13], rfl⟩
    ⟨true, SumCheck.defaultTolerance⟩ hdefault
  refine ⟨w, hw, by rw [hprotocol, hq], hsucceeds.2 ?_⟩
  exact .cons (by decide) (.cons (by decide) .nil)

end Backend
end Regrid
