import Regrid.Proofs.Choices
import Regrid.Proofs.Exact
import Regrid.Proofs.Outcome

/-!
# Weights in the order of the corners

The weights of a cell are built axis by axis, and no corner number is looked at; the
sampler reads the field through the table of corner bits, and no weight is looked at.
That the two belong together is shown here, for weights in all three layouts.

The product of a corner is taken over the axes from the first to the last, and never
regrouped (`Weights.product`), so nothing is asked of the multiplication: the
statements hold of rounded numbers bit for bit.

The table is opened in two ways.  Behind the first axis follow the corners of the
later ones (`Corner.offsets_succ`), which is how sums over corners are taken apart;
behind the corners of the earlier axes follows the last bit (`Corner.offsets_concat`),
which is how the weights are built.

The rows of a sequence are those of the positions that stand side by side in the columns
(`Weights.blueRows_eq`), and the rows of a grid those of the mesh of the columns
(`Weights.greenRows_eq`).
-/
namespace Regrid

/-! ## The table of corner bits -/

namespace Corner

theorem count_eq (n : Nat) : count n = 2 ^ n := by
  induction n with
  | zero => rfl
  | succ n ih => rw [count_succ, ih, Nat.pow_succ, Nat.mul_comm]

theorem count_pos (n : Nat) : 0 < count n := by
  rw [count_eq]
  exact Nat.two_pow_pos n

/-- The first bit tells the halves of the enumeration apart; the others number the
corners of the later axes in each half. -/
theorem bits_succ (n half : Nat) (hhalf : half < 2) {corner : Nat} (hc : corner < count n) :
    bits (n + 1) (half * count n + corner) = half :: bits n corner := by
  have hfirst : bit (n + 1) (half * count n + corner) 0 = half := by
    have hdiv : (half * count n + corner) / count n = half := by
      rw [Nat.mul_comm, Nat.mul_add_div (count_pos n), Nat.div_eq_of_lt hc, Nat.add_zero]
    rw [bit, Nat.add_sub_cancel, Nat.sub_zero, hdiv, Nat.mod_eq_of_lt hhalf]
  have hlater : ∀ k ∈ List.range n,
      bit (n + 1) (half * count n + corner) (k + 1) = bit n corner k := by
    intro k hk
    have hk : k < n := List.mem_range.1 hk
    -- Below bit `k + 1` stand the bits of the axes behind it, and `2 ^ (k + 1)` such
    -- blocks make one half of the corners.
    have hblocks : half * count n = count (n - 1 - k) * (half * 2 ^ k * 2) := by
      rw [count_eq, count_eq, show 2 ^ n = 2 ^ (n - 1 - k) * (2 ^ k * 2) by
        rw [← Nat.pow_succ, ← Nat.pow_add]; congr 1; omega]
      ac_rfl
    rw [bit, bit, show n + 1 - 1 - (k + 1) = n - 1 - k by omega, hblocks,
      Nat.mul_add_div (count_pos _), Nat.add_comm, Nat.add_mul_mod_self_right]
  rw [bits, List.range_succ_eq_map, List.map_cons, hfirst, List.map_map]
  exact congrArg (half :: ·) (List.map_congr_left hlater)

/-- **Corners by their first bit.** -/
theorem offsets_succ (n : Nat) :
    offsets (n + 1) = (offsets n).map (0 :: ·) ++ (offsets n).map (1 :: ·) := by
  have hhalf : ∀ half < 2, (List.range (count n)).map (fun c => bits (n + 1) (half * count n + c)) =
      (offsets n).map (half :: ·) := by
    intro half hlt
    rw [offsets, List.map_map]
    exact List.map_congr_left fun c hc => bits_succ n half hlt (List.mem_range.1 hc)
  rw [offsets, count_succ, Nat.two_mul, List.range_add, List.map_append, List.map_map,
    ← hhalf 0 (by omega), ← hhalf 1 (by omega)]
  simp only [Nat.zero_mul, Nat.zero_add, Nat.one_mul]
  rfl

/-- **Corners by their last bit.** -/
theorem offsets_concat (n : Nat) :
    offsets (n + 1) = (offsets n).flatMap fun bits => [bits ++ [0], bits ++ [1]] := by
  induction n with
  | zero => rfl
  | succ n ih =>
    rw [offsets_succ (n + 1)]
    conv_lhs => rw [ih]
    rw [offsets_succ n, List.flatMap_append, List.flatMap_map, List.flatMap_map,
      List.map_flatMap, List.map_flatMap]
    rfl

/-- A corner is told by noughts and ones, one per axis. -/
theorem mem_offsets {n : Nat} {bits : List Nat} (h : bits ∈ offsets n) :
    bits.length = n ∧ ∀ b ∈ bits, b = 0 ∨ b = 1 := by
  induction n generalizing bits with
  | zero =>
    obtain rfl : bits = [] := by simpa [offsets, Corner.bits] using h
    simp
  | succ n ih =>
    rw [offsets_succ, List.mem_append, List.mem_map, List.mem_map] at h
    rcases h with ⟨later, hl, rfl⟩ | ⟨later, hl, rfl⟩
    · simpa using ih hl
    · simpa using ih hl

end Corner

/-! ## The weight of one corner -/

namespace Position

variable {α : Type}

/-- The weight of a grid point of a bracket: of the lower one for bit nought, of the
upper one otherwise. -/
def factor (p : Position α) (bit : Nat) : α := if bit = 0 then p.complement else p.fraction

@[simp] theorem factor_zero (p : Position α) : p.factor 0 = p.complement := rfl

@[simp] theorem factor_one (p : Position α) : p.factor 1 = p.fraction := rfl

end Position

namespace Weights

variable {α : Type} [Scalar α]

/-- **The product from left to right**; one for no factors. -/
def product : List α → α
  | [] => Scalar.one
  | x :: xs => xs.foldl (· * ·) x

theorem product_concat {xs : List α} (hne : xs ≠ []) (x : α) :
    product (xs ++ [x]) = product xs * x := by
  cases xs with
  | nil => exact absurd rfl hne
  | cons y ys => simp [product]

/-- The weight of a corner with the given bits. -/
def cornerWeight (ps : List (Position α)) (bits : List Nat) : α :=
  product (List.zipWith Position.factor ps bits)

/-- The weights of all corners, in the order of the table of corner bits. -/
def cornerRow (ps : List (Position α)) : List α :=
  (Corner.offsets ps.length).map (cornerWeight ps)

/-- One more axis multiplies the weight of a corner from the right. -/
theorem cornerWeight_concat {ps : List (Position α)} (hne : ps ≠ []) {bits : List Nat}
    (hlen : bits.length = ps.length) (q : Position α) (b : Nat) :
    cornerWeight (ps ++ [q]) (bits ++ [b]) = cornerWeight ps bits * q.factor b := by
  have hfactors : List.zipWith Position.factor ps bits ≠ [] := by
    cases ps with
    | nil => exact absurd rfl hne
    | cons p ps => cases bits <;> simp at hlen ⊢
  rw [cornerWeight, List.zipWith_append hlen.symm]
  exact product_concat hfactors _

/-- Spreading the weights of the corners of some axes over one more axis gives the
weights of the corners of all of them. -/
theorem spread_cornerRow {ps : List (Position α)} (hne : ps ≠ []) (q : Position α) :
    spread (cornerRow ps) q.factors = cornerRow (ps ++ [q]) := by
  rw [cornerRow, cornerRow, List.length_append, List.length_singleton, Corner.offsets_concat,
    spread, List.flatMap_map, List.map_flatMap]
  refine List.flatMap_congr fun bits hbits => ?_
  have hlen := (Corner.mem_offsets hbits).1
  rw [List.map_cons, List.map_cons, List.map_nil, cornerWeight_concat hne hlen,
    cornerWeight_concat hne hlen]
  rfl

theorem foldl_spread_cornerRow (qs : List (Position α)) {ps : List (Position α)} (hne : ps ≠ []) :
    qs.foldl (fun row q => spread row q.factors) (cornerRow ps) = cornerRow (ps ++ qs) := by
  induction qs generalizing ps with
  | nil => rw [List.append_nil]; rfl
  | cons q qs ih =>
    rw [List.foldl_cons, spread_cornerRow hne, ih (by simp), List.append_assoc]
    rfl

/-- The weights of a position are those of its corners, in their order. -/
theorem redRow_eq_cornerRow (p : Position α) (ps : List (Position α)) :
    redRow p ps = cornerRow (p :: ps) := by
  have hone : Corner.offsets 1 = [[0], [1]] := by decide
  have hpair : pair p.factors = cornerRow [p] := by rw [cornerRow, List.length_singleton, hone]; rfl
  rw [redRow, hpair, foldl_spread_cornerRow ps (List.cons_ne_nil _ _)]
  rfl

/-! ## The rows of several positions -/

omit [Scalar α] in
theorem exists_positions_at {cs : List (Column α)} {n i : Nat} (hi : i < n)
    (hlen : ∀ c ∈ cs, c.length = n) :
    ∃ ps, List.Forall₂ (fun (c : Column α) p => c.toList[i]? = some p) cs ps := by
  have htoList : ∀ xs ∈ cs.map Column.toList, xs.length = n :=
    List.forall_mem_map.2 fun c hc => c.length_toList.trans (hlen c hc)
  obtain ⟨ps, hps⟩ := Choices.exists_entriesAt hi htoList
  exact ⟨ps, List.forall₂_map_left_iff.1 hps⟩

/-- Row `i` of a sequence of positions holds the weights of its positions at `i`. -/
theorem getElem?_blueRows {c : Column α} {cs : List (Column α)} {i : Nat} {p : Position α}
    {ps : List (Position α)} (hp : c.toList[i]? = some p)
    (hps : List.Forall₂ (fun d q => (Column.toList d)[i]? = some q) cs ps) :
    (blueRows c cs)[i]? = some (redRow p ps) := by
  have step : ∀ {cs : List (Column α)} {ps : List (Position α)} {rows : List (List α)}
      {row : List α}, List.Forall₂ (fun d q => (Column.toList d)[i]? = some q) cs ps →
      rows[i]? = some row →
      (cs.foldl (fun rows d => List.zipWith spread rows d.factors) rows)[i]? =
        some (ps.foldl (fun row q => spread row q.factors) row) := by
    intro cs ps rows row hall hrow
    induction hall generalizing rows row with
    | nil => exact hrow
    | @cons d q cs ps hq _ ih =>
      refine ih ?_
      rw [List.getElem?_zipWith, hrow, Column.factors_eq_map, List.getElem?_map, hq]
      rfl
  refine step hps ?_
  rw [Column.factors_eq_map, List.map_map, List.getElem?_map, hp]
  rfl

/-- **Blue weights** are the weights of the positions that stand side by side. -/
theorem blueRows_eq (c : Column α) (cs : List (Column α)) (h : ∀ d ∈ cs, d.length = c.length) :
    blueRows c cs = (sideBySide ((c :: cs).map Column.toList)).map cornerRow := by
  refine List.ext_getElem? fun i => ?_
  have hne : (c :: cs).map Column.toList ≠ [] := List.cons_ne_nil _ _
  by_cases hi : i < c.length
  · have hlen : ∀ d ∈ c :: cs, d.length = c.length := List.forall_mem_cons.2 ⟨rfl, h⟩
    obtain ⟨ps, hps⟩ := exists_positions_at hi hlen
    have hside := (Sample.getElem?_sideBySide hne).2 (List.forall₂_map_left_iff.2 hps)
    obtain ⟨p, qs, hp, hqs, rfl⟩ := List.forall₂_cons_left_iff.1 hps
    rw [getElem?_blueRows hp hqs, List.getElem?_map, hside, redRow_eq_cornerRow]
    rfl
  · have hrows : (blueRows c cs)[i]? = none := by
      rw [List.getElem?_eq_none_iff, length_blueRows c cs h]
      omega
    -- Nothing stands side by side where one of the columns has ended.
    rw [hrows, List.getElem?_map, eq_comm, Option.map_eq_none_iff]
    by_contra hsome
    obtain ⟨ps, hps⟩ := Option.ne_none_iff_exists'.1 hsome
    have hall := (Sample.getElem?_sideBySide hne).1 hps
    obtain ⟨p, qs, hp, -, -⟩ := List.forall₂_cons_left_iff.1 hall
    have hlt := (List.getElem?_eq_some_iff.1 hp).1
    rw [Column.length_toList] at hlt
    omega

/-- Spreading the weights of the choices of some columns over one more column gives the
weights of the choices of all of them. -/
theorem flatMap_spread_mesh {cs : List (Column α)} (hne : cs ≠ []) (d : Column α) :
    ((Sample.mesh (cs.map Column.toList)).map cornerRow).flatMap
        (fun row => d.factors.map (spread row)) =
      (Sample.mesh ((cs ++ [d]).map Column.toList)).map cornerRow := by
  rw [List.map_append, List.map_singleton, Sample.mesh_concat, List.flatMap_map, List.map_flatMap]
  refine List.flatMap_congr fun ps hps => ?_
  have hps : ps ≠ [] := by
    rintro rfl
    exact hne (List.map_eq_nil_iff.1 (List.forall₂_nil_left_iff.1 (Sample.mem_mesh.1 hps)))
  rw [Column.factors_eq_map, List.map_map, List.map_map]
  exact List.map_congr_left fun q _ => spread_cornerRow hps q

theorem foldl_spread_mesh (ds : List (Column α)) {cs : List (Column α)} (hne : cs ≠ []) :
    ds.foldl (fun rows d => rows.flatMap fun row => d.factors.map (spread row))
        ((Sample.mesh (cs.map Column.toList)).map cornerRow) =
      (Sample.mesh ((cs ++ ds).map Column.toList)).map cornerRow := by
  induction ds generalizing cs with
  | nil => rw [List.append_nil]; rfl
  | cons d ds ih =>
    rw [List.foldl_cons, flatMap_spread_mesh hne, ih (by simp), List.append_assoc]
    rfl

/-- **Green weights** are the weights of the positions of the mesh. -/
theorem greenRows_eq (c : Column α) (cs : List (Column α)) :
    greenRows c cs = (Sample.mesh ((c :: cs).map Column.toList)).map cornerRow := by
  have hfirst : c.factors.map pair = (Sample.mesh ([c].map Column.toList)).map cornerRow := by
    rw [Column.factors_eq_map, List.map_map, List.map_singleton, Sample.mesh]
    simp only [Sample.mesh, List.map_singleton, List.map_flatMap]
    rw [← List.map_eq_flatMap]
    exact List.map_congr_left fun p _ => redRow_eq_cornerRow p []
  rw [greenRows, hfirst, foldl_spread_mesh cs (List.cons_ne_nil _ _)]
  rfl

/-- The row of a point of the new grid holds the weights of the positions that the
point is made of, and stands at the place of the point. -/
theorem getElem?_greenRows {c : Column α} {cs : List (Column α)} {ix : List Nat} {r : Nat}
    {ps : List (Position α)} (hr : NdArray.place? ((c :: cs).map Column.length) ix = some r)
    (hps : Sample.entries? ((c :: cs).map Column.toList) ix = some ps) :
    (greenRows c cs)[r]? = some (cornerRow ps) := by
  have hlengths : ((c :: cs).map Column.toList).map List.length = (c :: cs).map Column.length := by
    rw [List.map_map]
    exact List.map_congr_left fun d _ => d.length_toList
  rw [greenRows_eq, List.getElem?_map, Sample.getElem?_mesh (by rwa [hlengths]), hps]
  rfl

/-! ## The weights as arrays -/

omit [Scalar α] in
theorem firstUneven_eq_none {n : Nat} {cs : List (Column α)} (h : ∀ c ∈ cs, c.length = n) :
    firstUneven n cs = none := by
  rw [firstUneven, List.find?_eq_none]
  rintro ⟨length, axis⟩ hmem
  obtain ⟨c, hc, rfl⟩ := List.mem_map.1 (List.fst_mem_of_mem_zipIdx hmem)
  simp [h c hc]

theorem red_none (p : Position α) (ps : List (Position α)) :
    red (p :: ps) none = .ok (NdArray.vector (redRow p ps)) := rfl

/-- A sequence of positions has a row of weights for each. -/
theorem blue_none (c : Column α) (cs : List (Column α)) (h : ∀ d ∈ cs, d.length = c.length) :
    ∃ w, blue (c :: cs) none = .ok w ∧ w.shape = [c.length, Corner.count (cs.length + 1)] ∧
      w.rows = blueRows c cs ∧
      ∀ i corner, w.get? [i, corner] = (blueRows c cs)[i]?.bind (·[corner]?) := by
  have hrows := length_blueRows c cs h
  refine ⟨NdArray.ofRows [c.length] (Corner.count (cs.length + 1)) (blueRows c cs)
    (by simp [hrows]) (width_blueRows c cs), ?_, rfl, NdArray.rows_ofRows .., ?_⟩
  · simp only [blue]
    split
    · next hsome => rw [firstUneven_eq_none h] at hsome; cases hsome
    · rfl
  · intro i corner
    rw [show [i, corner] = [i] ++ [corner] from rfl, NdArray.get?_ofRows]
    by_cases hi : i < c.length
    · simp [NdArray.place?, hi]
    · simp [NdArray.place?, hi, hrows]

theorem blue_eq_error {c : Column α} {cs : List (Column α)} {entry : Nat × Nat}
    (h : firstUneven c.length cs = some entry) :
    blue (c :: cs) none =
      .error (.dimensionMismatch (.unequalLengths c.length (entry.2 + 1) entry.1)) := by
  simp only [blue]
  split
  · next length axis hsome =>
    rw [h] at hsome
    cases hsome
    rfl
  · next hnone =>
    rw [h] at hnone
    cases hnone

/-- There are no weights for columns of different lengths. -/
theorem exists_length_of_blue {cs : List (Column α)} {out : Option (Container α)} {w : NdArray α}
    (h : blue cs out = .ok w) : ∃ n, ∀ c ∈ cs, c.length = n := by
  cases cs with
  | nil => cases h
  | cons c cs =>
    simp only [blue] at h
    split at h
    · cases h
    · next hnone =>
      exact ⟨c.length, List.forall_mem_cons.2 ⟨rfl, length_eq_of_firstUneven hnone⟩⟩

/-- Only the lengths of columns decide whether they have weights, and what is told if they
have none. -/
theorem blue_failAlike {cs ds : List (Column α)}
    (h : cs.map Column.length = ds.map Column.length) :
    Outcome.FailAlike (blue cs none) (blue ds none) := by
  cases cs with
  | nil =>
    obtain rfl := List.map_eq_nil_iff.1 h.symm
    exact .refl _
  | cons c cs =>
    cases ds with
    | nil => cases h
    | cons d ds =>
      rw [List.map_cons, List.map_cons, List.cons.injEq] at h
      obtain ⟨hhead, hlater⟩ := h
      have hfirst : firstUneven c.length cs = firstUneven d.length ds := by
        rw [firstUneven, firstUneven, hlater, hhead]
      cases hfound : firstUneven c.length cs with
      | none =>
        obtain ⟨w, hw, -⟩ := blue_none c cs (length_eq_of_firstUneven hfound)
        obtain ⟨w', hw', -⟩ := blue_none d ds (length_eq_of_firstUneven (hfirst ▸ hfound))
        rw [hw, hw']
        exact .of_ok w w'
      | some entry =>
        rw [blue_eq_error hfound, blue_eq_error (hfirst ▸ hfound), hhead]
        exact .of_error _

/-- A grid of positions has a row of weights for each of its points. -/
theorem green_none (c : Column α) (cs : List (Column α)) :
    ∃ w, green (c :: cs) none = .ok w ∧
      w.shape = (c :: cs).map Column.length ++ [Corner.count (cs.length + 1)] ∧
      w.rows = greenRows c cs ∧
      ∀ ix corner, w.get? (ix ++ [corner]) =
        ((NdArray.place? ((c :: cs).map Column.length) ix).bind ((greenRows c cs)[·]?)).bind
          (·[corner]?) :=
  ⟨_, rfl, rfl, NdArray.rows_ofRows .., fun _ _ => NdArray.get?_ofRows ..⟩

/-! ### Rows for every choice of positions -/

/-- A sequence of positions has the weights of the positions side by side. -/
theorem exists_of_sequence {cs : List (Column α)} {n : Nat} (hne : cs ≠ [])
    (hlen : ∀ c ∈ cs, c.length = n) :
    ∃ w, blue cs none = .ok w ∧ w.shape = [n, Corner.count cs.length] ∧
      w.rows = (sideBySide (cs.map Column.toList)).map cornerRow := by
  obtain ⟨c, ds, rfl⟩ := List.exists_cons_of_ne_nil hne
  obtain ⟨rfl, hds⟩ := List.forall_mem_cons.1 hlen
  obtain ⟨w, hw, hshape, hrows, -⟩ := blue_none c ds hds
  exact ⟨w, hw, hshape, hrows.trans (blueRows_eq c ds hds)⟩

/-- A grid of positions has the weights of the positions of its mesh. -/
theorem exists_of_grid {cs : List (Column α)} (hne : cs ≠ []) :
    ∃ w, green cs none = .ok w ∧ w.shape = cs.map Column.length ++ [Corner.count cs.length] ∧
      w.rows = (Sample.mesh (cs.map Column.toList)).map cornerRow := by
  obtain ⟨c, ds, rfl⟩ := List.exists_cons_of_ne_nil hne
  obtain ⟨w, hw, hshape, hrows, -⟩ := green_none c ds
  exact ⟨w, hw, hshape, hrows.trans (greenRows_eq c ds)⟩

/-- Alone, a position has a weight for each corner: the product that the bits of the
corner tell. -/
theorem red_follows_bits {ps : List (Position α)} (hne : ps ≠ []) :
    Corner.table (α := α) ps.length = .ok (Corner.offsets ps.length) ∧
      ∃ w, red ps none = .ok w ∧ w.shape = [2 ^ ps.length] ∧
        ∀ corner < 2 ^ ps.length, ∃ bits, (Corner.offsets ps.length)[corner]? = some bits ∧
          bits.length = ps.length ∧ (∀ b ∈ bits, b = 0 ∨ b = 1) ∧
          w.get? [corner] = some (product (List.zipWith Position.factor ps bits)) := by
  obtain ⟨p, qs, rfl⟩ := List.exists_cons_of_ne_nil hne
  refine ⟨?_, NdArray.vector (redRow p qs), rfl, ?_, ?_⟩
  · rw [Corner.table, if_neg (by simp)]
    rfl
  · simp [NdArray.vector, Corner.count_eq, Nat.pow_succ']
  · intro corner hcorner
    have hlt : corner < (Corner.offsets (p :: qs).length).length := by
      rw [Corner.length_offsets, Corner.count_eq]
      exact hcorner
    have hmem := Corner.mem_offsets (List.getElem_mem hlt)
    refine ⟨_, List.getElem?_eq_getElem hlt, hmem.1, hmem.2, ?_⟩
    rw [NdArray.get?_vector, redRow_eq_cornerRow, cornerRow, List.getElem?_map,
      List.getElem?_eq_getElem hlt]
    rfl

/-- In a sequence, the row at a place is that of the positions there, alone. -/
theorem blue_follows_red {cs : List (Column α)} {n : Nat} (hne : cs ≠ [])
    (hlen : ∀ c ∈ cs, c.length = n) :
    ∃ w, blue cs none = .ok w ∧ w.shape = [n, 2 ^ cs.length] ∧
      ∀ i < n, ∃ ps r, List.Forall₂ (fun (c : Column α) p => c.toList[i]? = some p) cs ps ∧
        red ps none = .ok r ∧ ∀ corner, w.get? [i, corner] = r.get? [corner] := by
  obtain ⟨c, ds, rfl⟩ := List.exists_cons_of_ne_nil hne
  have hc : c.length = n := hlen c (List.mem_cons_self ..)
  obtain ⟨w, hw, hshape, -, hget⟩ := blue_none c ds fun d hd => by
    rw [hlen d (List.mem_cons_of_mem _ hd), hc]
  refine ⟨w, hw, by rw [hshape, hc, Corner.count_eq]; rfl, ?_⟩
  intro i hi
  obtain ⟨ps, hps⟩ := exists_positions_at hi hlen
  obtain ⟨p, qs, hp, hqs, rfl⟩ := List.forall₂_cons_left_iff.1 hps
  refine ⟨p :: qs, _, hps, red_none p qs, ?_⟩
  intro corner
  rw [hget, getElem?_blueRows hp hqs, NdArray.get?_vector]
  rfl

/-- On a grid, the row of a point is that of the positions it is made of, alone. -/
theorem green_follows_red {cs : List (Column α)} (hne : cs ≠ []) :
    ∃ w, green cs none = .ok w ∧ w.shape = cs.map Column.length ++ [2 ^ cs.length] ∧
      ∀ ix ps, Sample.entries? (cs.map Column.toList) ix = some ps →
        ∃ r, red ps none = .ok r ∧ ∀ corner, w.get? (ix ++ [corner]) = r.get? [corner] := by
  obtain ⟨c, ds, rfl⟩ := List.exists_cons_of_ne_nil hne
  obtain ⟨w, hw, hshape, -, hget⟩ := green_none c ds
  refine ⟨w, hw, by rw [hshape, Corner.count_eq]; rfl, ?_⟩
  intro ix ps hps
  have hinside : (NdArray.place? ((c :: ds).map Column.length) ix).isSome := by
    have h := (Sample.entries?_isSome_iff ((c :: ds).map Column.toList) ix).1 (by rw [hps]; rfl)
    simpa [Function.comp_def] using h
  obtain ⟨r, hr⟩ := Option.isSome_iff_exists.1 hinside
  obtain ⟨p, qs, rfl⟩ : ∃ p qs, ps = p :: qs := by
    cases ix with
    | nil => cases hps
    | cons i is =>
      obtain ⟨p, qs, -, -, rfl⟩ := Sample.entries?_cons_eq_some_iff.1 hps
      exact ⟨p, qs, rfl⟩
  refine ⟨_, red_none p qs, ?_⟩
  intro corner
  rw [hget, hr, Option.bind_some, getElem?_greenRows hr hps, NdArray.get?_vector,
    redRow_eq_cornerRow]
  rfl

/-- **Weights and field addresses share one enumeration of the corners.**

* The weights of a position are as many as the corners, and the weight of a corner is
  the product from the first axis to the last of one factor per axis: the complement
  where the table of corner bits has nought, the fraction where it has one.
* A row of weights of a sequence of positions is that of its positions at one place.
* A row of weights of a grid of positions is that of the positions its point is made
  of.

The products are equal as they stand, whatever the multiplication is. -/
theorem weights_follow_corner_bits :
    (∀ ps : List (Position α), ps ≠ [] →
      Corner.table (α := α) ps.length = .ok (Corner.offsets ps.length) ∧
      ∃ w, red ps none = .ok w ∧ w.shape = [2 ^ ps.length] ∧
        ∀ corner < 2 ^ ps.length, ∃ bits, (Corner.offsets ps.length)[corner]? = some bits ∧
          bits.length = ps.length ∧ (∀ b ∈ bits, b = 0 ∨ b = 1) ∧
          w.get? [corner] = some (product (List.zipWith Position.factor ps bits))) ∧
    (∀ (cs : List (Column α)) (n : Nat), cs ≠ [] → (∀ c ∈ cs, c.length = n) →
      ∃ w, blue cs none = .ok w ∧ w.shape = [n, 2 ^ cs.length] ∧
        ∀ i < n, ∃ ps r, List.Forall₂ (fun (c : Column α) p => c.toList[i]? = some p) cs ps ∧
          red ps none = .ok r ∧ ∀ corner, w.get? [i, corner] = r.get? [corner]) ∧
    (∀ cs : List (Column α), cs ≠ [] →
      ∃ w, green cs none = .ok w ∧ w.shape = cs.map Column.length ++ [2 ^ cs.length] ∧
        ∀ ix ps, Sample.entries? (cs.map Column.toList) ix = some ps →
          ∃ r, red ps none = .ok r ∧ ∀ corner, w.get? (ix ++ [corner]) = r.get? [corner]) := by
  refine ⟨?_, ?_, ?_⟩
  · intro ps hne
    exact red_follows_bits hne
  · intro cs n hne hlen
    exact blue_follows_red hne hlen
  · intro cs hne
    exact green_follows_red hne

/-- Two positions on two axes, alone, in a sequence and on a grid: corner two takes the
upper point of the first axis and the lower point of the second. -/
theorem weights_follow_corner_bits_two_axes :
    let p : Position ℚ := ⟨3, 1 / 4, 3 / 4⟩
    let q : Position ℚ := ⟨0, 5 / 4, -1 / 4⟩
    (∃ w, red [p, q] none = .ok w ∧ w.shape = [4] ∧
      w.get? [2] = some (p.fraction * q.complement)) ∧
    (∃ w ps r, blue [.ofPositions [q, p], .ofPositions [p, q]] none = .ok w ∧
      List.Forall₂ (fun (c : Column ℚ) p => c.toList[1]? = some p)
        [.ofPositions [q, p], .ofPositions [p, q]] ps ∧
      red ps none = .ok r ∧ w.get? [1, 2] = r.get? [2]) ∧
    ∃ w r, green [.ofPositions [p], .ofPositions [p, p, q]] none = .ok w ∧
      w.shape = [1, 3, 4] ∧ red [p, q] none = .ok r ∧ w.get? [0, 2, 2] = r.get? [2] := by
  intro p q
  obtain ⟨hred, hblue, hgreen⟩ := weights_follow_corner_bits (α := ℚ)
  refine ⟨?_, ?_, ?_⟩
  · obtain ⟨-, w, hw, hshape, hget⟩ := hred [p, q] (List.cons_ne_nil _ _)
    obtain ⟨bits, hbits, -, -, hweight⟩ := hget 2 (by decide)
    obtain rfl : [1, 0] = bits := Option.some.inj (hbits ▸ by decide)
    exact ⟨w, hw, hshape, hweight⟩
  · obtain ⟨w, hw, -, hrows⟩ := hblue [.ofPositions [q, p], .ofPositions [p, q]] 2
      (List.cons_ne_nil _ _) (by simp [Column.ofPositions, Column.length])
    obtain ⟨ps, r, hps, hr, hrow⟩ := hrows 1 (by decide)
    exact ⟨w, ps, r, hw, hps, hr, hrow 2⟩
  · obtain ⟨w, hw, hshape, hcells⟩ := hgreen [.ofPositions [p], .ofPositions [p, p, q]]
      (List.cons_ne_nil _ _)
    obtain ⟨r, hr, hcell⟩ := hcells [0, 2] [p, q] rfl
    exact ⟨w, r, hw, hshape, hr, hcell 2⟩

end Weights
end Regrid
