import Regrid.Proofs.Locate.History

/-!
# Positions as numbers

Index and fraction of a position together make one number, `Position.fractional`.  Of positions that
fit their queries this number keeps the order: it is smaller exactly where the query comes first in
the direction of the grid, and equal exactly where the queries are (`Grid.Fits.fractional_lt_iff`,
`Grid.Fits.fractional_eq_iff`).  The two positions of a tie make the same number, so it does not
matter which of them a query was given; and beyond the ends of the grid the first and the last bracket
go on.  A grid point has its own index as number (`Grid.Fits.fractional_point`).

The bracket alone keeps the order as far as queries differ (`Grid.Fits.idx_le_of_not_before`).  Equal
queries may be in different brackets, but not if they follow one another, since a scan does not leave
a bracket that holds the query (`Locate.NearestPath.isChain`).  So the brackets of sorted queries are
sorted (`Locate.NearestPath.pairwise_moved`).
-/
namespace Regrid

variable {K : Type} [Field K] [LinearOrder K] [IsStrictOrderedRing K] [FloorRing K] [Elementary K]
variable {d : Direction} {grid : List K}

/-! ## Two queries -/

namespace Grid.Fits

variable {x y : K} {p q : Position K}

omit [FloorRing K] [Elementary K] in
/-- In a bracket further on the query does not come first. -/
theorem not_before_of_idx_lt (hord : Ordered d grid) (hp : Fits grid x p) (hq : Fits grid y q)
    (h : p.idx < q.idx) : ¬ d.Before y x := by
  have hnonneg := hp.nonneg
  have hlast := hq.last
  have hupper : ¬ d.Before (point grid (p.idx + 1)) x := by
    rw [hp.upper_before_iff hord, not_lt]
    exact hp.back.resolve_left (by omega)
  have hlower : ¬ d.Before y (point grid q.idx) := by
    rw [hq.before_lower_iff hord, not_lt]
    exact hq.front.resolve_left (by omega)
  have hpoints : ¬ d.Before (point grid q.idx) (point grid (p.idx + 1)) :=
    hord.not_before (by omega) (by omega) (by omega)
  -- From the one to the other: the query, the upper point, the lower point, the query.
  intro hyx
  exact hupper (Direction.Before.not_trans hpoints (Direction.Before.not_trans hlower hyx))

omit [FloorRing K] [Elementary K] in
/-- **The brackets keep the order** of queries that differ. -/
theorem idx_le_of_not_before (hord : Ordered d grid) (hp : Fits grid x p) (hq : Fits grid y q)
    (hne : x ≠ y) (h : ¬ d.Before y x) : p.idx ≤ q.idx := by
  by_contra hlt
  have hnot : ¬ d.Before x y := hq.not_before_of_idx_lt hord hp (not_le.1 hlt)
  exact hne (Direction.eq_of_not_before hnot h)

omit [IsStrictOrderedRing K] [FloorRing K] [Elementary K] in
/-- The fractions are on either side of the points between the two brackets. -/
theorem fraction_of_idx_lt (hp : Fits grid x p) (hq : Fits grid y q) (h : p.idx < q.idx) :
    p.fraction ≤ 1 ∧ 0 ≤ q.fraction := by
  have hnonneg := hp.nonneg
  have hlast := hq.last
  exact ⟨hp.back.resolve_left (by omega), hq.front.resolve_left (by omega)⟩

/-- In a bracket further on the number is not smaller. -/
theorem fractional_le_of_idx_lt (hp : Fits grid x p) (hq : Fits grid y q) (h : p.idx < q.idx) :
    p.fractional ≤ q.fractional := by
  obtain ⟨hle, hnonneg⟩ := hp.fraction_of_idx_lt hq h
  have hidx : (p.idx : K) + 1 ≤ q.idx := by exact_mod_cast h
  simp only [Position.fractional, Exact.ofInt_eq]
  linarith

/-- A position in a bracket further on has the same number only if it is at the lower point of the
next bracket, and the other one at the upper point of its own. -/
theorem tie_of_fractional_eq (hp : Fits grid x p) (hq : Fits grid y q) (h : p.idx < q.idx)
    (heq : p.fractional = q.fractional) :
    q.idx = p.idx + 1 ∧ p.fraction = 1 ∧ q.fraction = 0 := by
  obtain ⟨hle, hnonneg⟩ := hp.fraction_of_idx_lt hq h
  simp only [Position.fractional, Exact.ofInt_eq] at heq
  have hidx : (p.idx : K) + 1 ≤ q.idx := by exact_mod_cast h
  have hnext : (q.idx : K) = p.idx + 1 := by linarith
  exact ⟨by exact_mod_cast hnext, by linarith, by linarith⟩

omit [IsStrictOrderedRing K] [FloorRing K] [Elementary K] in
/-- A position belongs to one query. -/
theorem query_eq (hp : Fits grid x p) (hq : Fits grid y q) (hidx : p.idx = q.idx)
    (hfraction : p.fraction = q.fraction) : x = y := by
  rw [← hp.reproduces, ← hq.reproduces, hidx, hfraction]

omit [IsStrictOrderedRing K] [FloorRing K] [Elementary K] in
/-- The two positions of a tie belong to one query. -/
theorem query_eq_of_tie (hp : Fits grid x p) (hq : Fits grid y q) (hidx : q.idx = p.idx + 1)
    (h1 : p.fraction = 1) (h0 : q.fraction = 0) : x = y := by
  rw [← hp.reproduces, ← hq.reproduces, hidx, h1, h0, one_mul, add_sub_cancel, zero_mul, add_zero]

/-- **Equal numbers belong to equal queries**, and to no others. -/
theorem fractional_eq_iff (hord : Ordered d grid) (hp : Fits grid x p) (hq : Fits grid y q) :
    p.fractional = q.fractional ↔ x = y := by
  constructor
  · intro heq
    rcases lt_trichotomy p.idx q.idx with hlt | hidx | hgt
    · obtain ⟨hnext, h1, h0⟩ := hp.tie_of_fractional_eq hq hlt heq
      exact hp.query_eq_of_tie hq hnext h1 h0
    · refine hp.query_eq hq hidx ?_
      simpa only [Position.fractional, hidx, add_right_inj] using heq
    · obtain ⟨hnext, h1, h0⟩ := hq.tie_of_fractional_eq hp hgt heq.symm
      exact (hq.query_eq_of_tie hp hnext h1 h0).symm
  · rintro rfl
    exact hp.fractional_eq hord hq

/-- In one bracket the numbers are in the order of the queries. -/
theorem fractional_lt_iff_of_idx_eq (hord : Ordered d grid) (hp : Fits grid x p) (hq : Fits grid y q)
    (hidx : p.idx = q.idx) : p.fractional < q.fractional ↔ d.Before x y := by
  have horder := Direction.before_at_iff (hq.bracket_before hord) p.fraction y
  rw [← hq.fraction_eq hord, ← hidx, hp.reproduces] at horder
  rw [horder, Position.fractional, Position.fractional, hidx, add_lt_add_iff_left]

/-- **The number keeps the order of the queries**, across all brackets. -/
theorem fractional_lt_iff (hord : Ordered d grid) (hp : Fits grid x p) (hq : Fits grid y q) :
    p.fractional < q.fractional ↔ d.Before x y := by
  have heq := hp.fractional_eq_iff hord hq
  rcases lt_trichotomy p.idx q.idx with hlt | hidx | hgt
  · -- Neither the numbers nor the queries are in the opposite order; equal are both or neither.
    have hle := hp.fractional_le_of_idx_lt hq hlt
    have hnot := hp.not_before_of_idx_lt hord hq hlt
    constructor
    · intro h
      by_contra hxy
      exact h.ne (heq.2 (Direction.eq_of_not_before hxy hnot))
    · intro h
      exact lt_of_le_of_ne hle fun he => h.ne (heq.1 he)
  · exact hp.fractional_lt_iff_of_idx_eq hord hq hidx
  · have hle := hq.fractional_le_of_idx_lt hp hgt
    have hnot := hq.not_before_of_idx_lt hord hp hgt
    exact ⟨fun h => absurd h (not_lt.2 hle), fun h => absurd h hnot⟩

/-- **A grid point has its index as number.** -/
theorem fractional_point (hord : Ordered d grid) {k : Nat} (hk : k < grid.length)
    (h : Fits grid (point grid k) p) : p.fractional = k := by
  rw [h.fractional_eq_lerp, h.lerp_point hord hk, Int.cast_natCast]

/-- The index of a grid point is the number of this point, and of nothing else. -/
theorem fractional_eq_natCast_iff (hord : Ordered d grid) (hp : Fits grid x p) {k : Nat}
    (hk : k < grid.length) : p.fractional = k ↔ x = point grid k := by
  have hnonneg := hp.nonneg
  have hlast := hp.last
  obtain ⟨q, hq⟩ := hord.exists_fits (by omega) (point grid k)
  rw [← hq.fractional_point hord hk]
  exact hp.fractional_eq_iff hord hq

end Grid.Fits

/-! ## Queries that follow one another -/

namespace Locate

variable {i : Int} {new : List K} {found : List (Int × K)}

/-- **What holds from each query to the next** holds of what is found for them, if it may be concluded
from queries that differ: a query that is repeated keeps its bracket. -/
theorem NearestPath.isChain (hord : Grid.Ordered d grid) {C : K → K → Prop}
    {R : Int × K → Int × K → Prop} (hsame : ∀ f, R f f)
    (hdiffer : ∀ x y f g, Grid.Fits grid x (Position.ofFraction f.1 f.2) →
      Grid.Fits grid y (Position.ofFraction g.1 g.2) → x ≠ y → C x y → R f g)
    (h : NearestPath d grid i new found) (hnew : new.IsChain C) : found.IsChain R := by
  induction h with
  | done => exact .nil
  | @step i j x xs found nearest rest ih =>
    have htail := ih hnew.tail
    cases rest with
    | done => exact .singleton _
    | @step _ j' y ys found nearest' rest' =>
      refine .cons_cons ?_ htail
      rw [List.isChain_cons_cons] at hnew
      by_cases hxy : x = y
      · subst hxy
        obtain rfl := nearest'.eq_of_holds nearest.holds
        exact hsame _
      · exact hdiffer x y _ _ (nearest.holds.fits hord) (nearest'.holds.fits hord) hxy hnew.1

/-- **What holds of the brackets of any two queries that differ** and are in a certain order holds
along queries that are in this order, ties broken. -/
theorem NearestPath.pairwise_moved (hord : Grid.Ordered d grid) (t : TieBreak) {C : K → K → Prop}
    {R : Int → Int → Prop} [Std.Refl R] [IsTrans Int R]
    (hdiffer : ∀ x y p q, Grid.Fits grid x p → Grid.Fits grid y q → x ≠ y → C x y → R p.idx q.idx)
    (h : NearestPath d grid i new found) (hnew : new.Pairwise C) :
    (found.map (t.move grid.length)).Pairwise fun f g => R f.1 g.1 := by
  rw [List.pairwise_map]
  have htrans : IsTrans (Int × K) fun f g => R (t.move grid.length f).1 (t.move grid.length g).1 :=
    ⟨fun _ _ _ => IsTrans.trans _ _ _⟩
  refine List.isChain_iff_pairwise.1 (h.isChain hord (fun f => Std.Refl.refl _) ?_ hnew.isChain)
  intro x y f g hf hg
  exact hdiffer x y _ _ (fits_move t hf) (fits_move t hg)

end Locate

/-! ## Located queries -/

/-- **The positions of some queries keep their order**, in a grid that follows a direction. -/
structure Column.KeepsOrder (d : Direction) (old new : List K) (c : Column K) : Prop where
  length : c.fractional.length = new.length
  /-- The smaller number belongs to the query that comes first. -/
  lt_iff : ∀ (i j : Nat) (x y f g : K), new[i]? = some x → new[j]? = some y →
    c.fractional[i]? = some f → c.fractional[j]? = some g → (f < g ↔ d.Before x y)
  /-- Equal numbers belong to equal queries. -/
  eq_iff : ∀ (i j : Nat) (x y f g : K), new[i]? = some x → new[j]? = some y →
    c.fractional[i]? = some f → c.fractional[j]? = some g → (f = g ↔ x = y)
  /-- The index of a grid point is the number of this point. -/
  point_iff : ∀ (i k : Nat) (x f a : K), new[i]? = some x → c.fractional[i]? = some f →
    old[k]? = some a → (f = k ↔ x = a)
  /-- Queries that do not go back in the grid have brackets that do not. -/
  along : (new.Pairwise fun x y => ¬ d.Before y x) → c.idx.Pairwise (· ≤ ·)
  /-- Queries that do not go on in the grid have brackets that do not. -/
  against : (new.Pairwise fun x y => ¬ d.Before x y) → c.idx.Pairwise (· ≥ ·)

namespace Backend

variable {old : List K} {extpolfac : K}

/-- **The location is an order isomorphism.**  In an ordered grid of two points or more the queries
within the envelope, and only those, are located.  Index and fraction of a position make a number that
is smaller exactly where the query comes first in the direction of the grid, equal exactly where the
queries are equal, and the index of a grid point exactly where the query is this point, whatever the
brackets, the tie-break, the backend and the order of the queries.  If the queries are sorted along
the grid or against it, so are the brackets. -/
theorem locate_keeps_order (b : Backend) (hord : Grid.Ordered d old) (hlen : 2 ≤ old.length)
    (he : 0 ≤ extpolfac) (t : TieBreak) (new : List K) :
    ((∃ c, b.locate (NdArray.vector old) (NdArray.vector new) extpolfac (some t) = .ok c) ↔
      ∀ x ∈ new, Grid.InEnvelope d old extpolfac x) ∧
    ∀ c, b.locate (NdArray.vector old) (NdArray.vector new) extpolfac (some t) = .ok c →
      c.KeepsOrder d old new := by
  constructor
  · constructor
    · rintro ⟨c, hc⟩
      exact (b.fits_of_locate_eq_ok hord hlen he hc).1
    · intro hnew
      obtain ⟨c, hc, -⟩ := b.exists_locate_eq_ok hord hlen he t hnew
      exact ⟨c, hc⟩
  · intro c hc
    obtain ⟨hnew, hfits⟩ := b.fits_of_locate_eq_ok hord hlen he hc
    obtain ⟨found, hfound, hpath⟩ := b.exists_found hord hlen he t hnew
    rw [hc, Except.ok.injEq] at hfound
    have hidx : c.idx = (found.map (t.move old.length)).map Prod.fst := by
      rw [hfound, Column.ofFound]
    have hfit : ∀ (i : Nat) (x f : K), new[i]? = some x → c.fractional[i]? = some f →
        ∃ p, Grid.Fits old x p ∧ p.fractional = f := by
      intro i x f hx hf
      obtain ⟨p, hp, hxp⟩ := Choices.exists_getElem? hfits hx
      rw [Column.fractional_eq_map, List.getElem?_map, hp, Option.map_some, Option.some.injEq] at hf
      exact ⟨p, hxp, hf⟩
    refine ⟨?_, ?_, ?_, ?_, ?_, ?_⟩
    · rw [Column.fractional_eq_map, List.length_map, hfits.length_eq]
    · intro i j x y f g hx hy hf hg
      obtain ⟨p, hp, rfl⟩ := hfit i x f hx hf
      obtain ⟨q, hq, rfl⟩ := hfit j y g hy hg
      exact hp.fractional_lt_iff hord hq
    · intro i j x y f g hx hy hf hg
      obtain ⟨p, hp, rfl⟩ := hfit i x f hx hf
      obtain ⟨q, hq, rfl⟩ := hfit j y g hy hg
      exact hp.fractional_eq_iff hord hq
    · intro i k x f a hx hf ha
      obtain ⟨p, hp, rfl⟩ := hfit i x f hx hf
      have hk : k < old.length := (List.getElem?_eq_some_iff.1 ha).1
      rw [Grid.getElem?_eq_point hk, Option.some.injEq] at ha
      rw [← ha]
      exact hp.fractional_eq_natCast_iff hord hk
    · intro hsorted
      rw [hidx, List.pairwise_map]
      exact hpath.pairwise_moved hord t
        (fun x y p q hp hq hne hxy => hp.idx_le_of_not_before hord hq hne hxy) hsorted
    · intro hsorted
      rw [hidx, List.pairwise_map]
      exact hpath.pairwise_moved hord t
        (fun x y p q hp hq hne hxy => hq.idx_le_of_not_before hord hp hne.symm hxy) hsorted

/-- Queries against a descending grid, beyond both ends and twice on an inner point, where the
tie-break has a choice. -/
theorem locate_keeps_order_descending :
    ∃ c : Column ℚ, fused.locate (NdArray.vector [3, 1, 0, -2]) (NdArray.vector [-3, 0, 0, 1 / 2, 4])
        (1 / 2) (some .keep) = .ok c ∧
      c.KeepsOrder .descending [3, 1, 0, -2] [-3, 0, 0, 1 / 2, 4] ∧ c.idx.Pairwise (· ≥ ·) := by
  have hord : Grid.Ordered .descending ([3, 1, 0, -2] : List ℚ) := by decide +kernel
  have hnew : ∀ x ∈ ([-3, 0, 0, 1 / 2, 4] : List ℚ),
      Grid.InEnvelope .descending [3, 1, 0, -2] (1 / 2) x := by decide +kernel
  obtain ⟨haccepted, hkeeps⟩ := locate_keeps_order fused hord (by decide)
    (show (0 : ℚ) ≤ 1 / 2 by decide +kernel) .keep [-3, 0, 0, 1 / 2, 4]
  obtain ⟨c, hc⟩ := haccepted.2 hnew
  have hsorted : ([-3, 0, 0, 1 / 2, 4] : List ℚ).Pairwise
      fun x y => ¬ Direction.descending.Before x y := by decide +kernel
  exact ⟨c, hc, hkeeps c hc, (hkeeps c hc).against hsorted⟩

end Backend
end Regrid
