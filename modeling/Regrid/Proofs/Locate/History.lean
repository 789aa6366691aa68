import Regrid.Proofs.Locate.Mirror

/-!
# What the history of a scan decides

The bracket that a query gets depends on the queries before it, through the bracket that the last
of them was found in, and on nothing else: it is the bracket that holds the query and is nearest
to that one (`NearestPath.scanned`).

So the history decides little.  Only on an inner grid point can two brackets hold a query
(`Grid.Fits.inner_of_idx_ne`), and there too index and fraction together make the same number
(`Grid.Fits.fractional_eq`).
-/
namespace Regrid

variable {K : Type} [Field K] [LinearOrder K] [IsStrictOrderedRing K] [FloorRing K] [Elementary K]
variable {d : Direction} {grid : List K}

/-! ## Two positions of one query -/

namespace Grid

variable {x : K} {p q : Position K}

omit [FloorRing K] [Elementary K] in
/-- **Different brackets** hold a query only on an inner grid point. -/
theorem Fits.inner_of_idx_ne (hord : Ordered d grid) (hp : Fits grid x p) (hq : Fits grid x q)
    (hne : p.idx ≠ q.idx) : Inner grid x := by
  rcases Fits.eq_or_tie hord hp hq with rfl | ⟨hidx, -, hq0⟩ | ⟨hidx, -, hp0⟩
  · exact absurd rfl hne
  · have hnonneg := hp.nonneg
    exact hq.inner (by omega) hq0
  · have hnonneg := hq.nonneg
    exact hp.inner (by omega) hp0

/-- **As numbers** all positions of a query are the same. -/
theorem Fits.fractional_eq (hord : Ordered d grid) (hp : Fits grid x p) (hq : Fits grid x q) :
    p.fractional = q.fractional := by
  rw [hp.fractional_eq_lerp, hq.fractional_eq_lerp]
  exact hp.lerp_eq hord hq _

end Grid

/-! ## Query by query -/

namespace Locate

/-- **What a scan finds**, query by query: an index and a fraction for each. -/
structure Scanned (d : Direction) (grid : List K) (start : Int) (new : List K)
    (found : List (Int × K)) : Prop where
  length : found.length = new.length
  /-- The bracket is the nearest to the one before, or to the first one. -/
  nearest : ∀ (i : Nat) (x : K) (before : Int) (f : Int × K), new[i]? = some x →
    (start :: found.map Prod.fst)[i]? = some before → found[i]? = some f →
      Grid.Nearest d grid x before f.1
  /-- The fraction is that of the query in this bracket. -/
  fraction : ∀ (i : Nat) (x : K) (f : Int × K), new[i]? = some x → found[i]? = some f →
    f.2 = Grid.fractionAt grid f.1 x

variable {start : Int} {new : List K} {found : List (Int × K)}

omit [IsStrictOrderedRing K] [FloorRing K] [Elementary K] in
/-- **A path along the nearest brackets**, query by query. -/
theorem NearestPath.scanned (h : NearestPath d grid start new found) :
    Scanned d grid start new found := by
  induction h with
  | done => exact ⟨rfl, nofun, nofun⟩
  | @step i j x xs found nearest _ ih =>
    refine ⟨?_, ?_, ?_⟩
    · rw [List.length_cons, List.length_cons, ih.length]
    · intro k y before f hy hbefore hf
      cases k with
      | zero =>
        cases hy
        cases hbefore
        cases hf
        exact nearest
      | succ k => exact ih.nearest k y before f hy hbefore hf
    · intro k y f hy hf
      cases k with
      | zero =>
        cases hy
        cases hf
        rfl
      | succ k => exact ih.fraction k y f hy hf

omit [IsStrictOrderedRing K] [FloorRing K] [Elementary K] in
/-- A bracket that holds the next query is kept. -/
theorem Scanned.kept (h : Scanned d grid start new found) {i : Nat} {x : K} {before : Int}
    {f : Int × K} (hx : new[i]? = some x) (hbefore : (start :: found.map Prod.fst)[i]? = some before)
    (hf : found[i]? = some f) (hholds : Grid.Holds d grid before x) : f.1 = before :=
  (h.nearest i x before f hx hbefore hf).eq_of_holds hholds

/-- What is found for a query fits it. -/
theorem Scanned.fits (hord : Grid.Ordered d grid) (h : Scanned d grid start new found) {i : Nat}
    {x : K} {f : Int × K} (hx : new[i]? = some x) (hf : found[i]? = some f) :
    Grid.Fits grid x (Position.ofFraction f.1 f.2) := by
  -- There is a bracket before: the first one, or that of the query before.
  have hi : i < (start :: found.map Prod.fst).length := by
    have := (List.getElem?_eq_some_iff.1 hf).1
    simp only [List.length_cons, List.length_map]
    omega
  rw [h.fraction i x f hx hf]
  exact (h.nearest i x _ f hx (List.getElem?_eq_getElem hi) hf).holds.fits hord

/-- **All that a scan does.**  In an ordered grid both forms of the walk succeed from any bracket
of the grid, and find for each query the nearest bracket, of those that hold it, to the bracket
before, which is kept if it holds the query.  Two scans that meet the same query, from wherever
they started and whatever they met before, find different brackets for it only if it is an inner
grid point, and index and fraction together make the same number in both. -/
theorem scan_finds_nearest (hord : Grid.Ordered d grid) :
    (∀ w : Walk K, w = Walk.stepping ∨ w = Walk.asking →
      ∀ start : Int, 0 ≤ start → start + 2 ≤ grid.length → ∀ new : List K,
        ∃ found, scan w grid d start new = .ok found ∧ Scanned d grid start new found ∧
          ∀ (i : Nat) (x : K) (before : Int) (f : Int × K), new[i]? = some x →
            (start :: found.map Prod.fst)[i]? = some before → found[i]? = some f →
              Grid.Holds d grid before x → f.1 = before) ∧
    ∀ w w' : Walk K, (w = Walk.stepping ∨ w = Walk.asking) → (w' = Walk.stepping ∨ w' = Walk.asking) →
      ∀ start start' : Int, 0 ≤ start → start + 2 ≤ grid.length →
        0 ≤ start' → start' + 2 ≤ grid.length →
      ∀ (new new' : List K) (found found' : List (Int × K)),
        scan w grid d start new = .ok found → scan w' grid d start' new' = .ok found' →
      ∀ (i i' : Nat) (x : K) (f f' : Int × K),
        new[i]? = some x → new'[i']? = some x → found[i]? = some f → found'[i']? = some f' →
          (f.1 ≠ f'.1 → Grid.Inner grid x) ∧ (f.1 : K) + f.2 = f'.1 + f'.2 := by
  have hstepping : ∀ w : Walk K, w = Walk.stepping ∨ w = Walk.asking → w = Walk.stepping := by
    rintro w (rfl | rfl)
    · rfl
    · exact Walk.asking_eq_stepping
  have hscanned : ∀ w : Walk K, (w = Walk.stepping ∨ w = Walk.asking) →
      ∀ start : Int, 0 ≤ start → start + 2 ≤ grid.length → ∀ (new : List K) (found : List (Int × K)),
        scan w grid d start new = .ok found → Scanned d grid start new found := by
    intro w hw start h0 hlast new found hscan
    rw [hstepping w hw] at hscan
    exact ((scan_eq_ok_iff hord h0 hlast).1 hscan).scanned
  constructor
  · intro w hw start h0 hlast new
    obtain ⟨found, hscan, hpath⟩ := exists_scan hord h0 hlast new
    refine ⟨found, by rw [hstepping w hw, hscan], hpath.scanned, ?_⟩
    intro i x before f hx hbefore hf hholds
    exact hpath.scanned.kept hx hbefore hf hholds
  · intro w w' hw hw' start start' h0 hlast h0' hlast' new new' found found' hscan hscan'
      i i' x f f' hx hx' hf hf'
    have hfits := (hscanned w hw start h0 hlast new found hscan).fits hord hx hf
    have hfits' := (hscanned w' hw' start' h0' hlast' new' found' hscan').fits hord hx' hf'
    refine ⟨hfits.inner_of_idx_ne hord hfits', ?_⟩
    have hnumber := hfits.fractional_eq hord hfits'
    simpa only [Position.fractional, Position.ofFraction, Exact.ofInt_eq] using hnumber

/-- From either end of a grid a query on an inner grid point is found in the bracket that is met
first. -/
theorem scan_finds_nearest_two_starts :
    scan Walk.stepping [3, 1, 0, -2] .descending 0 [(0 : ℚ)] = .ok [(1, 1)] ∧
      scan Walk.asking [3, 1, 0, -2] .descending 2 [(0 : ℚ)] = .ok [(2, 0)] ∧
      Grid.Inner [3, 1, 0, -2] (0 : ℚ) ∧ ((1 : Int) : ℚ) + 1 = (2 : Int) + 0 := by
  have hord : Grid.Ordered .descending ([3, 1, 0, -2] : List ℚ) := by decide +kernel
  obtain ⟨hfinds, hagree⟩ := scan_finds_nearest hord
  obtain ⟨found, hscan, -⟩ := hfinds Walk.stepping (.inl rfl) 0 (by decide) (by decide) [0]
  obtain ⟨found', hscan', -⟩ := hfinds Walk.asking (.inr rfl) 2 (by decide) (by decide) [0]
  have hfound : (scan Walk.stepping [3, 1, 0, -2] .descending 0 [(0 : ℚ)]).toOption = some [(1, 1)] := by
    decide +kernel
  have hfound' : (scan Walk.asking [3, 1, 0, -2] .descending 2 [(0 : ℚ)]).toOption = some [(2, 0)] := by
    decide +kernel
  rw [hscan] at hfound
  rw [hscan'] at hfound'
  cases hfound
  cases hfound'
  obtain ⟨hinner, hnumber⟩ := hagree Walk.stepping Walk.asking (.inl rfl) (.inr rfl) 0 2 (by decide)
    (by decide) (by decide) (by decide) [0] [0] _ _ hscan hscan' 0 0 0 (1, 1) (2, 0) rfl rfl rfl rfl
  exact ⟨hscan, hscan', hinner (by decide), hnumber⟩

end Locate
end Regrid
