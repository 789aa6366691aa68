import Regrid.Proofs.Locate.Fits

/-!
# The nearest bracket

A scan moves its bracket one grid point at a time and stops as soon as the query is not beyond
it.  Of the brackets that hold the query it therefore stops at the one that is nearest to where
it came from (`Moves.nearest`), and there is only one that is nearest (`Grid.Nearest.unique`).

Along a list of queries this is all there is to say of a scan: its results are the nearest
brackets, each seen from the one before, with the fractions of the queries in them
(`NearestPath`).  In an ordered grid a scan from any of its brackets finds such results
(`exists_scan`) and no others (`scan_eq_ok_iff`), and each of them fits its query
(`NearestPath.fits`).
-/
namespace Regrid

variable {K : Type} [Field K] [LinearOrder K]

/-! ## One query -/

namespace Grid

/-- **Nearest to a bracket** `i` of all brackets that hold the query `x`. -/
structure Nearest (d : Direction) (grid : List K) (x : K) (i j : Int) : Prop where
  holds : Holds d grid j x
  closer : ∀ k, Holds d grid k x → k ≠ j → (j - i).natAbs < (k - i).natAbs

variable {d : Direction} {grid : List K} {x : K} {i j k : Int}

/-- **No two brackets are nearest.** -/
theorem Nearest.unique (h : Nearest d grid x i j) (h' : Nearest d grid x i k) : j = k := by
  by_contra hne
  exact lt_asymm (h.closer k h'.holds (Ne.symm hne)) (h'.closer j h.holds hne)

/-- A bracket that holds the query is kept. -/
theorem Nearest.eq_of_holds (h : Nearest d grid x i j) (hi : Holds d grid i x) : j = i := by
  by_contra hne
  have hlt := h.closer i hi (Ne.symm hne)
  omega

/-- The fraction of a query in the bracket at an index. -/
def fractionAt (grid : List K) (j : Int) (x : K) : K :=
  (x - point grid j) / (point grid (j + 1) - point grid j)

end Grid

namespace Locate

variable [IsStrictOrderedRing K] [FloorRing K] [Elementary K]
variable {d : Direction} {grid : List K}

/-- **Where the scan stops, the bracket is the nearest** of those that hold the query. -/
theorem Moves.nearest (hord : Grid.Ordered d grid) {i j : Nat} (hi : i + 2 ≤ grid.length) {x : K}
    (h : Moves d (fun k => Grid.point grid k) grid.length x i j) :
    Grid.Nearest d grid x i j := by
  refine ⟨(h.fits hord hi).holds hord, fun k hk hne => ?_⟩
  obtain ⟨k, rfl⟩ := Int.eq_ofNat_of_zero_le hk.nonneg
  have hlast := hk.last
  have hkj : k ≠ j := fun he => hne (congrArg Nat.cast he)
  cases h with
  | down lt passed =>
    -- The query is in front of the brackets that were passed, and of those above them.
    suffices k < j by omega
    by_contra hjk
    have hfront := hk.front.resolve_left (by omega)
    rcases Nat.lt_or_ge i k with hik | hki
    · have hx := passed i lt le_rfl
      rw [Direction.precedes_eq, decide_eq_true_iff] at hx
      exact hfront (hx.trans (hord.before (Int.natCast_nonneg i) (by omega) (by omega)))
    · have hx := passed k (by omega) hki
      rw [Direction.precedes_eq, decide_eq_true_iff] at hx
      exact hfront hx
  | up lt last front passed =>
    -- The query is behind the brackets that were passed, and behind those below them.
    suffices j < k by omega
    by_contra hkj'
    have hback := hk.back.resolve_left (by omega)
    rcases Nat.lt_or_ge k i with hki | hik
    · have hx := passed (i + 1) (by omega) (by omega)
      rw [Direction.succeeds_eq, decide_eq_true_iff, Nat.cast_succ] at hx
      exact hback ((hord.before (by omega) (by omega) (by omega)).trans hx)
    · have hx := passed (k + 1) (by omega) (by omega)
      rw [Direction.succeeds_eq, decide_eq_true_iff, Nat.cast_succ] at hx
      exact hback hx
  | stay => omega

/-! ## All queries -/

/-- **Nearest brackets along the queries**: from an index, to an index per query, which is the
nearest to the index before, with the fraction of the query. -/
inductive NearestPath (d : Direction) (grid : List K) : Int → List K → List (Int × K) → Prop
  | done (i : Int) : NearestPath d grid i [] []
  | step {i j : Int} {x : K} {xs : List K} {found : List (Int × K)}
      (nearest : Grid.Nearest d grid x i j) (rest : NearestPath d grid j xs found) :
      NearestPath d grid i (x :: xs) ((j, Grid.fractionAt grid j x) :: found)

variable {i : Int} {new : List K} {found found' : List (Int × K)}

omit [IsStrictOrderedRing K] [FloorRing K] [Elementary K] in
/-- **There is one such path.** -/
theorem NearestPath.unique (h : NearestPath d grid i new found) (h' : NearestPath d grid i new found') :
    found = found' := by
  induction h generalizing found' with
  | done =>
    cases h'
    rfl
  | step nearest rest ih =>
    cases h' with
    | step nearest' rest' =>
      obtain rfl := nearest.unique nearest'
      rw [ih rest']

/-- **What is found on such a path fits** the queries. -/
theorem NearestPath.fits (hord : Grid.Ordered d grid) (h : NearestPath d grid i new found) :
    List.Forall₂ (fun x (f : Int × K) => Grid.Fits grid x (Position.ofFraction f.1 f.2))
      new found := by
  induction h with
  | done => exact .nil
  | step nearest _ ih => exact .cons (nearest.holds.fits hord) ih

/-- The brackets of a run are the nearest ones, and each gives its query a fraction. -/
theorem Path.exists_fractions (hord : Grid.Ordered d grid) {i : Nat} (hi : i + 2 ≤ grid.length)
    {js : List Nat} (h : Path d (fun k => Grid.point grid k) grid.length i new js) :
    ∃ found, fractions (js.map (bracketOf fun k => Grid.point grid k)) new = .ok found ∧
      NearestPath d grid i new found := by
  -- The invariant of the run: the bracket that the next query starts from is one of the grid.
  induction h with
  | done => exact ⟨[], rfl, .done _⟩
  | @step i j x xs js move rest ih =>
    have hj := move.last hi
    obtain ⟨found, hrun, hpath⟩ := ih hj
    have hwidth := hord.width_ne (Int.natCast_nonneg j) (by omega)
    refine ⟨((j : Int), Grid.fractionAt grid j x) :: found, ?_, .step (move.nearest hord hi) hpath⟩
    rw [List.map_cons, fractions, fractionIn, bracketOf,
      Exact.divide_of_ne (by rwa [Nat.cast_succ]), Outcome.ok_bind, hrun]
    simp [Grid.fractionAt]

omit [LinearOrder K] [IsStrictOrderedRing K] [FloorRing K] [Elementary K] in
/-- The points of a grid can be read. -/
theorem reads_point (grid : List K) :
    Reads (pointAt grid.toArray) (fun k => Grid.point grid k) grid.length := by
  have := reads_pointAt grid 0
  simpa only [Grid.point_natCast] using this

variable {start : Int} (hord : Grid.Ordered d grid) (h0 : 0 ≤ start) (hlast : start + 2 ≤ grid.length)
include hord h0 hlast

/-- **The scan goes along the nearest brackets**, wherever it starts. -/
theorem exists_scan (new : List K) :
    ∃ found, scan Walk.stepping grid d start new = .ok found ∧
      NearestPath d grid start new found := by
  obtain ⟨i, rfl⟩ := Int.eq_ofNat_of_zero_le h0
  have hi : i + 2 ≤ grid.length := by omega
  have hreads := reads_point grid
  obtain ⟨js, hrun, hpath⟩ := brackets_bracketOf hreads d hi new
  obtain ⟨found, hfractions, hnearest⟩ := hpath.exists_fractions hord hi
  exact ⟨found, by simp [scan, bracketAt_eq_ok hreads hi, hrun, hfractions], hnearest⟩

/-- **What a scan finds** is this and nothing else. -/
theorem scan_eq_ok_iff :
    scan Walk.stepping grid d start new = .ok found ↔ NearestPath d grid start new found := by
  obtain ⟨found', hscan, hpath⟩ := exists_scan hord h0 hlast new
  rw [hscan, Except.ok.injEq]
  exact ⟨fun h => h ▸ hpath, fun h => hpath.unique h⟩

end Locate

/-- Every query has a position. -/
theorem Grid.Ordered.exists_fits [IsStrictOrderedRing K] [FloorRing K] [Elementary K] {d : Direction}
    {grid : List K} (hord : Ordered d grid) (hlen : 2 ≤ grid.length) (x : K) : ∃ p, Fits grid x p := by
  obtain ⟨found, -, hpath⟩ := Locate.exists_scan hord le_rfl (by omega) [x]
  obtain ⟨f, -, hf, -, -⟩ := List.forall₂_cons_left_iff.1 (hpath.fits hord)
  exact ⟨_, hf⟩

end Regrid
