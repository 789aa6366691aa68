import Regrid.Proofs.Columns
import Regrid.Proofs.Locate.Located

/-!
# Ties settled

Of the two brackets that a query on an inner grid point is in, a tie-break other than `keep` asks
for one (`TieBreak.Settles`).  A scan stops at either of them, depending on its history, and a single
move from there reaches the one that is asked for (`Grid.settled_move`).  At the first and at the last
point there is only one bracket, and the tie-break makes no demand that it could not meet.

So a position that fits its query and that a tie-break has settled is the only one
(`Grid.Settled.unique`).  It is a function of the grid, the tie-break and the query: neither the
other queries, nor where they stand, nor the extrapolation factor have a part in it.
-/
namespace Regrid

variable {K : Type} [Field K]

/-! ## The bracket that is asked for -/

/-- **A tie-break has been followed** in a position in a grid of `n` points: a grid point is where
the tie-break asks for it, unless the grid ends there. -/
def TieBreak.Settles (t : TieBreak) (n : Nat) (p : Position K) : Prop :=
  match t with
  | keep => True
  | lower => p.fraction = 1 → p.idx + 2 = n
  | upper => p.fraction = 0 → p.idx = 0

variable [LinearOrder K]

namespace Grid

/-- **A position that fits a query** and follows a tie-break. -/
structure Settled (t : TieBreak) (grid : List K) (x : K) (p : Position K) : Prop where
  fits : Fits grid x p
  settles : t.Settles grid.length p

variable [IsStrictOrderedRing K] {d : Direction} {t : TieBreak} {grid : List K} {x : K}
variable {p q : Position K}

/-- **There is only one such position**, unless the tie-break asks for none. -/
theorem Settled.unique (hord : Ordered d grid) (ht : t ≠ .keep) (hp : Settled t grid x p)
    (hq : Settled t grid x q) : p = q := by
  rcases Fits.eq_or_tie hord hp.fits hq.fits with heq | ⟨hidx, hp1, hq0⟩ | ⟨hidx, hq1, hp0⟩
  · exact heq
  · -- Each tie-break moves one of the two positions of a tie, and neither is at an end.
    have hnonneg := hp.fits.nonneg
    have hlast := hq.fits.last
    cases t with
    | keep => exact absurd rfl ht
    | lower =>
      have hend := hp.settles hp1
      omega
    | upper =>
      have hend := hq.settles hq0
      omega
  · have hnonneg := hq.fits.nonneg
    have hlast := hp.fits.last
    cases t with
    | keep => exact absurd rfl ht
    | lower =>
      have hend := hq.settles hq1
      omega
    | upper =>
      have hend := hp.settles hp0
      omega

omit [IsStrictOrderedRing K] in
/-- Off the grid points every tie-break has been followed. -/
theorem Fits.settled_of_not_mem (t : TieBreak) (h : Fits grid x p) (hx : x ∉ grid) :
    Settled t grid x p := by
  have hnonneg := h.nonneg
  have hlast := h.last
  have hreproduces := h.reproduces
  refine ⟨h, ?_⟩
  cases t with
  | keep => trivial
  | lower =>
    intro h1
    rw [h1, one_mul, add_sub_cancel] at hreproduces
    exact absurd (hreproduces ▸ point_mem (by omega) (by omega)) hx
  | upper =>
    intro h0
    rw [h0, zero_mul, add_zero] at hreproduces
    exact absurd (hreproduces ▸ point_mem hnonneg (by omega)) hx

/-- A grid point as the lower end of a bracket; the last one is the upper end of the last
bracket. -/
theorem settled_lower (hlen : 2 ≤ grid.length) {k : Nat} (hk : k < grid.length) :
    Settled .lower grid (point grid k)
      (if k + 1 < grid.length then ⟨k, 0, 1⟩ else ⟨grid.length - 2, 1, 0⟩) := by
  by_cases hnext : k + 1 < grid.length
  · rw [if_pos hnext]
    exact ⟨fits_lower (by omega) (by omega), fun h => absurd h zero_ne_one⟩
  · rw [if_neg hnext]
    have hfits : Fits grid (point grid (grid.length - 2 + 1)) ⟨grid.length - 2, 1, 0⟩ :=
      fits_upper (by omega) (by omega)
    rw [show (grid.length : Int) - 2 + 1 = k by omega] at hfits
    exact ⟨hfits, fun _ => sub_add_cancel ..⟩

/-- A grid point as the upper end of a bracket; the first one is the lower end of the first
bracket. -/
theorem settled_upper (hlen : 2 ≤ grid.length) {k : Nat} (hk : k < grid.length) :
    Settled .upper grid (point grid k) (if 0 < k then ⟨k - 1, 1, 0⟩ else ⟨0, 0, 1⟩) := by
  by_cases hpos : 0 < k
  · rw [if_pos hpos]
    have hfits : Fits grid (point grid (k - 1 + 1)) ⟨k - 1, 1, 0⟩ := fits_upper (by omega) (by omega)
    rw [sub_add_cancel] at hfits
    exact ⟨hfits, fun h => absurd h one_ne_zero⟩
  · rw [if_neg hpos]
    obtain rfl : k = 0 := by omega
    exact ⟨fits_lower le_rfl (by omega), fun _ => rfl⟩

/-! ## One move -/

variable [FloorRing K] [Elementary K]

omit [IsStrictOrderedRing K] in
/-- **One move follows the tie-break**, from whichever bracket the query was found in. -/
theorem settled_move (t : TieBreak) {found : Int × K}
    (h : Fits grid x (Position.ofFraction found.1 found.2)) :
    Settled t grid x (Position.ofFraction (t.move grid.length found).1
      (t.move grid.length found).2) := by
  refine ⟨Locate.fits_move t h, ?_⟩
  obtain ⟨idx, fraction⟩ := found
  have hnonneg : 0 ≤ idx := h.nonneg
  have hlast : idx + 2 ≤ grid.length := h.last
  cases t with
  | keep => trivial
  | lower =>
    intro h1
    simp only [TieBreak.move, Position.ofFraction] at h1 ⊢
    split at h1
    · exact absurd h1 (by simp)
    · next hstay =>
      rw [if_neg hstay]
      have hlower : ¬ idx < grid.length - 2 := by simpa [show fraction = 1 from h1] using hstay
      show idx + 2 = grid.length
      omega
  | upper =>
    intro h0
    simp only [TieBreak.move, Position.ofFraction] at h0 ⊢
    split at h0
    · exact absurd h0 (by simp)
    · next hstay =>
      rw [if_neg hstay]
      have hupper : ¬ 0 < idx := by simpa [show fraction = 0 from h0] using hstay
      show idx = 0
      omega

/-- Every query has a position that follows the tie-break. -/
theorem Ordered.exists_settled (hord : Ordered d grid) (hlen : 2 ≤ grid.length) (t : TieBreak) (x : K) :
    ∃ p, Settled t grid x p := by
  obtain ⟨p, hp⟩ := hord.exists_fits hlen x
  have hfound : Fits grid x (Position.ofFraction (p.idx, p.fraction).1 (p.idx, p.fraction).2) :=
    .ofFraction hp.nonneg hp.last hp.reproduces hp.front hp.back
  exact ⟨_, settled_move t hfound⟩

end Grid

/-! ## All queries -/

namespace Backend

variable [IsStrictOrderedRing K] [FloorRing K] [Elementary K]
variable {d : Direction} {old new : List K} {extpolfac : K}

/-- Queries within the envelope get positions that follow the tie-break. -/
theorem exists_locate_settled (b : Backend) (hord : Grid.Ordered d old) (hlen : 2 ≤ old.length)
    (he : 0 ≤ extpolfac) (t : TieBreak) (hnew : ∀ x ∈ new, Grid.InEnvelope d old extpolfac x) :
    ∃ c, b.locate (NdArray.vector old) (NdArray.vector new) extpolfac (some t) = .ok c ∧
      List.Forall₂ (Grid.Settled t old) new c.toList := by
  obtain ⟨found, hlocate, hpath⟩ := b.exists_found hord hlen he t hnew
  refine ⟨_, hlocate, Locate.forall₂_moved t ?_⟩
  exact (hpath.fits hord).imp fun x f hf => Grid.settled_move t hf

/-- The positions are those that the tie-break leaves, query by query. -/
theorem exists_locate_eq_map (b : Backend) (hord : Grid.Ordered d old) (hlen : 2 ≤ old.length)
    (he : 0 ≤ extpolfac) {t : TieBreak} (ht : t ≠ .keep) {settle : K → Position K}
    (hsettle : ∀ x, Grid.Settled t old x (settle x))
    (hnew : ∀ x ∈ new, Grid.InEnvelope d old extpolfac x) :
    ∃ c, b.locate (NdArray.vector old) (NdArray.vector new) extpolfac (some t) = .ok c ∧
      c.toList = new.map settle := by
  obtain ⟨c, hlocate, hsettled⟩ := b.exists_locate_settled hord hlen he t hnew
  refine ⟨c, hlocate, ?_⟩
  rw [eq_comm, ← List.forall₂_eq_eq_eq, List.forall₂_map_left_iff]
  exact hsettled.imp fun x p hp => (hsettle x).unique hord ht hp

/-- **Settled ties have no history.**  Under a tie-break other than `keep` there is one position for
each query in an ordered grid, the same for every backend, every factor and every list of queries
around it.  For a grid point it is the lower end of the bracket above it, or the upper end of the
bracket below it, as the tie-break says, where the grid has such a bracket; for any other query it
is the position that the query has without a tie-break.  A selection of the queries, in any order
and with repetitions, is located as the same selection of the positions. -/
theorem ties_have_no_history (hord : Grid.Ordered d old) (hlen : 2 ≤ old.length) (t : TieBreak)
    (ht : t ≠ .keep) :
    ∃ settle : K → Position K,
      (∀ (k : Nat) (x : K), old[k]? = some x →
        (t = .lower → settle x = if k + 1 < old.length then ⟨k, 0, 1⟩ else ⟨old.length - 2, 1, 0⟩) ∧
        (t = .upper → settle x = if 0 < k then ⟨k - 1, 1, 0⟩ else ⟨0, 0, 1⟩)) ∧
      ∀ (b : Backend) (extpolfac : K), 0 ≤ extpolfac → ∀ new : List K,
        ((∃ c, b.locate (NdArray.vector old) (NdArray.vector new) extpolfac (some t) = .ok c) ↔
          ∃ c, b.locate (NdArray.vector old) (NdArray.vector new) extpolfac (some .keep) = .ok c) ∧
        ∀ c kept : Column K,
          b.locate (NdArray.vector old) (NdArray.vector new) extpolfac (some t) = .ok c →
          b.locate (NdArray.vector old) (NdArray.vector new) extpolfac (some .keep) = .ok kept →
            c.toList = new.map settle ∧
            (∀ (i : Nat) (x : K), new[i]? = some x → x ∉ old → c.toList[i]? = kept.toList[i]?) ∧
            ∀ js : List Nat,
              b.locate (NdArray.vector old) (NdArray.vector (Column.pick new js)) extpolfac (some t) =
                .ok (c.select js) := by
  choose settle hsettle using hord.exists_settled hlen t
  refine ⟨settle, ?_, ?_⟩
  · intro k x hx
    have hk : k < old.length := (List.getElem?_eq_some_iff.1 hx).1
    rw [Grid.getElem?_eq_point hk, Option.some.injEq] at hx
    subst hx
    constructor
    · rintro rfl
      exact (hsettle _).unique hord ht (Grid.settled_lower hlen hk)
    · rintro rfl
      exact (hsettle _).unique hord ht (Grid.settled_upper hlen hk)
  · intro b extpolfac he new
    have haccepted : ∀ t', (∃ c, b.locate (NdArray.vector old) (NdArray.vector new) extpolfac (some t') =
        .ok c) ↔ ∀ x ∈ new, Grid.InEnvelope d old extpolfac x := by
      intro t'
      constructor
      · rintro ⟨c, hc⟩
        exact (b.fits_of_locate_eq_ok hord hlen he hc).1
      · intro hnew
        obtain ⟨c, hc, -⟩ := b.exists_locate_eq_ok hord hlen he t' hnew
        exact ⟨c, hc⟩
    refine ⟨(haccepted t).trans (haccepted .keep).symm, ?_⟩
    intro c kept hc hkept
    obtain ⟨hnew, hfits⟩ := b.fits_of_locate_eq_ok hord hlen he hkept
    have hmap : c.toList = new.map settle := by
      obtain ⟨c', hc', hmap⟩ := b.exists_locate_eq_map hord hlen he ht hsettle hnew
      rw [hc] at hc'
      cases hc'
      exact hmap
    refine ⟨hmap, ?_, ?_⟩
    · intro i x hx hoff
      obtain ⟨p, hp, hfit⟩ := Choices.exists_getElem? hfits hx
      rw [hmap, List.getElem?_map, hx, hp, Option.map_some]
      exact congrArg some ((hsettle x).unique hord ht (hfit.settled_of_not_mem t hoff))
    · intro js
      have hpick : ∀ x ∈ Column.pick new js, Grid.InEnvelope d old extpolfac x := fun x hx =>
        hnew x (Column.mem_of_mem_pick hx)
      obtain ⟨c', hc', hpicked⟩ := b.exists_locate_eq_map hord hlen he ht hsettle hpick
      rw [hc', ← Column.ofPositions_toList c', ← Column.ofPositions_toList (c.select js),
        Column.toList_select, hpicked, hmap, Column.pick_map]

/-- Queries on the ends and on an inner point of a descending grid, and one between them; and some of
them once more, in another order. -/
theorem ties_have_no_history_descending :
    ∃ settle : ℚ → Position ℚ, settle 3 = ⟨0, 0, 1⟩ ∧ settle 1 = ⟨0, 1, 0⟩ ∧ settle (-2) = ⟨2, 1, 0⟩ ∧
      ∃ c : Column ℚ, c.toList = [1, -2, 2, 3].map settle ∧
        compiled.locate (NdArray.vector [3, 1, 0, -2]) (NdArray.vector [2, 1, 1, -2]) (1 / 2)
          (some .upper) = .ok (c.select [2, 0, 0, 1]) := by
  have hord : Grid.Ordered .descending ([3, 1, 0, -2] : List ℚ) := by decide +kernel
  have he : (0 : ℚ) ≤ 1 / 2 := by decide +kernel
  have hnew : ∀ x ∈ ([1, -2, 2, 3] : List ℚ), Grid.InEnvelope .descending [3, 1, 0, -2] (1 / 2) x := by
    decide +kernel
  obtain ⟨settle, hpoints, hlocate⟩ := ties_have_no_history hord (by decide) .upper (by decide)
  obtain ⟨c, hc, -⟩ := compiled.exists_locate_eq_ok hord (by decide) he .upper hnew
  obtain ⟨hiff, hall⟩ := hlocate compiled (1 / 2) he [1, -2, 2, 3]
  obtain ⟨kept, hkept⟩ := hiff.1 ⟨c, hc⟩
  obtain ⟨hmap, -, hselect⟩ := hall c kept hc hkept
  exact ⟨settle, (hpoints 0 3 rfl).2 rfl, (hpoints 1 1 rfl).2 rfl, (hpoints 3 (-2) rfl).2 rfl, c, hmap,
    hselect [2, 0, 0, 1]⟩

end Backend
end Regrid
