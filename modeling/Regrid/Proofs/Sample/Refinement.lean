import Regrid.Proofs.Locate.Refinement
import Regrid.Proofs.Sample.Cells

/-!
# Cells of sampled fields

The value in a cell is linear in what is given at the corners (`Cell.value_linear`), so an
interpolation along one more axis may be made in front of it or behind it (`Cell.value_lerp`).
With this, what is known of one grid carries over to any number of them, one axis after the other:
if the entries of a field are the values of another field at the points of its grids, then it has
the values of the other field wherever each of its grids allows for that (`Cell.value_carried`).

A grid allows for it at a query (`Grid.Carries`) if to interpolate in it between interpolated values
is to interpolate once.  That is so at every query, if the grid refines the grid of the other
field (`Grid.Refines.carries`), and at the points of the grid, whatever they are
(`Grid.carries_point`).
-/
namespace Regrid

variable {K : Type} [Field K]

namespace Cell

theorem value_linear (ps : List (Position K)) (a b : K) (f g : List Int → K) :
    value ps (fun ix => a * f ix + b * g ix) = a * value ps f + b * value ps g := by
  induction ps generalizing f g with
  | nil => rfl
  | cons p ps ih =>
    rw [value, value, value, Position.lerp, Position.lerp, Position.lerp, ih, ih]
    ring

/-- **Interpolations along different axes commute.** -/
theorem value_lerp (ps : List (Position K)) (q : Position K) (f : List Int → K) :
    value ps (fun ix => q.lerp fun i => f (i :: ix)) = q.lerp fun i => value ps fun ix => f (i :: ix) :=
  value_linear ps q.complement q.fraction _ _

end Cell

variable [LinearOrder K]

/-- **A finer grid** for a grid of two points or more, in either direction. -/
structure Grid.Refines (grid fine : List K) : Prop where
  ordered : ∃ d, Ordered d grid
  two : 2 ≤ grid.length
  ordered_fine : ∃ d, Ordered d fine
  subset : grid ⊆ fine

omit [Field K] in
/-- There are as many points at least. -/
theorem Grid.Refines.two_le {grid fine : List K} (h : Refines grid fine) : 2 ≤ fine.length := by
  obtain ⟨d, hord⟩ := h.ordered
  have hnodup : grid.Nodup := hord.imp fun hbefore => hbefore.ne
  exact h.two.trans (List.subperm_of_subset hnodup h.subset).length_le

/-- **A grid carries a query over** to another one: to interpolate at the query in the other grid,
between values that were interpolated in the first one, is to interpolate in the first one. -/
structure Grid.Carries (grid other : List K) (z : K) : Prop where
  ordered : ∃ d, Ordered d grid
  two : 2 ≤ grid.length
  lerp : ∀ {p q p₀ p₁ : Position K}, Fits grid z p → Fits other z q →
    Fits grid (point other q.idx) p₀ → Fits grid (point other (q.idx + 1)) p₁ →
    ∀ f : Int → K, q.complement * p₀.lerp f + q.fraction * p₁.lerp f = p.lerp f

/-- Every axis carries its query over. -/
inductive Cell.Carries : List (List K) → List (List K) → List K → Prop
  | nil : Carries [] [] []
  | cons {grid other : List K} {grids others : List (List K)} {z : K} {zs : List K}
      (head : Grid.Carries grid other z) (tail : Carries grids others zs) :
      Carries (grid :: grids) (other :: others) (z :: zs)

variable [IsStrictOrderedRing K] [FloorRing K] [Elementary K]

/-- **A finer grid** gets every query. -/
theorem Grid.Refines.carries {grid fine : List K} (h : Refines grid fine) (z : K) :
    Carries grid fine z := by
  obtain ⟨d, hord⟩ := h.ordered
  obtain ⟨d', hfine⟩ := h.ordered_fine
  exact ⟨h.ordered, h.two, fun hp hq h₀ h₁ => hp.lerp_refined hord h.two hfine h.subset hq h₀ h₁⟩

/-- **Any grid gets its own points.** -/
theorem Grid.carries_point {d d' : Direction} {grid other : List K} (hord : Ordered d grid)
    (htwo : 2 ≤ grid.length) (hother : Ordered d' other) {z : K} (hz : z ∈ other) :
    Carries grid other z := by
  obtain ⟨j, hj, hpoint⟩ := List.mem_iff_getElem.1 hz
  obtain rfl : point other j = z := by rw [point_natCast, List.getD_eq_getElem _ _ hj, hpoint]
  refine ⟨⟨d, hord⟩, htwo, fun {p q p₀ p₁} hp hq h₀ h₁ f => ?_⟩
  -- All of the weight is on what was interpolated at the point itself.
  choose r hr using fun i : Int => hord.exists_fits htwo (point other i)
  calc q.complement * p₀.lerp f + q.fraction * p₁.lerp f
      = q.lerp fun i => (r i).lerp f := by
        rw [h₀.lerp_eq hord (hr q.idx), h₁.lerp_eq hord (hr (q.idx + 1))]
        rfl
    _ = (r j).lerp f := hq.lerp_point hother hj _
    _ = p.lerp f := (hr j).lerp_eq hord hp f

/-- **Values of values** are values, where every axis carries its query over. -/
theorem Cell.value_carried {grids others : List (List K)} {zs : List K}
    (h : Carries grids others zs) {ps qs : List (Position K)} (hp : Fits grids zs ps)
    (hq : Fits others zs qs) {f F : List Int → K}
    (hF : ∀ ix ws rs, Sample.entries? others (ix.map Int.toNat) = some ws → Fits grids ws rs →
      F ix = value rs f) : value qs F = value ps f := by
  induction h generalizing ps qs f F with
  | nil =>
    cases hp
    cases hq
    exact hF [] [] [] rfl .nil
  | @cons grid other grids others z zs head _ ih =>
    cases hp with
    | @cons _ _ _ _ p ps hp hps =>
      cases hq with
      | @cons _ _ _ _ q qs hq hqs =>
        obtain ⟨d, hd⟩ := head.ordered
        -- At a point of the other grid, the later axes give the interpolation along the first one.
        have hpoint : ∀ i : Int, 0 ≤ i → i < other.length → ∀ r, Grid.Fits grid (Grid.point other i) r →
            value qs (fun ix => F (i :: ix)) = r.lerp fun j => value ps fun ix => f (j :: ix) := by
          intro i h0 hi r hr
          rw [← value_lerp]
          refine ih hps hqs fun ix ws rs hws hrs => ?_
          rw [value_lerp]
          refine hF (i :: ix) (Grid.point other i :: ws) (r :: rs) ?_ (.cons hr hrs)
          refine Sample.entries?_cons_eq_some_iff.2 ⟨_, ws, ?_, hws, rfl⟩
          rw [Grid.getElem?_eq_point (by omega), Int.toNat_of_nonneg h0]
        have hnonneg := hq.nonneg
        have hlast := hq.last
        obtain ⟨r₀, h₀⟩ := hd.exists_fits head.two (Grid.point other q.idx)
        obtain ⟨r₁, h₁⟩ := hd.exists_fits head.two (Grid.point other (q.idx + 1))
        rw [value, value, Position.lerp, hpoint _ hnonneg (by omega) r₀ h₀,
          hpoint _ (by omega) (by omega) r₁ h₁]
        exact head.lerp hp hq h₀ h₁ _

end Regrid
