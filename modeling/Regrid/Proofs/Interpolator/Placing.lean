import Regrid.Proofs.Interpolator.Made
import Regrid.Proofs.Sample.Protocols

/-!
# Queries on all axes

An axis accepts a value if it is positive, where the axis is logarithmic, and its
coordinate is within the limits of the points that values are located among
(`Axis.Accepts`).  The queries of all axes are located exactly when every axis accepts
all of its values, and then there is a column for each axis whose positions fit the
coordinates (`Interpolator.Placed`).

From fitting columns the protocols take lists of positions, one per axis: those that
stand side by side, and those of the mesh.  Each such list fits the list of coordinates
that is taken in the same way (`Placed.sideBySide`, `Placed.mesh`).
-/
namespace Regrid

variable {K : Type} [Field K] [LinearOrder K] [FloorRing K] [Elementary K]

/-! ## One axis -/

namespace Axis

/-- The coordinate of a value, by which it is located. -/
def coordinate {α : Type} [Scalar α] (a : Axis α) (x : α) : α :=
  if a.logarithmic then Scalar.log x else x

/-- **An axis accepts a value** that may lie outside the grid by a factor. -/
def Accepts (a : Axis K) (extpolfac x : K) : Prop :=
  (a.logarithmic = true → 0 < x) ∧
    ∃ low high, Grid.limits a.located extpolfac = .ok (low, high) ∧
      low ≤ a.coordinate x ∧ a.coordinate x ≤ high

theorem accepts_iff [IsStrictOrderedRing K] {a : Axis K} {d : Direction}
    (hord : Grid.Ordered d a.located) (hlen : 2 ≤ a.located.length) (extpolfac x : K) :
    a.Accepts extpolfac x ↔ (a.logarithmic = true → 0 < x) ∧
      Grid.InEnvelope d a.located extpolfac (a.coordinate x) := by
  obtain ⟨low, high, hlimits, -, hwithin⟩ := Grid.exists_limits hord hlen extpolfac
  have hone := (Grid.checkWithin_eq_ok_iff.symm.trans (hwithin [a.coordinate x]))
  simp only [List.forall_mem_singleton, not_lt] at hone
  rw [Accepts, hlimits, ← hone]
  simp

/-- An axis with located points of a known direction accepts the values in their envelope. -/
theorem accepts_of_inEnvelope [IsStrictOrderedRing K] {a : Axis K} (d : Direction) (extpolfac : K)
    {xs : List K} (hord : Grid.Ordered d a.located) (hlen : 2 ≤ a.located.length)
    (h : ∀ x ∈ xs, (a.logarithmic = true → 0 < x) ∧
      Grid.InEnvelope d a.located extpolfac (a.coordinate x)) :
    ∀ x ∈ xs, a.Accepts extpolfac x :=
  fun x hx => (accepts_iff hord hlen extpolfac x).2 (h x hx)

/-- The values of a logarithmic axis have coordinates if all of them are positive. -/
theorem coordinates_eq_ok_iff {α : Type} [Scalar α] {a : Axis α} {xs zs : List α} :
    Interpolator.Axis.coordinates a xs = .ok zs ↔
      (a.logarithmic = true → ∀ x ∈ xs, Locate.isNotPositive x = false) ∧
        xs.map a.coordinate = zs := by
  unfold Interpolator.Axis.coordinates coordinate
  by_cases hlog : a.logarithmic = true
  · simp only [hlog, if_true, forall_const, ← Grid.firstWith_eq_none_iff]
    cases hfirst : Grid.firstWith Locate.isNotPositive xs with
    | none => simp
    | some entry => simp
  · simp [hlog]

/-- The coordinates of values that may be located. -/
theorem coordinates_eq_ok_iff_pos {a : Axis K} {xs zs : List K} :
    Interpolator.Axis.coordinates a xs = .ok zs ↔
      (a.logarithmic = true → ∀ x ∈ xs, 0 < x) ∧ xs.map a.coordinate = zs := by
  simp [coordinates_eq_ok_iff, Locate.isNotPositive]

end Axis

namespace Interpolator

/-- A row is located by its coordinates. -/
theorem positions_vector {α : Type} [Scalar α] {I : Interpolator α} (k : Nat) (a : Axis α)
    (xs : List α) :
    I.positions k a (NdArray.vector xs) =
      (Axis.coordinates a xs >>= fun zs =>
        I.backend.locate (NdArray.vector a.located) (NdArray.vector zs) I.config.extpolfac
          (some I.config.tieBreak)).mapError (onAxis k) := by
  have hqueries : queries k (NdArray.vector xs) = .ok xs := by
    simp [queries, NdArray.vector, NdArray.toList]
  rw [positions, hqueries]
  rfl

/-- The positions along one axis are those of the coordinates. -/
theorem positions_eq_ok_iff {α : Type} [Scalar α] {I : Interpolator α} {k : Nat} {a : Axis α}
    {xs : List α} {c : Column α} :
    I.positions k a (NdArray.vector xs) = .ok c ↔ ∃ zs, Axis.coordinates a xs = .ok zs ∧
      I.backend.locate (NdArray.vector a.located) (NdArray.vector zs) I.config.extpolfac
        (some I.config.tieBreak) = .ok c := by
  rw [positions_vector]
  exact Outcome.mapError_eq_ok_iff.trans Outcome.bind_eq_ok_iff

/-- The positions along all axes are those along the first one and those along the others. -/
theorem allPositions_cons_eq_ok_iff {α : Type} [Scalar α] {I : Interpolator α} {k : Nat} {a : Axis α}
    {axes : List (Axis α)} {v : NdArray α} {args : List (NdArray α)} {cs : List (Column α)} :
    I.allPositions k (a :: axes) (v :: args) = .ok cs ↔
      ∃ c others, I.positions k a v = .ok c ∧ I.allPositions (k + 1) axes args = .ok others ∧
        c :: others = cs := by
  rw [allPositions]
  simp only [Outcome.bind_eq_ok_iff, Outcome.pure_eq_ok, Except.ok.injEq, exists_and_left]

variable [IsStrictOrderedRing K] {I : Interpolator K}

/-- The values that an axis accepts are located, and the positions fit their
coordinates. -/
theorem exists_positions (hI : I.WellFormed) {a : Axis K} (ha : a ∈ I.axes) (k : Nat) {xs : List K}
    (h : ∀ x ∈ xs, a.Accepts I.config.extpolfac x) :
    ∃ c, I.positions k a (NdArray.vector xs) = .ok c ∧
      List.Forall₂ (fun x p => Grid.Fits a.located (a.coordinate x) p) xs c.toList := by
  obtain ⟨htwo, d, hord⟩ := hI.ordered a ha
  rw [← Axis.length_located] at htwo
  have haccepts := fun x hx => (Axis.accepts_iff hord htwo _ x).1 (h x hx)
  have hcoordinates : Axis.coordinates a xs = .ok (xs.map a.coordinate) :=
    Axis.coordinates_eq_ok_iff_pos.2 ⟨fun hlog x hx => (haccepts x hx).1 hlog, rfl⟩
  obtain ⟨c, hc, hfits⟩ := I.backend.exists_locate_eq_ok hord htwo hI.extpolfac I.config.tieBreak
    (List.forall_mem_map.2 fun x hx => (haccepts x hx).2)
  exact ⟨c, positions_eq_ok_iff.2 ⟨_, hcoordinates, hc⟩, List.forall₂_map_left_iff.1 hfits⟩

/-- Only values that the axis accepts are located. -/
theorem accepts_of_positions (hI : I.WellFormed) {a : Axis K} (ha : a ∈ I.axes) {k : Nat}
    {xs : List K} {c : Column K} (h : I.positions k a (NdArray.vector xs) = .ok c) :
    ∀ x ∈ xs, a.Accepts I.config.extpolfac x := by
  obtain ⟨htwo, d, hord⟩ := hI.ordered a ha
  rw [← Axis.length_located] at htwo
  obtain ⟨zs, hcoordinates, hlocate⟩ := positions_eq_ok_iff.1 h
  obtain ⟨hpositive, rfl⟩ := Axis.coordinates_eq_ok_iff_pos.1 hcoordinates
  obtain ⟨hwithin, -⟩ := I.backend.fits_of_locate_eq_ok hord htwo hI.extpolfac hlocate
  intro x hx
  exact (Axis.accepts_iff hord htwo _ x).2
    ⟨fun hlog => hpositive hlog x hx, hwithin _ (List.mem_map_of_mem hx)⟩

/-- The positions along an axis fit the coordinates of the values. -/
theorem fits_of_positions (hI : I.WellFormed) {a : Axis K} (ha : a ∈ I.axes) {k : Nat}
    {xs : List K} {c : Column K} (h : I.positions k a (NdArray.vector xs) = .ok c) :
    List.Forall₂ (fun x p => Grid.Fits a.located (a.coordinate x) p) xs c.toList := by
  obtain ⟨c', hc', hfits⟩ := exists_positions hI ha k (accepts_of_positions hI ha h)
  rw [h] at hc'
  cases hc'
  exact hfits

/-! ## All axes -/

/-- **Columns of positions for the queries of some axes.** -/
inductive Placed : List (Axis K) → List (List K) → List (Column K) → Prop
  | nil : Placed [] [] []
  | cons {a : Axis K} {axes : List (Axis K)} {xs : List K} {xss : List (List K)} {c : Column K}
      {cs : List (Column K)}
      (head : List.Forall₂ (fun x p => Grid.Fits a.located (a.coordinate x) p) xs c.toList)
      (tail : Placed axes xss cs) : Placed (a :: axes) (xs :: xss) (c :: cs)

/-- The queries that are accepted on every axis are located. -/
theorem exists_allPositions (hI : I.WellFormed) {axes : List (Axis K)} (haxes : axes ⊆ I.axes)
    {xss : List (List K)}
    (h : List.Forall₂ (fun (a : Axis K) xs => ∀ x ∈ xs, a.Accepts I.config.extpolfac x) axes xss)
    (k : Nat) :
    ∃ cs, I.allPositions k axes (xss.map NdArray.vector) = .ok cs ∧ Placed axes xss cs := by
  induction h generalizing k with
  | nil => exact ⟨[], rfl, .nil⟩
  | @cons a xs axes xss head _ ih =>
    obtain ⟨ha, haxes⟩ := List.cons_subset.1 haxes
    obtain ⟨c, hc, hfits⟩ := exists_positions hI ha k head
    obtain ⟨cs, hcs, hplaced⟩ := ih haxes (k + 1)
    exact ⟨c :: cs, allPositions_cons_eq_ok_iff.2 ⟨c, cs, hc, hcs, rfl⟩, .cons hfits hplaced⟩

/-- Only queries that are accepted on every axis are located. -/
theorem accepts_of_allPositions (hI : I.WellFormed) {axes : List (Axis K)} (haxes : axes ⊆ I.axes)
    {xss : List (List K)} (hlen : axes.length = xss.length) {k : Nat} {cs : List (Column K)}
    (h : I.allPositions k axes (xss.map NdArray.vector) = .ok cs) :
    List.Forall₂ (fun (a : Axis K) xs => ∀ x ∈ xs, a.Accepts I.config.extpolfac x) axes xss := by
  induction axes generalizing xss k cs with
  | nil =>
    obtain rfl := List.length_eq_zero_iff.1 hlen.symm
    exact .nil
  | cons a axes ih =>
    cases xss with
    | nil => cases hlen
    | cons xs xss =>
      obtain ⟨ha, haxes⟩ := List.cons_subset.1 haxes
      obtain ⟨c, others, hc, hothers, -⟩ := allPositions_cons_eq_ok_iff.1 h
      exact .cons (accepts_of_positions hI ha hc) (ih haxes (Nat.succ.inj hlen) hothers)

/-! ## Lists of positions -/

namespace Placed

variable {axes : List (Axis K)} {xss : List (List K)} {cs : List (Column K)}

omit [IsStrictOrderedRing K] in
theorem length_eq (h : Placed axes xss cs) :
    cs.length = axes.length ∧ cs.map Column.length = xss.map List.length := by
  induction h with
  | nil => exact ⟨rfl, rfl⟩
  | cons head _ ih =>
    refine ⟨congrArg Nat.succ ih.1, ?_⟩
    rw [List.map_cons, List.map_cons, ih.2, ← Column.length_toList, head.length_eq]

omit [IsStrictOrderedRing K] in
/-- A position that fits is sound on an axis. -/
theorem sound_of_fits {a : Axis K} {z : K} {p : Position K} (h : Grid.Fits a.located z p) :
    Sample.Sound a.points.length p := by
  have hlast := h.last
  rw [Axis.length_located] at hlast
  refine ⟨⟨h.nonneg, hlast⟩, ?_⟩
  rw [h.complement]
  ring

omit [IsStrictOrderedRing K] in
/-- Positions that fit are sound on a field of the right shape. -/
theorem sound (h : Placed axes xss cs) :
    Sample.SoundColumns (axes.map fun a => a.points.length) cs := by
  induction h with
  | nil => exact .nil
  | @cons a axes xs xss c cs head _ ih =>
    refine .cons (fun p hp => ?_) ih
    obtain ⟨i, hi⟩ := List.mem_iff_getElem?.1 hp
    obtain ⟨x, -, hfits⟩ := Choices.exists_getElem? head.flip hi
    exact sound_of_fits hfits

omit [IsStrictOrderedRing K] in
/-- One query per axis gets one position per axis. -/
theorem exists_single {xs : List K} (h : Placed axes (xs.map fun x => [x]) cs) :
    ∃ ps, List.Forall₂ (fun (c : Column K) p => c.toList = [p]) cs ps ∧
      Cell.Fits (axes.map Axis.located) (List.zipWith Axis.coordinate axes xs) ps := by
  generalize hxss : xs.map (fun x => [x]) = xss at h
  induction h generalizing xs with
  | nil =>
    obtain rfl := List.map_eq_nil_iff.1 hxss
    exact ⟨[], .nil, .nil⟩
  | cons head _ ih =>
    obtain ⟨x, rest, rfl, rfl, hrest⟩ := List.map_eq_cons_iff.1 hxss
    obtain ⟨ps, hps, hfits⟩ := ih hrest
    obtain ⟨p, later, hp, hlater, hc⟩ := List.forall₂_cons_left_iff.1 head
    obtain rfl := List.forall₂_nil_left_iff.1 hlater
    exact ⟨p :: ps, .cons hc hps, .cons hp hfits⟩

omit [IsStrictOrderedRing K] in
/-- **Side by side**: the positions in each place fit the queries in that place. -/
theorem sideBySide (h : Placed axes xss cs) :
    List.Forall₂ (fun xs ps =>
        Cell.Fits (axes.map Axis.located) (List.zipWith Axis.coordinate axes xs) ps)
      (Weights.sideBySide xss) (Weights.sideBySide (cs.map Column.toList)) := by
  induction h with
  | nil => exact .nil
  | @cons a axes xs xss c cs head tail ih =>
    cases tail with
    | nil =>
      refine List.forall₂_map_left_iff.2 (List.forall₂_map_right_iff.2 (head.imp fun x p hp => ?_))
      exact .cons hp .nil
    | cons head' tail =>
      exact Choices.forall₂_zipWith head ih fun x p ys qs hp hqs => .cons hp hqs

omit [IsStrictOrderedRing K] in
/-- **On the mesh**: the positions of each choice fit the queries of that choice. -/
theorem mesh (h : Placed axes xss cs) :
    List.Forall₂ (fun xs ps =>
        Cell.Fits (axes.map Axis.located) (List.zipWith Axis.coordinate axes xs) ps)
      (Sample.mesh xss) (Sample.mesh (cs.map Column.toList)) := by
  induction h with
  | nil => exact .cons .nil .nil
  | @cons a axes xs xss c cs head tail ih =>
    refine List.rel_flatMap head fun x p hp => ?_
    refine List.forall₂_map_left_iff.2 (List.forall₂_map_right_iff.2 (ih.imp fun ys qs hqs => ?_))
    exact .cons hp hqs

end Placed

end Interpolator
end Regrid
