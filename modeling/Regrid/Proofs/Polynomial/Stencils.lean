import Regrid.Proofs.Kinds
import Regrid.Proofs.Polynomial.Windows
import Regrid.Scalar.Double

/-!
# Which window a stencil takes

A window that surrounds a bracket (`Stencil.Surrounds`) is full: it has as many points as the stencil,
all of them are points of the grid, and the two points of the bracket are among them.  So whatever row
belongs to the grid, its stretch from there on is not short, and the two entries of the bracket stand
side by side in it (`Surrounds.stretches`).

A stencil takes such a window wherever there is one (`window_surrounds_bracket`).  There may be several,
and the adaptive stencil is the only one for which the fraction of the position counts: it chooses
between the lower neighbour of the bracket and the upper one (`first_adaptive_iff`).  The others want
the window that begins one point below the bracket, and take the nearest one that there is
(`nearest_clamped`).

Nothing is asked of the numbers: the fraction may be infinite or no number at all, and a comparison may
answer anything.
-/
namespace Regrid
namespace Stencil

variable {s : Stencil} {n idx start : Int}

/-! ## Full windows -/

/-- **A full window around a bracket** of a grid of `n` points, from the point at `start` on. -/
structure Surrounds (s : Stencil) (n idx start : Int) : Prop where
  front : 0 ≤ start
  back : start ≤ n - s.size
  lower : start ≤ idx
  upper : idx + 1 ≤ start + s.size - 1

/-- **A row has the bracket** in its stretch from a window on: the stretch is not short, and the two
entries of the bracket stand side by side in it. -/
structure Stretches (s : Stencil) (idx start : Int) {β : Type} (xs : List β) : Prop where
  length : (Polynomial.stretch start s.size xs).length = s.size
  bracket : ∃ j, (Polynomial.stretch start s.size xs)[j]? = xs[idx.toNat]? ∧
    (Polynomial.stretch start s.size xs)[j + 1]? = xs[idx.toNat + 1]?

/-- **A full window** is one of every row that belongs to the grid. -/
theorem Surrounds.stretches {β : Type} (h : s.Surrounds n idx start) {xs : List β}
    (hxs : xs.length = n) : s.Stretches idx start xs := by
  obtain ⟨hfront, hback, hlower, hupper⟩ := h
  refine ⟨Polynomial.length_stretch hfront (by omega), (idx - start).toNat, ?_, ?_⟩
  · have hplace : start.toNat + (idx - start).toNat = idx.toNat := by omega
    rw [Polynomial.stretch, List.getElem?_take_of_lt (by omega), List.getElem?_drop, hplace]
  · have hplace : start.toNat + ((idx - start).toNat + 1) = idx.toNat + 1 := by omega
    rw [Polynomial.stretch, List.getElem?_take_of_lt (by omega), List.getElem?_drop, hplace]

/-- **The window that is nearest to a wanted one**, of all windows of a grid of `n` points. -/
structure Nearest (s : Stencil) (n wanted start : Int) : Prop where
  kept : 0 ≤ wanted → wanted ≤ n - s.size → start = wanted
  closer : ∀ other, 0 ≤ other → other ≤ n - s.size → other ≠ start →
    (start - wanted).natAbs < (other - wanted).natAbs

/-- A window is moved inwards as far as needed, and no farther. -/
theorem nearest_clamped (hn : s.size ≤ n) (wanted : Int) :
    s.Nearest n wanted (min (max wanted 0) (n - s.size)) where
  kept := by omega
  closer := by
    intro other hfront hback hne
    omega

/-! ## The choice -/

variable {α : Type} [Scalar α] {p : Position α}

/-- **The adaptive stencil takes the lower neighbour** if there is one, and it is the nearer one or the
only one. -/
theorem first_adaptive_iff (hn : 3 ≤ n) (hlast : p.idx ≤ n - 2) :
    adaptive3.first n p = p.idx - 1 ↔
      0 ≤ p.idx - 1 ∧ (Scalar.le p.fraction Scalar.half = true ∨ n ≤ p.idx + 2) := by
  have hlower : adaptive3.first n p = p.idx - 1 ↔
      ((Scalar.le p.fraction Scalar.half && decide (0 < p.idx)) || p.idx == n - 2) = true := by
    rw [first]
    split
    · next h => exact ⟨fun _ => h, fun _ => rfl⟩
    · next h => exact ⟨fun he => by omega, fun h' => absurd h' h⟩
  rw [hlower, Bool.or_eq_true, Bool.and_eq_true, decide_eq_true_iff, beq_iff_eq]
  constructor
  · rintro (⟨hnearer, hpos⟩ | hend)
    · exact ⟨by omega, .inl hnearer⟩
    · exact ⟨by omega, .inr (by omega)⟩
  · rintro ⟨hpos, hnearer | hend⟩
    · exact .inl ⟨hnearer, by omega⟩
    · exact .inr (by omega)

/-- **What is promised of the window** that a stencil takes for a position. -/
structure Chosen (s : Stencil) (n : Int) (p : Position α) (start : Int) : Prop where
  surrounds : s.Surrounds n p.idx start
  /-- With the lower neighbour of the bracket the window begins one point below it. -/
  adaptive : s = adaptive3 → (start = p.idx - 1 ↔
    0 ≤ p.idx - 1 ∧ (Scalar.le p.fraction Scalar.half = true ∨ n ≤ p.idx + 2))
  /-- One point below the bracket is where the others want to begin. -/
  centred : s ≠ adaptive3 → s.Nearest n (p.idx - 1) start

/-- Where there is a window around the bracket, the first point is chosen so. -/
theorem chosen_first (hn : s.size ≤ n) (h0 : 0 ≤ p.idx) (hlast : p.idx ≤ n - 2) :
    s.Chosen n p (s.first n p) := by
  obtain ⟨hfront, hback, hlower, hupper⟩ := s.first_bounds (p := p) hn h0 (by omega)
  refine ⟨⟨hfront, by omega, hlower, by omega⟩, ?_, ?_⟩
  · rintro rfl
    exact first_adaptive_iff hn hlast
  · intro hs
    cases s with
    | adaptive3 => exact absurd rfl hs
    | fixed3 => exact nearest_clamped hn (p.idx - 1)
    | cubic4 => exact nearest_clamped hn (p.idx - 1)

/-! ## All cases -/

/-- **A stencil takes a full window around the bracket**, whatever the position and the number of grid
points are: it is refused for the shape exactly if the grid has too few points, and else as out of range
exactly if the bracket is none of the grid.  In all other cases there is a window.  It is full and holds
the bracket; the adaptive stencil takes the lower neighbour exactly if there is one and the fraction is a
half at most or there is no upper one; the others take the window from one point below the bracket on
if there is one, and else the nearest one.  No row of the grid is short of a point there. -/
theorem window_surrounds_bracket (s : Stencil) (n : Int) (p : Position α) :
    (Outcome.Refused .dimensionMismatch (window (some s) n p) ↔ n < s.size) ∧
    (Outcome.Refused .outOfRange (window (some s) n p) ↔
      s.size ≤ n ∧ ¬ (0 ≤ p.idx ∧ p.idx ≤ n - 2)) ∧
    ((∃ start, window (some s) n p = .ok start) ↔ s.size ≤ n ∧ 0 ≤ p.idx ∧ p.idx ≤ n - 2) ∧
    ∀ start, window (some s) n p = .ok start → s.Chosen n p start ∧
      ∀ (β : Type) (xs : List β), xs.length = n → s.Stretches p.idx start xs := by
  rcases lt_or_ge n s.size with hshort | hn
  · rw [s.window_of_short hshort, Outcome.refused_error_iff, Outcome.refused_error_iff]
    have hnone : ¬ (s.size ≤ n) := not_le.2 hshort
    exact ⟨iff_of_true rfl hshort, iff_of_false nofun fun h => hnone h.1,
      iff_of_false (Outcome.not_exists_ok _) fun h => hnone h.1, nofun⟩
  by_cases hidx : 0 ≤ p.idx ∧ p.idx ≤ n - 2
  · rw [window_eq_ok s hn hidx.1 (by omega)]
    refine ⟨iff_of_false Outcome.not_refused_ok (not_lt.2 hn),
      iff_of_false Outcome.not_refused_ok fun h => h.2 hidx, iff_of_true ⟨_, rfl⟩ ⟨hn, hidx⟩, ?_⟩
    intro start hstart
    obtain rfl : s.first n p = start := Except.ok.inj hstart
    have hchosen := chosen_first hn hidx.1 hidx.2
    exact ⟨hchosen, fun β xs hxs => hchosen.surrounds.stretches hxs⟩
  · rw [s.window_of_outside hn hidx, Outcome.refused_error_iff, Outcome.refused_error_iff]
    exact ⟨iff_of_false nofun (not_lt.2 hn), iff_of_true rfl ⟨hn, hidx⟩,
      iff_of_false (Outcome.not_exists_ok _) fun h => hidx h.2, nofun⟩

/-- Four points of five, around the last bracket and with a fraction that is no number: the window is
moved inwards by one point. -/
theorem window_surrounds_bracket_last :
    let nan : Float := 0 / 0
    let p : Position Float := ⟨3, nan, nan⟩
    window (some cubic4) 5 p = .ok 1 ∧ cubic4.Chosen 5 p 1 ∧
      cubic4.Stretches 3 1 [(4 : Float), 3, 2, 1, 0] := by
  intro nan p
  obtain ⟨-, -, -, hchosen⟩ := window_surrounds_bracket cubic4 5 p
  have hwindow : window (some cubic4) 5 p = .ok 1 := rfl
  obtain ⟨hone, hrows⟩ := hchosen 1 hwindow
  exact ⟨hwindow, hone, hrows Float [4, 3, 2, 1, 0] rfl⟩

end Stencil
end Regrid
