import Regrid.Container
import Regrid.Position.Column
import Regrid.Weights.Corner

/-!
# Interpolation weights

On one axis a position has two weights: its complement for the lower grid point
and its fraction for the upper one.  On several axes every corner of the cell has
the product of one weight per axis.  The weights of all corners are built axis by
axis: each weight so far is spread over the two points of the next axis.  No
corner number is ever looked at; that the result is in the order of the corner
numbers is a theorem about `spread`.

There are three layouts.

* *Red*: one position per axis, and one row of weights.
* *Blue*: a sequence of positions, each with a row of its own.
* *Green*: the positions of each axis span a new grid, and each of its points has a
  row.

On a single axis blue and green are the same.
-/
namespace Regrid

/-- The weights of the two points of a bracket, lower point first. -/
def Position.factors {α : Type} (p : Position α) : α × α := (p.complement, p.fraction)

/-- The weights of the two points, for every position of a column. -/
def Column.factors {α : Type} (c : Column α) : List (α × α) := c.fd.map fun p => (p.2, p.1)

@[simp] theorem Column.length_factors {α : Type} (c : Column α) : c.factors.length = c.length := by
  simp [Column.factors, Column.length, c.length_eq]

/-- The positions of a column have the weights of the column. -/
theorem Column.factors_eq_map {α : Type} (c : Column α) :
    c.factors = c.toList.map Position.factors := by
  obtain ⟨idx, fd, h⟩ := c
  simp only [Column.factors, Column.toList]
  induction idx generalizing fd with
  | nil => simp at h; simp [h]
  | cons i is ih =>
    cases fd with
    | nil => simp at h
    | cons p ps => simp [Position.factors, ih ps (by simpa using h)]

namespace Weights

variable {α : Type} [Scalar α]

/-- **Every weight spread over the two points of one more axis.** -/
def spread (weights : List α) (f : α × α) : List α :=
  weights.flatMap fun w => [w * f.1, w * f.2]

/-- The two weights of a single axis. -/
def pair (f : α × α) : List α := [f.1, f.2]

omit [Scalar α] in
@[simp] theorem length_pair (f : α × α) : (pair f).length = 2 := rfl

@[simp] theorem length_spread (weights : List α) (f : α × α) :
    (spread weights f).length = 2 * weights.length := by
  induction weights with
  | nil => rfl
  | cons w ws ih =>
    simp only [spread, List.flatMap_cons, List.length_append, List.length_cons] at ih ⊢
    rw [ih]; simp; omega

/-! ## The three layouts -/

/-- Red: the weights of one position per axis. -/
def redRow (p : Position α) (ps : List (Position α)) : List α :=
  ps.foldl (fun row q => spread row q.factors) (pair p.factors)

/-- Blue: a row per position of the sequence. -/
def blueRows (c : Column α) (cs : List (Column α)) : List (List α) :=
  cs.foldl (fun rows d => List.zipWith spread rows d.factors) (c.factors.map pair)

/-- Green: a row per point of the new grid, the last axis fastest. -/
def greenRows (c : Column α) (cs : List (Column α)) : List (List α) :=
  cs.foldl (fun rows d => rows.flatMap fun row => d.factors.map (spread row)) (c.factors.map pair)

/-! ## How many weights there are -/

omit [Scalar α] in
theorem length_of_mem_pairs {c : Column α} {r : List α} (h : r ∈ c.factors.map pair) :
    r.length = 2 := by
  obtain ⟨f, _, rfl⟩ := List.mem_map.1 h
  rfl

@[simp] theorem length_redRow (p : Position α) (ps : List (Position α)) :
    (redRow p ps).length = Corner.count (ps.length + 1) := by
  have step : ∀ (ps : List (Position α)) (row : List α),
      (ps.foldl (fun row q => spread row q.factors) row).length =
        row.length * Corner.count ps.length := by
    intro ps
    induction ps with
    | nil => simp
    | cons q qs ih =>
      intro row
      simp only [List.foldl_cons, ih, length_spread, List.length_cons, Corner.count_succ]
      ac_rfl
  simp only [redRow, step, length_pair, Corner.count_succ]

theorem length_blueRows (c : Column α) (cs : List (Column α)) (h : ∀ d ∈ cs, d.length = c.length) :
    (blueRows c cs).length = c.length := by
  have step : ∀ (cs : List (Column α)) (rows : List (List α)),
      (∀ d ∈ cs, d.length = rows.length) →
      (cs.foldl (fun rows d => List.zipWith spread rows d.factors) rows).length =
        rows.length := by
    intro cs
    induction cs with
    | nil => simp
    | cons d ds ih =>
      intro rows hd
      have h0 := hd d (List.mem_cons_self ..)
      have hz : (List.zipWith spread rows d.factors).length = rows.length := by simp [h0]
      rw [List.foldl_cons, ih _ (by
        intro e he; rw [hz]; exact hd e (List.mem_cons_of_mem _ he)), hz]
  rw [blueRows, step _ _ (by simpa using h)]
  simp

theorem width_blueRows (c : Column α) (cs : List (Column α)) :
    ∀ r ∈ blueRows c cs, r.length = Corner.count (cs.length + 1) := by
  have step : ∀ (cs : List (Column α)) (w : Nat) (rows : List (List α)),
      (∀ r ∈ rows, r.length = w) →
      ∀ r ∈ cs.foldl (fun rows d => List.zipWith spread rows d.factors) rows,
        r.length = w * Corner.count cs.length := by
    intro cs
    induction cs with
    | nil => intro w rows h; simpa using h
    | cons d ds ih =>
      intro w rows h r hr
      rw [List.foldl_cons] at hr
      have := ih (2 * w) _ (by
        intro s hs
        obtain ⟨i, hi, rfl⟩ := List.mem_iff_getElem.1 hs
        simp only [List.getElem_zipWith, length_spread]
        rw [h _ (List.getElem_mem _)]) r hr
      rw [this, List.length_cons, Corner.count_succ]
      ac_rfl
  intro r hr
  have := step cs 2 _ (fun _ => length_of_mem_pairs) r hr
  rw [this, Corner.count_succ]

omit [Scalar α] in
theorem length_flatMap_map {β γ δ : Type} (xs : List β) (ys : List γ) (f : β → γ → δ) :
    (xs.flatMap fun x => ys.map (f x)).length = xs.length * ys.length := by
  induction xs with
  | nil => simp
  | cons x xs ih => simp [ih, Nat.add_mul]; omega

theorem length_greenRows (c : Column α) (cs : List (Column α)) :
    (greenRows c cs).length = volume ((c :: cs).map Column.length) := by
  have step : ∀ (cs : List (Column α)) (rows : List (List α)),
      (cs.foldl (fun rows d => rows.flatMap fun row => d.factors.map (spread row)) rows).length =
        rows.length * volume (cs.map Column.length) := by
    intro cs
    induction cs with
    | nil => simp
    | cons d ds ih =>
      intro rows
      rw [List.foldl_cons, ih, length_flatMap_map]
      simp [Nat.mul_assoc]
  rw [greenRows, step]
  simp

theorem width_greenRows (c : Column α) (cs : List (Column α)) :
    ∀ r ∈ greenRows c cs, r.length = Corner.count (cs.length + 1) := by
  have step : ∀ (cs : List (Column α)) (w : Nat) (rows : List (List α)),
      (∀ r ∈ rows, r.length = w) →
      ∀ r ∈ cs.foldl (fun rows d => rows.flatMap fun row => d.factors.map (spread row)) rows,
        r.length = w * Corner.count cs.length := by
    intro cs
    induction cs with
    | nil => intro w rows h; simpa using h
    | cons d ds ih =>
      intro w rows h r hr
      rw [List.foldl_cons] at hr
      have := ih (2 * w) _ (by
        intro s hs
        obtain ⟨row, hrow, hs⟩ := List.mem_flatMap.1 hs
        obtain ⟨f, _, rfl⟩ := List.mem_map.1 hs
        rw [length_spread, h row hrow]) r hr
      rw [this, List.length_cons, Corner.count_succ]
      ac_rfl
  intro r hr
  have := step cs 2 _ (fun _ => length_of_mem_pairs) r hr
  rw [this, Corner.count_succ]

/-! ## Weights as arrays -/

/-- Weights are handed over in the caller's container, if there is one. -/
def deliver (out : Option (Container α)) (weights : NdArray α) : Except (Fault α) (NdArray α) :=
  Container.deliver out .weightsContainer .weightsElement weights

/-- The weights of one position per axis. -/
def red (ps : List (Position α)) (out : Option (Container α)) : Except (Fault α) (NdArray α) :=
  match ps with
  | [] => .error (.dimensionMismatch .noPosition)
  | p :: rest => deliver out (NdArray.vector (redRow p rest))

/-- The first column whose length is not `n`: its length and its axis. -/
def firstUneven (n : Nat) (cs : List (Column α)) : Option (Nat × Nat) :=
  (cs.map Column.length).zipIdx.find? fun entry => entry.1 != n

omit [Scalar α] in
theorem length_eq_of_firstUneven {n : Nat} {cs : List (Column α)}
    (h : firstUneven n cs = none) : ∀ c ∈ cs, c.length = n := by
  intro c hc
  obtain ⟨i, hi, rfl⟩ := List.mem_iff_getElem.1 hc
  have := List.find?_eq_none.1 h (cs[i].length, i) (by
    rw [List.mem_zipIdx_iff_getElem?]
    simp [hi])
  simpa using this

/-- The weights of a sequence of positions, a row for each; every axis has as many
positions as the first. -/
def blue (cs : List (Column α)) (out : Option (Container α)) : Except (Fault α) (NdArray α) :=
  match cs with
  | [] => .error (.dimensionMismatch .noPositionArray)
  | c :: rest =>
    match h : firstUneven c.length rest with
    | some (length, axis) =>
      .error (.dimensionMismatch (.unequalLengths c.length (axis + 1) length))
    | none =>
      deliver out (NdArray.ofRows [c.length] (Corner.count (rest.length + 1)) (blueRows c rest)
        (by simp [length_blueRows c rest (length_eq_of_firstUneven h)])
        (width_blueRows c rest))

/-- The weights of a grid of positions, a row for each point. -/
def green (cs : List (Column α)) (out : Option (Container α)) : Except (Fault α) (NdArray α) :=
  match cs with
  | [] => .error (.dimensionMismatch .noPositionArray)
  | c :: rest =>
    deliver out (NdArray.ofRows ((c :: rest).map Column.length) (Corner.count (rest.length + 1))
      (greenRows c rest) (length_greenRows c rest) (width_greenRows c rest))

end Weights
end Regrid
