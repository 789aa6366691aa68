import Regrid.Proofs.Columns
import Regrid.Proofs.Doubles
import Regrid.Proofs.Sample.Dispatch

/-!
# What removal of noise lets pass

Noise is removed from the positions of an argument, one or many, all at once or not at all
(`Placement.clamp_cases`): the argument is refused for a distance that is beyond repair, or every
distance is moved into the unit interval.

So removal of noise is meant to be a filter: what it lets pass are distances in the unit interval
(`Placement.Filtered`).  For doubles it is one as far as they are numbers.  A number is moved into the
interval, be it finite or not (`Position.inUnit_clip`).  What is not a number fails the tests for
being beyond repair as well as those for being outside the interval, and passes as it is
(`Position.clip_of_isNaN`).  Hence the filter works where a distance is beyond repair, or all of them
are numbers, and nowhere else (`Placement.clamp_filters_iff`).
-/
namespace Regrid

open Outcome

/-! ## One position -/

section
variable {α : Type} [Scalar α] {tolerance : α}

namespace Position

/-- The two distances of a position. -/
def distances (p : Position α) : List α := [p.fraction, p.complement]

omit [Scalar α] in
theorem mem_distances {p : Position α} {x : α} :
    x ∈ p.distances ↔ x = p.fraction ∨ x = p.complement := by
  rw [distances, List.mem_cons, List.mem_singleton]

/-- A position is beyond repair if one of its distances is. -/
theorem deviates_iff {p : Position α} :
    p.deviates tolerance = true ↔ ∃ x ∈ p.distances, isBad tolerance x = true := by
  simp only [mem_distances, exists_eq_or_imp, exists_eq_left]
  exact Bool.or_eq_true_iff

end Position

/-! ## One position or many -/

namespace Placement

/-- The distances of all positions. -/
def distances (p : Placement α) : List α := p.positions.flatMap Position.distances

/-- Every position changed. -/
def map (f : Position α → Position α) : Placement α → Placement α
  | one p => one (f p)
  | many c => many (Column.ofPositions (c.toList.map f))

omit [Scalar α] in
theorem positions_map (f : Position α → Position α) (p : Placement α) :
    (p.map f).positions = p.positions.map f := by
  cases p with
  | one p => rfl
  | many c => exact Column.toList_ofPositions _

omit [Scalar α] in
theorem indices_eq_map (p : Placement α) : p.indices = p.positions.map Position.idx := by
  cases p with
  | one p => rfl
  | many c => exact (congrArg Column.idx c.ofPositions_toList).symm

theorem indices_map_clipped (p : Placement α) : (p.map Position.clipped).indices = p.indices := by
  rw [indices_eq_map, indices_eq_map, positions_map, List.map_map]
  rfl

theorem distances_map_clipped (p : Placement α) :
    (p.map Position.clipped).distances = p.distances.map Position.clip := by
  rw [distances, distances, positions_map, List.flatMap_map, List.map_flatMap]
  rfl

/-- A position is beyond repair if and only if a distance is. -/
theorem exists_deviates_iff {p : Placement α} : (∃ q ∈ p.positions, q.deviates tolerance = true) ↔
    ∃ x ∈ p.distances, Position.isBad tolerance x = true := by
  simp only [distances, List.mem_flatMap, Position.deviates_iff]
  constructor
  · rintro ⟨q, hq, x, hx, hbad⟩
    exact ⟨x, ⟨q, hq, hx⟩, hbad⟩
  · rintro ⟨x, ⟨q, hq, hx⟩, hbad⟩
    exact ⟨q, hq, x, hx, hbad⟩

/-- **With a tolerance**, an argument is refused for a distance that is beyond repair, or noise is
removed from all its positions. -/
theorem clamp_cases (h : Position.checkTolerance tolerance = .ok ()) (p : Placement α) :
    (Refused .outOfRange (p.clamp tolerance) ∧
        ∃ x ∈ p.distances, Position.isBad tolerance x = true) ∨
      (p.clamp tolerance = .ok (p.map Position.clipped) ∧
        ¬ ∃ x ∈ p.distances, Position.isBad tolerance x = true) := by
  have hnone (hgood : ∀ q ∈ p.positions, q.deviates tolerance = false) :
      ¬ ∃ q ∈ p.positions, q.deviates tolerance = true := by
    rintro ⟨q, hq, hbad⟩
    exact Bool.false_ne_true ((hgood q hq).symm.trans hbad)
  rw [← exists_deviates_iff]
  cases p with
  | one p =>
    rcases p.clamp_cases h with ⟨hbad, hclamp⟩ | ⟨hgood, hclamp⟩
    · exact .inl ⟨⟨_, congrArg (Except.map one) hclamp, rfl⟩, p, List.mem_singleton_self p, hbad⟩
    · exact .inr ⟨congrArg (Except.map one) hclamp, hnone (List.forall_mem_singleton.2 hgood)⟩
  | many c =>
    rcases c.clamp_cases h with ⟨q, hq, hbad, hclamp⟩ | ⟨hgood, hclamp⟩
    · exact .inl ⟨⟨_, congrArg (Except.map many) hclamp, rfl⟩, q, hq, hbad⟩
    · exact .inr ⟨congrArg (Except.map many) hclamp, hnone hgood⟩

end Placement
end

/-! ## Doubles -/

namespace Position

/-- A double in the unit interval.  What is not a number is not in it. -/
def InUnit (x : Float) : Prop := Scalar.le Scalar.zero x = true ∧ Scalar.le x Scalar.one = true

variable {x tolerance : Float}

/-- **A number is moved into the unit interval**, however far it is from there. -/
theorem inUnit_clip (hx : Scalar.isNaN x = false) : InUnit (clip x) := by
  have hzero : Scalar.isNaN (Scalar.zero : Float) = false := by decide +kernel
  have hone : Scalar.isNaN (Scalar.one : Float) = false := by decide +kernel
  rw [clip]
  split
  · exact ⟨by decide +kernel, by decide +kernel⟩
  · next hneg =>
    split
    · exact ⟨by decide +kernel, by decide +kernel⟩
    · next hlarge =>
      exact ⟨Double.le_of_not_lt hx hzero (Bool.eq_false_iff.2 hneg),
        Double.le_of_not_lt hone hx (Bool.eq_false_iff.2 hlarge)⟩

/-- **What is not a number** is left as it is. -/
theorem clip_of_isNaN (hx : Scalar.isNaN x = true) : clip x = x := by
  have hneg : ¬ Scalar.lt x Scalar.zero = true := fun h =>
    Bool.false_ne_true ((Double.numbers_of_lt h).1.symm.trans hx)
  have hlarge : ¬ Scalar.lt Scalar.one x = true := fun h =>
    Bool.false_ne_true ((Double.numbers_of_lt h).2.symm.trans hx)
  rw [clip, if_neg hneg, if_neg hlarge]

/-- Exactly the numbers end in the unit interval. -/
theorem inUnit_clip_iff : InUnit (clip x) ↔ Scalar.isNaN x = false := by
  refine ⟨fun h => ?_, inUnit_clip⟩
  by_contra hx
  rw [clip_of_isNaN (Bool.eq_true_of_not_eq_false hx)] at h
  exact hx (Double.numbers_of_le h.1).2

/-- A finite tolerance that is greater than nought. -/
theorem checkTolerance_eq_ok (hfinite : Scalar.isFinite tolerance = true)
    (hpositive : Scalar.lt Scalar.zero tolerance = true) : checkTolerance tolerance = .ok () := by
  refine if_neg ?_
  rw [hfinite, Double.not_le_of_lt hpositive]
  simp

/-- One part in a thousand is such a tolerance. -/
theorem defaultTolerance_isTolerance : Scalar.isFinite (defaultTolerance : Float) = true ∧
    Scalar.lt Scalar.zero (defaultTolerance : Float) = true := by decide +kernel

end Position

namespace Placement

/-- **Noise is filtered out** of an argument: it is refused, or what passes are positions in the same
brackets, with distances in the unit interval. -/
def Filtered (tolerance : Float) (p : Placement Float) : Prop :=
  Refused .outOfRange (p.clamp tolerance) ∨
    ∃ r, p.clamp tolerance = .ok r ∧ r.indices = p.indices ∧ ∀ x ∈ r.distances, Position.InUnit x

/-- What passes is filtered if it is made of numbers. -/
theorem filtered_iff_of_ok {tolerance : Float} {p : Placement Float}
    (h : p.clamp tolerance = .ok (p.map Position.clipped)) :
    p.Filtered tolerance ↔ ∀ x ∈ p.distances, Scalar.isNaN x = false := by
  constructor
  · rintro (hrefused | ⟨r, hr, -, hunit⟩) x hx
    · exact (hrefused.not_ok ⟨_, h⟩).elim
    · obtain rfl : p.map Position.clipped = r := Except.ok.inj (h.symm.trans hr)
      rw [distances_map_clipped] at hunit
      exact Position.inUnit_clip_iff.1 (hunit _ (List.mem_map_of_mem hx))
  · intro hnumbers
    refine .inr ⟨_, h, p.indices_map_clipped, ?_⟩
    rw [distances_map_clipped, List.forall_mem_map]
    exact fun x hx => Position.inUnit_clip (hnumbers x hx)

/-- **Removal of noise is a filter for numbers**, and for nothing else.  Arguments are refused for the
distances that are beyond repair, and for no others.  Of an argument that passes, the brackets stay and
each distance that is a number is moved into the unit interval, while one that is not a number stays.
So noise is filtered out exactly if a distance is beyond repair or all are numbers. -/
theorem clamp_filters_iff {tolerance : Float} (hfinite : Scalar.isFinite tolerance = true)
    (hpositive : Scalar.lt Scalar.zero tolerance = true) (p : Placement Float) :
    (p.Filtered tolerance ↔ (∃ x ∈ p.distances, Position.isBad tolerance x = true) ∨
        ∀ x ∈ p.distances, Scalar.isNaN x = false) ∧
      (Refused .outOfRange (p.clamp tolerance) ↔
        ∃ x ∈ p.distances, Position.isBad tolerance x = true) ∧
      ((¬ ∃ x ∈ p.distances, Position.isBad tolerance x = true) →
        ∃ r, p.clamp tolerance = .ok r ∧ r.indices = p.indices ∧
          List.Forall₂ (fun x y => (Scalar.isNaN x = false ∧ Position.InUnit y) ∨
            (Scalar.isNaN x = true ∧ y = x)) p.distances r.distances) := by
  rcases p.clamp_cases (Position.checkTolerance_eq_ok hfinite hpositive) with
    ⟨hrefused, hbad⟩ | ⟨hclamp, hgood⟩
  · exact ⟨iff_of_true (.inl hrefused) (.inl hbad), iff_of_true hrefused hbad,
      fun hgood => (hgood hbad).elim⟩
  · refine ⟨?_, iff_of_false (fun h => h.not_ok ⟨_, hclamp⟩) hgood, fun _ => ?_⟩
    · rw [filtered_iff_of_ok hclamp]
      exact (or_iff_right hgood).symm
    · refine ⟨_, hclamp, p.indices_map_clipped, ?_⟩
      rw [distances_map_clipped, List.forall₂_map_right_iff, List.forall₂_same]
      intro x _
      cases hx : Scalar.isNaN x with
      | false => exact .inl ⟨rfl, Position.inUnit_clip hx⟩
      | true => exact .inr ⟨rfl, Position.clip_of_isNaN hx⟩

/-- Noise on both sides of the interval. -/
theorem clamp_filters_noise :
    let p : Placement Float := many (Column.ofPositions [⟨1, 1.0005, -0.0005⟩, ⟨4, 0.25, 0.75⟩])
    p.Filtered Position.defaultTolerance ∧
      ∃ r, p.clamp Position.defaultTolerance = .ok r ∧ r.indices = [1, 4] := by
  intro p
  obtain ⟨hfinite, hpositive⟩ := Position.defaultTolerance_isTolerance
  obtain ⟨hfiltered, -, hpasses⟩ := clamp_filters_iff hfinite hpositive p
  have hnumbers : ∀ x ∈ p.distances, Scalar.isNaN x = false := by decide +kernel
  have hgood : ¬ ∃ x ∈ p.distances, Position.isBad Position.defaultTolerance x = true := by
    decide +kernel
  obtain ⟨r, hr, hindices, -⟩ := hpasses hgood
  exact ⟨hfiltered.2 (.inr hnumbers), r, hr, hindices⟩

/-- What is not a number passes.  A position whose distances are none comes out as it went in, and
they are not in the unit interval. -/
theorem clamp_passes_nan :
    let nan : Float := 0 / 0
    let p : Placement Float := one ⟨0, nan, nan⟩
    Scalar.isFinite (Position.defaultTolerance : Float) = true ∧
      Scalar.lt Scalar.zero (Position.defaultTolerance : Float) = true ∧
      p.clamp Position.defaultTolerance = .ok p ∧ ¬ p.Filtered Position.defaultTolerance := by
  intro nan p
  obtain ⟨hfinite, hpositive⟩ := Position.defaultTolerance_isTolerance
  have hnan : Scalar.isNaN nan = true := by decide +kernel
  have hgood : ¬ ∃ x ∈ p.distances, Position.isBad Position.defaultTolerance x = true := by
    decide +kernel
  have hclamp : p.clamp Position.defaultTolerance = .ok (p.map Position.clipped) := by
    rcases p.clamp_cases (Position.checkTolerance_eq_ok hfinite hpositive) with
      ⟨-, hbad⟩ | ⟨hclamp, -⟩
    · exact (hgood hbad).elim
    · exact hclamp
  have hsame : p.map Position.clipped = p := by
    show one ⟨0, Position.clip nan, Position.clip nan⟩ = one ⟨0, nan, nan⟩
    rw [Position.clip_of_isNaN hnan]
  refine ⟨hfinite, hpositive, hclamp.trans (congrArg _ hsame), ?_⟩
  rw [filtered_iff_of_ok hclamp]
  intro hnumbers
  exact Bool.false_ne_true ((hnumbers nan (List.mem_cons_self ..)).symm.trans hnan)

end Placement
end Regrid
