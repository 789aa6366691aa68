import Regrid.Proofs.Arrays
import Regrid.Proofs.Choices
import Regrid.Proofs.Locate.Mirror
import Regrid.Proofs.Sample.Cells

/-!
# Flipped fields

A field is flipped along some of its axes: the entry at a multi-index becomes that at the
multi-index which counts from the other end on these axes (`NdArray.flipped`).  To flip twice
is to flip not at all (`NdArray.flipped_flipped`).

If the grids of these axes are mirrored as well, nothing changes in a cell: the value of the
flipped field at the mirrored positions is that of the field (`Cell.value_mirrored`), and so
the values at the positions of one query in the grids and in the mirrored grids are the same
(`Cell.value_flipped`).
-/
namespace Regrid

/-! ## Flagged entries -/

/-- What is done to the flagged entries of a list; the others stay as they are. -/
def doWhere {β : Type} (f : β → β) (flags : List Bool) (xs : List β) : List β :=
  List.zipWith (fun b x => if b then f x else x) flags xs

section Flags
variable {β γ : Type} {f : β → β} {flags : List Bool} {xs : List β}

@[simp] theorem doWhere_cons (b : Bool) (x : β) :
    doWhere f (b :: flags) (x :: xs) = (if b then f x else x) :: doWhere f flags xs := rfl

theorem length_doWhere (h : flags.length = xs.length) : (doWhere f flags xs).length = xs.length := by
  rw [doWhere, List.length_zipWith, h, Nat.min_self]

theorem mem_doWhere {y : β} (h : y ∈ doWhere f flags xs) : ∃ x ∈ xs, y = x ∨ y = f x := by
  induction flags generalizing xs with
  | nil => cases h
  | cons b flags ih =>
    cases xs with
    | nil => cases h
    | cons x xs =>
      rw [doWhere_cons] at h
      rcases List.mem_cons.1 h with rfl | hmem
      · cases b with
        | true => exact ⟨x, List.mem_cons_self .., .inr rfl⟩
        | false => exact ⟨x, List.mem_cons_self .., .inl rfl⟩
      · obtain ⟨x', hx', hy⟩ := ih hmem
        exact ⟨x', List.mem_cons_of_mem _ hx', hy⟩

/-- What undoes itself undoes itself on the flagged entries. -/
theorem doWhere_doWhere (hf : ∀ x, f (f x) = x) (h : flags.length = xs.length) :
    doWhere f flags (doWhere f flags xs) = xs := by
  induction flags generalizing xs with
  | nil => exact (List.length_eq_zero_iff.1 h.symm).symm
  | cons b flags ih =>
    cases xs with
    | nil => cases h
    | cons x xs =>
      rw [doWhere_cons, doWhere_cons, ih (Nat.succ.inj h)]
      cases b with
      | true => exact congrArg (· :: xs) (hf x)
      | false => rfl

theorem map_doWhere {g : β → γ} {f' : γ → γ} (h : ∀ x, g (f x) = f' (g x)) :
    (doWhere f flags xs).map g = doWhere f' flags (xs.map g) := by
  induction flags generalizing xs with
  | nil => rfl
  | cons b flags ih =>
    cases xs with
    | nil => rfl
    | cons x xs =>
      rw [doWhere_cons, List.map_cons, List.map_cons, doWhere_cons, ih]
      cases b with
      | true => exact congrArg (· :: _) (h x)
      | false => rfl

/-- What does not change what is looked at changes nothing. -/
theorem map_doWhere_eq {g : β → γ} (hlen : flags.length = xs.length) (h : ∀ x, g (f x) = g x) :
    (doWhere f flags xs).map g = xs.map g := by
  induction flags generalizing xs with
  | nil =>
    obtain rfl := List.length_eq_zero_iff.1 hlen.symm
    rfl
  | cons b flags ih =>
    cases xs with
    | nil => cases hlen
    | cons x xs =>
      rw [doWhere_cons, List.map_cons, List.map_cons, ih (Nat.succ.inj hlen)]
      cases b with
      | true => exact congrArg (· :: _) (h x)
      | false => rfl

end Flags

/-! ## Multi-indices from the other end -/

/-- The multi-index that counts from the other end along the flagged axes. -/
def mirrorIndex : List Bool → List Nat → List Int → List Int
  | b :: bs, n :: ns, i :: is => (if b then n - 1 - i else i) :: mirrorIndex bs ns is
  | _, _, ix => ix

theorem mirrorIndex_mirrorIndex (flags : List Bool) (shape : List Nat) (ix : List Int) :
    mirrorIndex flags shape (mirrorIndex flags shape ix) = ix := by
  fun_induction mirrorIndex flags shape ix with
  | case1 b bs n ns i is ih =>
    rw [mirrorIndex, ih]
    cases b with
    | true => exact congrArg (· :: is) (sub_sub_cancel ..)
    | false => rfl
  | case2 flags shape ix h =>
    unfold mirrorIndex
    split
    · next b bs n ns i is => exact absurd rfl (h b bs n ns i is rfl rfl)
    · rfl

namespace NdArray

theorem inside_mirrorIndex (flags : List Bool) {shape : List Nat} {ix : List Int}
    (h : Inside shape ix) : Inside shape (mirrorIndex flags shape ix) := by
  fun_induction mirrorIndex flags shape ix with
  | case1 b bs n ns i is ih =>
    obtain ⟨hi, his⟩ := h
    refine ⟨?_, ih his⟩
    cases b with
    | true =>
      show 0 ≤ (n : Int) - 1 - i ∧ (n : Int) - 1 - i < n
      omega
    | false => exact hi
  | case2 flags shape ix _ => exact h

theorem inside_cast {shape ix : List Nat} (h : (place? shape ix).isSome) :
    Inside shape (ix.map Nat.cast) := by
  induction shape generalizing ix with
  | nil =>
    cases ix with
    | nil => trivial
    | cons i is => cases h
  | cons n ns ih =>
    cases ix with
    | nil => cases h
    | cons i is =>
      obtain ⟨hi, his⟩ := place?_isSome_cons.1 h
      exact ⟨⟨Int.natCast_nonneg i, by exact_mod_cast hi⟩, ih his⟩

theorem cast_toNat_of_inside {shape : List Nat} {ix : List Int} (h : Inside shape ix) :
    (ix.map Int.toNat).map Nat.cast = ix := by
  fun_induction Inside shape ix with
  | case1 => rfl
  | case2 n ns i is ih =>
    rw [List.map_cons, List.map_cons, ih h.2, Int.toNat_of_nonneg h.1.1]
  | case3 => exact h.elim

/-! ## Tables -/

/-- The array of a shape with a given entry at each multi-index. -/
def tabulate {α : Type} (shape : List Nat) (f : List Nat → α) : NdArray α :=
  ⟨shape, ((Sample.mesh (shape.map List.range)).map f).toArray, by
    simp [Sample.length_mesh, Function.comp_def]⟩

/-- A multi-index is what it chooses from the indices of the axes. -/
theorem entries?_range {shape ix : List Nat} (h : (place? shape ix).isSome) :
    Sample.entries? (shape.map List.range) ix = some ix := by
  induction shape generalizing ix with
  | nil =>
    cases ix with
    | nil => rfl
    | cons i is => cases h
  | cons n ns ih =>
    cases ix with
    | nil => cases h
    | cons i is =>
      obtain ⟨hi, his⟩ := place?_isSome_cons.1 h
      exact Sample.entries?_cons_eq_some_iff.2 ⟨i, is, List.getElem?_range hi, ih his, rfl⟩

theorem get?_tabulate {α : Type} {shape ix : List Nat} (f : List Nat → α)
    (h : (place? shape ix).isSome) : (tabulate shape f).get? ix = some (f ix) := by
  obtain ⟨r, hr⟩ := Option.isSome_iff_exists.1 h
  have hlengths : (shape.map List.range).map List.length = shape := by
    simp [Function.comp_def]
  have hplace : place? ((shape.map List.range).map List.length) ix = some r := by
    rw [hlengths, hr]
  rw [get?_eq_toList, tabulate, toList, hr, Option.bind_some, List.toList_toArray, List.getElem?_map,
    Sample.getElem?_mesh hplace, entries?_range h]
  rfl

variable {K : Type} [Field K]

/-- Arrays of one shape with the same entries inside it are one. -/
theorem ext_entry {a b : NdArray K} (hshape : a.shape = b.shape)
    (h : ∀ ix, Inside a.shape ix → a.entry ix = b.entry ix) : a = b := by
  refine ext_get? hshape fun ix hix => ?_
  have hentry := h _ (inside_cast hix)
  obtain ⟨v, hv⟩ := Option.isSome_iff_exists.1 ((a.get?_isSome_iff ix).2 hix)
  obtain ⟨w, hw⟩ := Option.isSome_iff_exists.1 ((b.get?_isSome_iff ix).2 (by rwa [← hshape]))
  rw [entry_cast, entry_cast, hv, hw] at hentry
  rw [hv, hw]
  exact congrArg some hentry

/-! ## Flipping -/

/-- The row from its other end. -/
def reversed {α : Type} (a : NdArray α) : NdArray α :=
  ⟨a.shape, a.data.reverse, by rw [Array.size_reverse, a.size_eq]⟩

@[simp] theorem toList_reversed {α : Type} (a : NdArray α) :
    a.reversed.toList = a.toList.reverse := by
  simp [reversed, toList]

theorem reversed_vector {α : Type} (xs : List α) : (vector xs).reversed = vector xs.reverse := by
  refine ext_toList ?_ (by rw [toList_reversed, toList_vector, toList_vector])
  rw [shape_vector, List.length_reverse]
  rfl

theorem reversed_reversed {α : Type} (a : NdArray α) : a.reversed.reversed = a :=
  ext_toList rfl (by rw [toList_reversed, toList_reversed, List.reverse_reverse])

/-- **The field flipped** along the flagged axes. -/
def flipped (flags : List Bool) (a : NdArray K) : NdArray K :=
  tabulate a.shape fun ix => a.entry (mirrorIndex flags a.shape (ix.map Nat.cast))

@[simp] theorem shape_flipped (flags : List Bool) (a : NdArray K) :
    (a.flipped flags).shape = a.shape := rfl

theorem entry_flipped (flags : List Bool) (a : NdArray K) {ix : List Int} (h : Inside a.shape ix) :
    (a.flipped flags).entry ix = a.entry (mirrorIndex flags a.shape ix) := by
  rw [entry, flipped, get?_tabulate _ (place?_isSome_of_inside h), cast_toNat_of_inside h]
  rfl

/-- **Flipping undoes itself.** -/
theorem flipped_flipped (flags : List Bool) (a : NdArray K) :
    (a.flipped flags).flipped flags = a := by
  refine ext_entry rfl fun ix hix => ?_
  have hix : Inside a.shape ix := hix
  rw [entry_flipped flags (a.flipped flags) hix, shape_flipped,
    entry_flipped flags a (inside_mirrorIndex flags hix), mirrorIndex_mirrorIndex]

end NdArray

/-! ## Cells -/

namespace Cell

variable {K : Type} [Field K]

/-- The positions seen from the other end along the flagged axes. -/
def mirrored : List Bool → List Nat → List (Position K) → List (Position K)
  | b :: bs, n :: ns, p :: ps => (if b then p.mirrored n else p) :: mirrored bs ns ps
  | _, _, ps => ps

/-- **From the other end** the value in a cell is the same, of what is given at the multi-indices
that count from there. -/
theorem value_mirrored (flags : List Bool) (shape : List Nat) (ps : List (Position K))
    (f : List Int → K) :
    value (mirrored flags shape ps) f = value ps fun ix => f (mirrorIndex flags shape ix) := by
  induction ps generalizing flags shape f with
  | nil =>
    cases flags with
    | nil => rfl
    | cons b bs => cases shape <;> rfl
  | cons p ps ih =>
    match flags, shape with
    | [], _ => rfl
    | _ :: _, [] => rfl
    | b :: bs, n :: ns =>
      rw [mirrored, value, value]
      cases b with
      | true =>
        rw [if_pos rfl, Position.lerp_mirrored]
        exact congrArg p.lerp (funext fun i => ih bs ns _)
      | false => exact congrArg p.lerp (funext fun i => ih bs ns _)

/-- The value in a cell depends on its corners only. -/
theorem value_congr {shape : List Nat} {ps : List (Position K)}
    (h : List.Forall₂ Sample.Among shape ps) {f g : List Int → K}
    (hfg : ∀ ix, NdArray.Inside shape ix → f ix = g ix) : value ps f = value ps g := by
  induction h generalizing f g with
  | nil => exact hfg [] trivial
  | @cons n p shape ps head _ ih =>
    have hidx : 0 ≤ p.idx ∧ p.idx + 2 ≤ n := head
    rw [value, value, Position.lerp, Position.lerp,
      ih fun ix hix => hfg (p.idx :: ix) ⟨by omega, hix⟩,
      ih fun ix hix => hfg ((p.idx + 1) :: ix) ⟨by omega, hix⟩]

variable [LinearOrder K] {grids : List (List K)} {xs : List K} {ps qs : List (Position K)}

/-- Positions that fit have brackets of their grids. -/
theorem Fits.among (h : Fits grids xs ps) : List.Forall₂ Sample.Among (grids.map List.length) ps := by
  induction h with
  | nil => exact .nil
  | cons head _ ih => exact .cons ⟨head.nonneg, head.last⟩ ih

variable [IsStrictOrderedRing K]

theorem Fits.mirrored (h : Fits grids xs ps) {flags : List Bool}
    (hlen : flags.length = grids.length) :
    Fits (doWhere List.reverse flags grids) xs (Cell.mirrored flags (grids.map List.length) ps) := by
  induction h generalizing flags with
  | nil =>
    obtain rfl := List.length_eq_zero_iff.1 hlen
    exact .nil
  | cons head _ ih =>
    cases flags with
    | nil => cases hlen
    | cons b flags =>
      rw [doWhere_cons, List.map_cons, Cell.mirrored]
      refine .cons ?_ (ih (Nat.succ.inj hlen))
      cases b with
      | true => exact head.mirrored
      | false => exact head

/-- **A flipped field on mirrored grids** has the values of the field. -/
theorem value_flipped (hord : ∀ grid ∈ grids, ∃ d, Grid.Ordered d grid) {flags : List Bool}
    (hlen : flags.length = grids.length) (hp : Fits grids xs ps)
    (hq : Fits (doWhere List.reverse flags grids) xs qs) {field : NdArray K}
    (hshape : field.shape = grids.map List.length) :
    value qs (field.flipped flags).entry = value ps field.entry := by
  have hord' : ∀ grid ∈ doWhere List.reverse flags grids, ∃ d, Grid.Ordered d grid := by
    intro grid hgrid
    obtain ⟨g, hg, heq | heq⟩ := mem_doWhere hgrid
    · exact heq ▸ hord g hg
    · obtain ⟨d, hd⟩ := hord g hg
      subst heq
      exact ⟨d.opposite, hd.reverse⟩
  rw [value_eq_of_fits hord' hq (hp.mirrored hlen), value_mirrored]
  refine value_congr hp.among fun ix hix => ?_
  rw [← hshape] at hix ⊢
  rw [NdArray.entry_flipped _ _ (NdArray.inside_mirrorIndex flags hix), mirrorIndex_mirrorIndex]

end Cell
end Regrid
