import Regrid.Proofs.Choices

/-!
# Selected entries

`Column.pick` takes the entries of a row at a list of places.  Places may stand in any
order and more than once; as long as all of them are places of the row, the selection has
one entry for each (`getElem?_pick`).  Places that are those of the row in another order
select the row in another order, so nothing is lost (`mem_pick_of_perm`).

Rows that stand side by side can be selected from before they are put together or
afterwards (`Weights.sideBySide_pick`), and a choice from selections is the choice that the
selected places make (`Sample.entries?_pick`).
-/
namespace Regrid

variable {α β γ : Type}

namespace Column

/-! ## One row -/

theorem pick_cons (xs : List β) (k : Nat) (keys : List Nat) :
    pick xs (k :: keys) = xs[k]?.toList ++ pick xs keys := by
  rw [pick, List.filterMap_cons]
  cases xs[k]? <;> rfl

theorem pick_map (f : β → γ) (xs : List β) (keys : List Nat) :
    pick (xs.map f) keys = (pick xs keys).map f := by
  simp [pick, List.map_filterMap, List.getElem?_map]

theorem mem_of_mem_pick {xs : List β} {keys : List Nat} {x : β} (h : x ∈ pick xs keys) : x ∈ xs := by
  obtain ⟨k, -, hk⟩ := List.mem_filterMap.1 h
  exact List.mem_of_getElem? hk

variable {xs : List β} {keys : List Nat}

/-- **An entry of a selection** is the one at the selected place. -/
theorem getElem?_pick (h : ∀ k ∈ keys, k < xs.length) (i : Nat) :
    (pick xs keys)[i]? = keys[i]?.bind (xs[·]?) := by
  induction keys generalizing i with
  | nil => rfl
  | cons k keys ih =>
    obtain ⟨hk, hkeys⟩ := List.forall_mem_cons.1 h
    rw [pick_cons, List.getElem?_eq_getElem hk]
    cases i with
    | zero => simp [List.getElem?_eq_getElem hk]
    | succ i => simpa using ih hkeys i

theorem length_pick_eq (h : ∀ k ∈ keys, k < xs.length) : (pick xs keys).length = keys.length := by
  induction keys with
  | nil => rfl
  | cons k keys ih =>
    obtain ⟨hk, hkeys⟩ := List.forall_mem_cons.1 h
    rw [pick_cons, List.getElem?_eq_getElem hk, List.length_append, ih hkeys, List.length_cons,
      Nat.add_comm]
    rfl

/-- Related rows have related selections. -/
theorem forall₂_pick {R : α → β → Prop} {as : List α} {bs : List β} (h : List.Forall₂ R as bs)
    (keys : List Nat) : List.Forall₂ R (pick as keys) (pick bs keys) := by
  induction keys with
  | nil => exact .nil
  | cons k keys ih =>
    rw [pick_cons, pick_cons]
    by_cases hk : k < as.length
    · have hk' : k < bs.length := h.length_eq ▸ hk
      rw [List.getElem?_eq_getElem hk, List.getElem?_eq_getElem hk']
      exact .cons ((List.forall₂_iff_get.1 h).2 k hk hk') ih
    · have hk' : ¬ k < bs.length := h.length_eq ▸ hk
      rw [List.getElem?_eq_none (not_lt.1 hk), List.getElem?_eq_none (not_lt.1 hk')]
      exact ih

/-! ## Another order -/

/-- The places of a row in another order are places of the row. -/
theorem lt_of_mem_perm {n : Nat} (h : keys.Perm (List.range n)) : ∀ k ∈ keys, k < n := by
  intro k hk
  exact List.mem_range.1 (h.mem_iff.1 hk)

/-- **In another order nothing is lost.** -/
theorem mem_pick_of_perm (h : keys.Perm (List.range xs.length)) {x : β} :
    x ∈ pick xs keys ↔ x ∈ xs := by
  refine ⟨mem_of_mem_pick, fun hx => ?_⟩
  obtain ⟨k, hk, rfl⟩ := List.mem_iff_getElem.1 hx
  refine List.mem_filterMap.2 ⟨k, h.mem_iff.2 (List.mem_range.2 hk), ?_⟩
  rw [List.getElem?_eq_getElem hk]

theorem length_pick_of_perm (h : keys.Perm (List.range xs.length)) :
    (pick xs keys).length = xs.length := by
  rw [length_pick_eq (lt_of_mem_perm h), h.length_eq, List.length_range]

/-- All places in their order. -/
theorem pick_range (xs : List β) : pick xs (List.range xs.length) = xs := by
  refine List.ext_getElem? fun i => ?_
  rw [getElem?_pick fun k hk => List.mem_range.1 hk]
  by_cases hi : i < xs.length
  · rw [List.getElem?_range hi, Option.bind_some]
  · rw [List.getElem?_eq_none (by simpa using hi), List.getElem?_eq_none (not_lt.1 hi),
      Option.bind_none]

/-- Another order is a permutation of the row. -/
theorem pick_perm (h : keys.Perm (List.range xs.length)) : (pick xs keys).Perm xs :=
  (h.filterMap (xs[·]?)).trans (by rw [← pick, pick_range])

/-- Rows that are put together have their selections put together. -/
theorem pick_zipWith (f : α → β → γ) {as : List α} {bs : List β} (hlen : as.length = bs.length)
    (keys : List Nat) :
    pick (List.zipWith f as bs) keys = List.zipWith f (pick as keys) (pick bs keys) := by
  induction keys with
  | nil => rfl
  | cons k keys ih =>
    rw [pick_cons, pick_cons, pick_cons, ih, List.getElem?_zipWith]
    by_cases hk : k < as.length
    · rw [List.getElem?_eq_getElem hk, List.getElem?_eq_getElem (hlen ▸ hk)]
      rfl
    · rw [List.getElem?_eq_none (not_lt.1 hk), List.getElem?_eq_none (hlen ▸ not_lt.1 hk)]
      rfl

/-- The order that undoes an order: for each place, where it went. -/
def inverse (keys : List Nat) : List Nat := (List.range keys.length).map keys.idxOf

@[simp] theorem length_inverse (keys : List Nat) : (inverse keys).length = keys.length := by
  simp [inverse]

theorem getElem?_inverse {k : Nat} (hk : k < keys.length) :
    (inverse keys)[k]? = some (keys.idxOf k) := by
  rw [inverse, List.getElem?_map, List.getElem?_range hk]
  rfl

variable {n : Nat} (h : keys.Perm (List.range n))
include h

theorem length_of_perm_range : keys.length = n := by rw [h.length_eq, List.length_range]

/-- Where a place went it is read. -/
theorem getElem?_idxOf {k : Nat} (hk : k < n) : keys[keys.idxOf k]? = some k := by
  have hmem : k ∈ keys := h.mem_iff.2 (List.mem_range.2 hk)
  rw [List.getElem?_eq_getElem (List.idxOf_lt_length_of_mem hmem), List.getElem_idxOf]

theorem idxOf_getElem? {j k : Nat} (hjk : keys[j]? = some k) : keys.idxOf k = j := by
  obtain ⟨hj, rfl⟩ := List.getElem?_eq_some_iff.1 hjk
  exact (h.nodup_iff.2 List.nodup_range).idxOf_getElem j hj

theorem lt_of_mem_inverse : ∀ k ∈ inverse keys, k < n := by
  intro j hj
  obtain ⟨k, hk, rfl⟩ := List.mem_map.1 hj
  rw [length_of_perm_range h, List.mem_range] at hk
  have hread := getElem?_idxOf h hk
  have hlt := (List.getElem?_eq_some_iff.1 hread).1
  rwa [length_of_perm_range h] at hlt

/-- The order is undone. -/
theorem pick_inverse (hlen : xs.length = n) : pick (pick xs keys) (inverse keys) = xs := by
  subst hlen
  have hkeys := length_of_perm_range h
  refine List.ext_getElem? fun k => ?_
  rw [getElem?_pick (by rw [length_pick_of_perm h]; exact lt_of_mem_inverse h)]
  by_cases hk : k < xs.length
  · rw [getElem?_inverse (by omega), Option.bind_some, getElem?_pick (lt_of_mem_perm h),
      getElem?_idxOf h hk, Option.bind_some]
  · rw [List.getElem?_eq_none (by simpa [hkeys] using hk), List.getElem?_eq_none (not_lt.1 hk),
      Option.bind_none]

theorem pick_of_inverse (hlen : xs.length = n) : pick (pick xs (inverse keys)) keys = xs := by
  subst hlen
  have hkeys := length_of_perm_range h
  have hpick : (pick xs (inverse keys)).length = xs.length := by
    rw [length_pick_eq (lt_of_mem_inverse h), length_inverse, hkeys]
  refine List.ext_getElem? fun j => ?_
  rw [getElem?_pick (by rw [hpick]; exact lt_of_mem_perm h)]
  by_cases hj : j < xs.length
  · have hread : keys[j]? = some keys[j] := List.getElem?_eq_getElem (by omega)
    have hlt := lt_of_mem_perm h keys[j] (List.getElem_mem _)
    rw [hread, Option.bind_some, getElem?_pick (lt_of_mem_inverse h),
      getElem?_inverse (by omega), idxOf_getElem? h hread, Option.bind_some]
  · rw [List.getElem?_eq_none (by omega), List.getElem?_eq_none (not_lt.1 hj), Option.bind_none]

/-- Rows of one length are told apart by their selections. -/
theorem eq_of_pick_eq {ys : List β} (hx : xs.length = n) (hy : ys.length = n)
    (heq : pick xs keys = pick ys keys) : xs = ys := by
  rw [← pick_inverse h hx, heq, pick_inverse h hy]

/-- Related rows are those with related selections. -/
theorem forall₂_pick_iff {R : α → β → Prop} {as : List α} {bs : List β} (ha : as.length = n)
    (hb : bs.length = n) : List.Forall₂ R (pick as keys) (pick bs keys) ↔ List.Forall₂ R as bs := by
  refine ⟨fun hpick => ?_, fun hrel => forall₂_pick hrel keys⟩
  have hback := forall₂_pick hpick (inverse keys)
  rwa [pick_inverse h ha, pick_inverse h hb] at hback

end Column

/-! ## Several rows -/

/-- **Selecting side by side**: the same places of every row select those places of the
lists that stand side by side. -/
theorem Weights.sideBySide_pick {lists : List (List β)} (hne : lists ≠ []) {n : Nat}
    (hlen : ∀ xs ∈ lists, xs.length = n) {keys : List Nat} (hkeys : ∀ k ∈ keys, k < n) :
    sideBySide (lists.map (Column.pick · keys)) = Column.pick (sideBySide lists) keys := by
  have hside : (sideBySide lists).length = n := length_sideBySide hne hlen
  have hne' : lists.map (Column.pick · keys) ≠ [] := by simpa using hne
  refine List.ext_getElem? fun i => Option.ext fun ys => ?_
  rw [Sample.getElem?_sideBySide hne', List.forall₂_map_left_iff,
    Column.getElem?_pick (by rwa [hside]), Option.bind_eq_some_iff]
  -- Every row has the same number of places, so each is read at the same place.
  have hread : ∀ xs ∈ lists, (Column.pick xs keys)[i]? = keys[i]?.bind (xs[·]?) := by
    intro xs hxs
    rw [Column.getElem?_pick]
    rwa [hlen xs hxs]
  cases hk : keys[i]? with
  | none =>
    obtain ⟨xs, rest, rfl⟩ := List.exists_cons_of_ne_nil hne
    have hnone := hread xs (List.mem_cons_self ..)
    rw [hk, Option.bind_none] at hnone
    constructor
    · intro h
      obtain ⟨y, zs, hy, -, -⟩ := List.forall₂_cons_left_iff.1 h
      rw [hnone] at hy
      cases hy
    · rintro ⟨k, h, -⟩
      cases h
  | some k =>
    have hiff : List.Forall₂ (fun (xs : List β) y => (Column.pick xs keys)[i]? = some y) lists ys ↔
        List.Forall₂ (fun (xs : List β) y => xs[k]? = some y) lists ys := by
      rw [List.forall₂_iff_zip, List.forall₂_iff_zip]
      refine and_congr_right fun _ => forall₂_congr fun xs y => ?_
      refine forall_congr' fun hmem => ?_
      rw [hread xs (List.of_mem_zip hmem).1, hk, Option.bind_some]
    rw [hiff, ← Sample.getElem?_sideBySide hne]
    simp

/-- Rows in another order have the same entries, and as many. -/
theorem Column.zipWith_pick_of_perm {lists : List (List β)} {keys : List (List Nat)}
    (h : List.Forall₂ (fun (xs : List β) ks => ks.Perm (List.range xs.length)) lists keys) :
    List.Forall₂ (fun xs ys => ∀ x, x ∈ xs ↔ x ∈ ys) lists (List.zipWith pick lists keys) ∧
      (List.zipWith pick lists keys).map List.length = lists.map List.length := by
  induction h with
  | nil => exact ⟨.nil, rfl⟩
  | cons head _ ih =>
    refine ⟨.cons (fun x => (mem_pick_of_perm head).symm) ih.1, ?_⟩
    rw [List.zipWith_cons_cons, List.map_cons, List.map_cons, ih.2, length_pick_of_perm head]

/-- Selections are as long as the lists of places that they are made with. -/
theorem Column.length_zipWith_pick {lists : List (List β)} {keys : List (List Nat)}
    (h : List.Forall₂ (fun (xs : List β) ks => ∀ k ∈ ks, k < xs.length) lists keys) :
    (List.zipWith pick lists keys).map List.length = keys.map List.length := by
  induction h with
  | nil => rfl
  | cons head _ ih =>
    rw [List.zipWith_cons_cons, List.map_cons, List.map_cons, ih, length_pick_eq head]

/-- Places of the rows make a choice. -/
theorem Sample.exists_entries?_of_lt {lists : List (List β)} {keys : List (List Nat)}
    (h : List.Forall₂ (fun (xs : List β) ks => ∀ k ∈ ks, k < xs.length) lists keys)
    {ix jx : List Nat} (hjx : entries? keys ix = some jx) : ∃ ys, entries? lists jx = some ys := by
  induction h generalizing ix jx with
  | nil =>
    cases ix with
    | nil =>
      cases hjx
      exact ⟨[], rfl⟩
    | cons i is => cases hjx
  | @cons xs ks lists keys head _ ih =>
    cases ix with
    | nil => cases hjx
    | cons i is =>
      obtain ⟨k, ls, hk, hls, rfl⟩ := entries?_cons_eq_some_iff.1 hjx
      obtain ⟨ys, hys⟩ := ih hls
      have hlt := head k (List.mem_of_getElem? hk)
      exact ⟨xs[k] :: ys,
        entries?_cons_eq_some_iff.2 ⟨_, ys, List.getElem?_eq_getElem hlt, hys, rfl⟩⟩

/-- **A choice from selections** is the choice that the selected places make. -/
theorem Sample.entries?_pick {lists : List (List β)} {keys : List (List Nat)}
    (h : List.Forall₂ (fun (xs : List β) ks => ∀ k ∈ ks, k < xs.length) lists keys)
    (ix : List Nat) :
    entries? (List.zipWith Column.pick lists keys) ix = (entries? keys ix).bind (entries? lists) := by
  induction h generalizing ix with
  | nil => cases ix <;> rfl
  | @cons xs ks lists keys head _ ih =>
    cases ix with
    | nil => rfl
    | cons i is =>
      rw [List.zipWith_cons_cons, entries?, Column.getElem?_pick head, ih, entries?]
      cases ks[i]? with
      | none => rfl
      | some k =>
        cases entries? keys is with
        | none =>
          simp only [Option.bind_some, Option.bind_none, Option.map_none]
          cases xs[k]? <;> rfl
        | some jx => simp [entries?]

/-- What selections have at one place is the choice that the places there make. -/
theorem Sample.exists_entriesAt_pick {lists : List (List β)} {keys : List (List Nat)}
    (h : List.Forall₂ (fun (xs : List β) ks => ∀ k ∈ ks, k < xs.length) lists keys) {i : Nat}
    {jx : List Nat} (hjx : List.Forall₂ (fun (ks : List Nat) k => ks[i]? = some k) keys jx) :
    ∃ ys, entries? lists jx = some ys ∧
      List.Forall₂ (fun (xs : List β) y => xs[i]? = some y) (List.zipWith Column.pick lists keys)
        ys := by
  induction h generalizing jx with
  | nil =>
    cases hjx
    exact ⟨[], rfl, .nil⟩
  | @cons xs ks lists keys head _ ih =>
    obtain ⟨k, ls, hk, hls, rfl⟩ := List.forall₂_cons_left_iff.1 hjx
    obtain ⟨ys, hys, hall⟩ := ih hls
    have hlt := head k (List.mem_of_getElem? hk)
    have hx : xs[k]? = some xs[k] := List.getElem?_eq_getElem hlt
    refine ⟨xs[k] :: ys, entries?_cons_eq_some_iff.2 ⟨_, ys, hx, hys, rfl⟩, .cons ?_ hall⟩
    rw [Column.getElem?_pick head, hk, Option.bind_some, hx]

end Regrid
