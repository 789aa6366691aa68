import Regrid.Proofs.Addresses

/-!
# Choices from several lists

Of several lists, one for each axis, two enumerations of choices are made: the entries
that stand side by side (`Weights.sideBySide`), and all choices of one entry per list
(`Sample.mesh`).  Both commute with what is done to every entry, and a property of all
choices is one of all entries: for the mesh if no list is empty
(`Choices.forall₂_of_mesh`), and side by side if the lists are equally long
(`Choices.forall₂_of_entriesAt`).

A mesh laid out in columns, the last axis fastest, stands side by side as the mesh
(`Choices.sideBySide_meshColumns`).
-/
namespace Regrid

variable {α β γ : Type}

/-! ## Side by side -/

namespace Weights

theorem sideBySide_cons_cons (xs ys : List β) (rest : List (List β)) :
    sideBySide (xs :: ys :: rest) = List.zipWith List.cons xs (sideBySide (ys :: rest)) := rfl

theorem sideBySide_map (f : β → γ) (lists : List (List β)) :
    sideBySide (lists.map (List.map f)) = (sideBySide lists).map (List.map f) := by
  induction lists with
  | nil => rfl
  | cons xs rest ih =>
    cases rest with
    | nil => simp [sideBySide]
    | cons ys rest =>
      rw [List.map_cons, List.map_cons, sideBySide_cons_cons, ← List.map_cons, ih,
        sideBySide_cons_cons, List.zipWith_map, List.map_zipWith]
      rfl

theorem length_sideBySide {lists : List (List β)} (hne : lists ≠ []) {n : Nat}
    (hlen : ∀ xs ∈ lists, xs.length = n) : (sideBySide lists).length = n := by
  induction lists with
  | nil => exact absurd rfl hne
  | cons xs rest ih =>
    obtain ⟨hxs, hrest⟩ := List.forall_mem_cons.1 hlen
    cases rest with
    | nil => rw [sideBySide, List.length_map, hxs]
    | cons ys rest =>
      rw [sideBySide_cons_cons, List.length_zipWith, hxs, ih (List.cons_ne_nil _ _) hrest,
        Nat.min_self]

theorem mem_sideBySide {lists : List (List β)} (hne : lists ≠ []) {ys : List β}
    (h : ys ∈ sideBySide lists) : List.Forall₂ (· ∈ ·) ys lists := by
  obtain ⟨i, hi⟩ := List.mem_iff_getElem?.1 h
  exact ((Sample.getElem?_sideBySide hne).1 hi).flip.imp fun y xs => List.mem_of_getElem?

end Weights

/-! ## The mesh -/

namespace Sample

theorem mesh_map (f : β → γ) (lists : List (List β)) :
    mesh (lists.map (List.map f)) = (mesh lists).map (List.map f) := by
  induction lists with
  | nil => rfl
  | cons xs rest ih =>
    rw [List.map_cons, mesh, mesh, ih, List.flatMap_map, List.map_flatMap]
    refine List.flatMap_congr fun x _ => ?_
    rw [List.map_map, List.map_map]
    rfl

/-- One more list makes the last entry of every choice. -/
theorem mesh_concat (lists : List (List β)) (xs : List β) :
    mesh (lists ++ [xs]) = (mesh lists).flatMap fun ys => xs.map fun x => ys ++ [x] := by
  induction lists with
  | nil => simp [mesh, List.map_eq_flatMap]
  | cons ys rest ih =>
    rw [List.cons_append, mesh, ih, mesh, List.flatMap_assoc]
    refine List.flatMap_congr fun y _ => ?_
    rw [List.map_flatMap, List.flatMap_map]
    refine List.flatMap_congr fun zs _ => ?_
    rw [List.map_map]
    rfl

/-- The mesh of a single list is its sequence. -/
theorem mesh_singleton (xs : List β) : mesh [xs] = Weights.sideBySide [xs] := by
  simp [mesh, Weights.sideBySide, List.map_eq_flatMap]

/-- The mesh holds every choice. -/
theorem mem_mesh {lists : List (List β)} {ys : List β} :
    ys ∈ mesh lists ↔ List.Forall₂ (· ∈ ·) ys lists := by
  induction lists generalizing ys with
  | nil => rw [mesh, List.mem_singleton, List.forall₂_nil_right_iff]
  | cons xs rest ih =>
    rw [mesh, List.mem_flatMap, List.forall₂_cons_right_iff]
    constructor
    · rintro ⟨x, hx, hmem⟩
      obtain ⟨zs, hzs, rfl⟩ := List.mem_map.1 hmem
      exact ⟨x, zs, hx, ih.1 hzs, rfl⟩
    · rintro ⟨x, zs, hx, hzs, rfl⟩
      exact ⟨x, hx, List.mem_map_of_mem (ih.2 hzs)⟩

/-- The choices of the mesh are those of all multi-indices. -/
theorem mem_mesh_iff_entries? {lists : List (List β)} {ys : List β} :
    ys ∈ mesh lists ↔ ∃ ix, entries? lists ix = some ys := by
  induction lists generalizing ys with
  | nil =>
    rw [mesh, List.mem_singleton]
    constructor
    · rintro rfl
      exact ⟨[], rfl⟩
    · rintro ⟨ix, h⟩
      cases ix with
      | nil => exact (Option.some.inj h).symm
      | cons i is => cases h
  | cons xs rest ih =>
    rw [mem_mesh, List.forall₂_cons_right_iff]
    constructor
    · rintro ⟨x, zs, hx, hzs, rfl⟩
      obtain ⟨i, hi⟩ := List.mem_iff_getElem?.1 hx
      obtain ⟨is, his⟩ := ih.1 (mem_mesh.2 hzs)
      exact ⟨i :: is, entries?_cons_eq_some_iff.2 ⟨x, zs, hi, his, rfl⟩⟩
    · rintro ⟨ix, h⟩
      cases ix with
      | nil => cases h
      | cons i is =>
        obtain ⟨x, zs, hx, hzs, rfl⟩ := entries?_cons_eq_some_iff.1 h
        exact ⟨x, zs, List.mem_of_getElem? hx, mem_mesh.1 (ih.2 ⟨is, hzs⟩), rfl⟩

end Sample

namespace Choices

/-! ## Entries and choices -/

/-- Below the common length there is an entry of every list. -/
theorem exists_entriesAt {lists : List (List β)} {n i : Nat} (hi : i < n)
    (hlen : ∀ xs ∈ lists, xs.length = n) :
    ∃ ys, List.Forall₂ (fun (xs : List β) y => xs[i]? = some y) lists ys := by
  induction lists with
  | nil => exact ⟨[], .nil⟩
  | cons xs rest ih =>
    obtain ⟨hxs, hrest⟩ := List.forall_mem_cons.1 hlen
    obtain ⟨ys, hys⟩ := ih hrest
    exact ⟨xs[i] :: ys, .cons (List.getElem?_eq_getElem (hxs ▸ hi)) hys⟩

/-- **What holds of the entries at every place** holds of every entry. -/
theorem forall₂_of_entriesAt {R : α → β → Prop} {as : List α} {lists : List (List β)} {n : Nat}
    (hcount : as.length = lists.length) (hlen : ∀ xs ∈ lists, xs.length = n)
    (h : ∀ i < n, ∀ ys, List.Forall₂ (fun (xs : List β) y => xs[i]? = some y) lists ys →
      List.Forall₂ R as ys) :
    List.Forall₂ (fun a xs => ∀ x ∈ xs, R a x) as lists := by
  induction as generalizing lists with
  | nil =>
    obtain rfl := List.length_eq_zero_iff.1 hcount.symm
    exact .nil
  | cons a as ih =>
    cases lists with
    | nil => cases hcount
    | cons xs rest =>
      obtain ⟨hxs, hrest⟩ := List.forall_mem_cons.1 hlen
      refine .cons (fun x hx => ?_) (ih (Nat.succ.inj hcount) hrest fun i hi ys hys => ?_)
      · obtain ⟨i, hi, rfl⟩ := List.mem_iff_getElem.1 hx
        obtain ⟨ys, hys⟩ := exists_entriesAt (hxs ▸ hi) hrest
        exact (List.forall₂_cons.1
          (h i (hxs ▸ hi) (xs[i] :: ys) (.cons (List.getElem?_eq_getElem hi) hys))).1
      · have hlt : i < xs.length := hxs ▸ hi
        exact (List.forall₂_cons.1
          (h i hi (xs[i] :: ys) (.cons (List.getElem?_eq_getElem hlt) hys))).2

/-- If no list is empty there is a choice. -/
theorem exists_choice {lists : List (List β)} (hne : ∀ xs ∈ lists, xs ≠ []) :
    ∃ ys, List.Forall₂ (· ∈ ·) ys lists := by
  induction lists with
  | nil => exact ⟨[], .nil⟩
  | cons xs rest ih =>
    obtain ⟨hxs, hrest⟩ := List.forall_mem_cons.1 hne
    obtain ⟨x, hx⟩ := List.exists_mem_of_ne_nil xs hxs
    obtain ⟨ys, hys⟩ := ih hrest
    exact ⟨x :: ys, .cons hx hys⟩

/-- **What holds of every choice** holds of every entry, if no list is empty. -/
theorem forall₂_of_mesh {R : α → β → Prop} {as : List α} {lists : List (List β)}
    (hcount : as.length = lists.length) (hne : ∀ xs ∈ lists, xs ≠ [])
    (h : ∀ ys, List.Forall₂ (· ∈ ·) ys lists → List.Forall₂ R as ys) :
    List.Forall₂ (fun a xs => ∀ x ∈ xs, R a x) as lists := by
  induction as generalizing lists with
  | nil =>
    obtain rfl := List.length_eq_zero_iff.1 hcount.symm
    exact .nil
  | cons a as ih =>
    cases lists with
    | nil => cases hcount
    | cons xs rest =>
      obtain ⟨hxs, hrest⟩ := List.forall_mem_cons.1 hne
      refine .cons (fun x hx => ?_) (ih (Nat.succ.inj hcount) hrest fun ys hys => ?_)
      · obtain ⟨ys, hys⟩ := exists_choice hrest
        exact (List.forall₂_cons.1 (h (x :: ys) (.cons hx hys))).1
      · obtain ⟨x, hx⟩ := List.exists_mem_of_ne_nil xs hxs
        exact (List.forall₂_cons.1 (h (x :: ys) (.cons hx hys))).2

/-! ## Related lists -/

/-- What all entries of a list have in common is seen in what is made of them. -/
theorem forall_eq_of_map_eq {f : α → γ} {g : β → γ} {as : List α} {bs : List β} {c : γ}
    (h : as.map f = bs.map g) (hbs : ∀ b ∈ bs, g b = c) : ∀ a ∈ as, f a = c := by
  intro a ha
  have hmem : f a ∈ bs.map g := by
    rw [← h]
    exact List.mem_map_of_mem ha
  obtain ⟨b, hb, heq⟩ := List.mem_map.1 hmem
  rw [← heq, hbs b hb]

theorem forall₂_zipWith {α' β' γ' : Type} {R : α → α' → Prop} {S : β → β' → Prop}
    {T : γ → γ' → Prop} {f : α → β → γ} {g : α' → β' → γ'} {xs : List α} {xs' : List α'}
    {ys : List β} {ys' : List β'} (hx : List.Forall₂ R xs xs') (hy : List.Forall₂ S ys ys')
    (h : ∀ x x' y y', R x x' → S y y' → T (f x y) (g x' y')) :
    List.Forall₂ T (List.zipWith f xs ys) (List.zipWith g xs' ys') := by
  induction hx generalizing ys ys' with
  | nil => exact .nil
  | cons hx _ ih =>
    cases hy with
    | nil => exact .nil
    | cons hy htail => exact .cons (h _ _ _ _ hx hy) (ih htail)

/-- Entries of lists whose entries are all related are related. -/
theorem forall₂_of_mem {R : α → β → Prop} {as : List α} {lists : List (List β)} {bs : List β}
    (h : List.Forall₂ (fun a (xs : List β) => ∀ x ∈ xs, R a x) as lists)
    (hmem : List.Forall₂ (· ∈ ·) bs lists) : List.Forall₂ R as bs := by
  induction h generalizing bs with
  | nil =>
    cases hmem
    exact .nil
  | cons head _ ih =>
    obtain ⟨x, xs, hx, hxs, rfl⟩ := List.forall₂_cons_right_iff.1 hmem
    exact .cons (head x hx) (ih hxs)

/-- What holds of all entries holds of every choice. -/
theorem forall_mem_of_mem {P : β → Prop} {lists : List (List β)} {ys : List β}
    (hmem : List.Forall₂ (· ∈ ·) ys lists) (h : ∀ xs ∈ lists, ∀ x ∈ xs, P x) : ∀ y ∈ ys, P y := by
  induction hmem with
  | nil => exact List.forall_mem_nil _
  | cons head _ ih =>
    obtain ⟨hxs, hrest⟩ := List.forall_mem_cons.1 h
    exact List.forall_mem_cons.2 ⟨hxs _ head, ih hrest⟩

/-- Lists are related place by place. -/
theorem forall₂_iff_getElem? {R : α → β → Prop} {as : List α} {bs : List β} :
    List.Forall₂ R as bs ↔ as.length = bs.length ∧
      ∀ (j : Nat) (a : α) (b : β), as[j]? = some a → bs[j]? = some b → R a b := by
  rw [List.forall₂_iff_get]
  refine and_congr_right fun _ => ⟨fun h j a b ha hb => ?_, fun h j hj hj' => ?_⟩
  · obtain ⟨hj, rfl⟩ := List.getElem?_eq_some_iff.1 ha
    obtain ⟨hj', rfl⟩ := List.getElem?_eq_some_iff.1 hb
    exact h j hj hj'
  · exact h j _ _ (List.getElem?_eq_getElem hj) (List.getElem?_eq_getElem hj')

/-- What stands beside an entry is related to it. -/
theorem exists_getElem? {R : α → β → Prop} {xs : List α} {ys : List β}
    (h : List.Forall₂ R xs ys) {i : Nat} {x : α} (hx : xs[i]? = some x) :
    ∃ y, ys[i]? = some y ∧ R x y := by
  obtain ⟨hi, rfl⟩ := List.getElem?_eq_some_iff.1 hx
  have hi' : i < ys.length := h.length_eq ▸ hi
  exact ⟨ys[i], List.getElem?_eq_getElem hi', (List.forall₂_iff_get.1 h).2 i hi hi'⟩

/-- What holds of all entries holds of all entries beside them, if it may be told from either. -/
theorem forall_mem_iff {R : α → β → Prop} {P : α → Prop} {Q : β → Prop} {xs : List α} {ys : List β}
    (h : List.Forall₂ R xs ys) (hR : ∀ x y, R x y → (P x ↔ Q y)) :
    (∀ x ∈ xs, P x) ↔ ∀ y ∈ ys, Q y := by
  induction h with
  | nil => exact iff_of_true (List.forall_mem_nil _) (List.forall_mem_nil _)
  | cons head _ ih => rw [List.forall_mem_cons, List.forall_mem_cons, hR _ _ head, ih]

/-! ## A mesh in columns -/

/-- The mesh in columns: the entry of each list in all choices, in their order. -/
def meshColumns [Zero β] (lists : List (List β)) : List (List β) :=
  (List.range lists.length).map fun k => (Sample.mesh lists).map (·.getD k 0)

@[simp] theorem length_meshColumns [Zero β] (lists : List (List β)) :
    (meshColumns lists).length = lists.length := by
  rw [meshColumns, List.length_map, List.length_range]

theorem meshColumns_ne_nil [Zero β] {lists : List (List β)} (hne : lists ≠ []) :
    meshColumns lists ≠ [] := by
  intro hnil
  rw [← List.length_eq_zero_iff, length_meshColumns, List.length_eq_zero_iff] at hnil
  exact hne hnil

/-- Each column is as long as the mesh. -/
theorem length_of_mem_meshColumns [Zero β] {lists : List (List β)} {c : List β}
    (hc : c ∈ meshColumns lists) : c.length = (Sample.mesh lists).length := by
  obtain ⟨k, -, rfl⟩ := List.mem_map.1 hc
  exact List.length_map _

theorem map_getD_range (ys : List β) (default : β) :
    (List.range ys.length).map (ys.getD · default) = ys := by
  refine List.ext_getElem (by simp) fun i hi hi' => ?_
  rw [List.getElem_map, List.getElem_range, List.getD_eq_getElem _ _ hi']

/-- **The columns of a mesh stand side by side as the mesh.** -/
theorem sideBySide_meshColumns [Zero β] {lists : List (List β)} (hne : lists ≠ []) :
    Weights.sideBySide (meshColumns lists) = Sample.mesh lists := by
  have hcolumns := meshColumns_ne_nil hne
  have hlen := Weights.length_sideBySide hcolumns fun c hc => length_of_mem_meshColumns hc
  refine List.ext_getElem hlen fun i hi hi' => ?_
  have hrow : (Weights.sideBySide (meshColumns lists))[i]? = some (Sample.mesh lists)[i] := by
    rw [Sample.getElem?_sideBySide hcolumns]
    have hwidth := (Sample.mem_mesh.1 (List.getElem_mem hi')).length_eq
    rw [← map_getD_range (Sample.mesh lists)[i] 0, hwidth, meshColumns,
      List.forall₂_map_left_iff, List.forall₂_map_right_iff, List.forall₂_same]
    intro k _
    rw [List.getElem?_map, List.getElem?_eq_getElem hi']
    rfl
  exact (List.getElem?_eq_some_iff.1 hrow).2

end Choices
end Regrid
