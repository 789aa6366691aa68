import Regrid.Proofs.Exact
import Regrid.Proofs.Kinds
import Regrid.Proofs.Slices

/-!
# Columns are lists of positions

A column keeps indices and pairs of distances apart, and what selects positions selects from both.
What is done to a column as a whole (`Column.Operation`) can be done to a list of positions as well:
a slice is taken out of it, entries are picked by their places, a mask keeps some of them, and
something is done to each (`Operation.onList`).  Both come to the same (`Operation.toList_perform`):
the positions of the column afterwards are the list afterwards, or both are refused with the same
fault; and this carries over to every run of operations, since what is refused leaves a column as it
was (`Operation.run_map`).

There is one difference.  Removal of noise looks at the tolerance first, and refuses one that is no
positive number whatever the column holds (`Operation.check`); where there is no position, no
position has been refused (`clamp_empty_refused`).
-/
namespace Regrid

/-! ## Noise, position by position -/

section Noise
variable {α : Type} [Scalar α] {tolerance : α}

/-- With a tolerance, noise is removed from each position, unless one is beyond repair; the first
of them is told. -/
theorem Position.mapM_clamp (h : checkTolerance tolerance = .ok ()) (ps : List (Position α)) :
    ps.mapM (clamp tolerance) = match ps.find? (deviates tolerance) with
      | some p => .error (.outOfRange (.deviates p.fraction p.complement tolerance))
      | none => .ok (ps.map clipped) := by
  induction ps with
  | nil => rfl
  | cons p ps ih =>
    rw [List.mapM_cons, ih, clamp, h, Outcome.ok_bind]
    by_cases hp : p.deviates tolerance = true
    · rw [List.find?_cons_of_pos hp, if_pos hp]
      rfl
    · rw [List.find?_cons_of_neg hp, if_neg hp]
      cases ps.find? (deviates tolerance) with
      | none => rfl
      | some q => rfl

/-- Without one, no position passes. -/
theorem Position.clamp_of_error {f : Fault α} (h : checkTolerance tolerance = .error f)
    (p : Position α) : p.clamp tolerance = .error f := by
  rw [clamp, h, Outcome.error_bind]

/-- With a tolerance, a position is refused, or noise is removed from it. -/
theorem Position.clamp_cases (h : checkTolerance tolerance = .ok ()) (p : Position α) :
    (p.deviates tolerance = true ∧
        p.clamp tolerance = .error (.outOfRange (.deviates p.fraction p.complement tolerance))) ∨
      (p.deviates tolerance = false ∧ p.clamp tolerance = .ok p.clipped) := by
  rw [clamp, h, Outcome.ok_bind]
  cases hp : p.deviates tolerance with
  | true => exact .inl ⟨rfl, rfl⟩
  | false => exact .inr ⟨rfl, rfl⟩

/-- Noise is removed from a column by removing it from the positions. -/
theorem Column.clamp_eq (tolerance : α) (c : Column α) :
    c.clamp tolerance = Position.checkTolerance tolerance >>= fun _ =>
      match c.toList.find? (Position.deviates tolerance) with
      | some p => .error (.outOfRange (.deviates p.fraction p.complement tolerance))
      | none => .ok (ofPositions (c.toList.map Position.clipped)) := by
  obtain ⟨ps, rfl⟩ : ∃ ps, c = ofPositions ps := ⟨c.toList, c.ofPositions_toList.symm⟩
  have hfind : (ofPositions ps).fd.find? (pairDeviates tolerance) =
      (ps.find? (Position.deviates tolerance)).map fun p => (p.fraction, p.complement) :=
    List.find?_map
  have hclipped : ∀ h, (⟨(ofPositions ps).idx,
      (ofPositions ps).fd.map fun p => (Position.clip p.1, Position.clip p.2), h⟩ : Column α) =
        ofPositions (ps.map Position.clipped) := by
    intro h
    simp only [ofPositions, List.map_map]
    rfl
  rw [clamp, hfind, toList_ofPositions]
  refine Outcome.bind_congr fun u _ => ?_
  cases ps.find? (Position.deviates tolerance) with
  | some p => rfl
  | none => exact congrArg Except.ok (hclipped _)

/-- With a tolerance, a column is refused for a position that is beyond repair, or noise is removed
from all its positions. -/
theorem Column.clamp_cases (h : Position.checkTolerance tolerance = .ok ()) (c : Column α) :
    (∃ p ∈ c.toList, p.deviates tolerance = true ∧
        c.clamp tolerance = .error (.outOfRange (.deviates p.fraction p.complement tolerance))) ∨
      (∀ p ∈ c.toList, p.deviates tolerance = false) ∧
        c.clamp tolerance = .ok (ofPositions (c.toList.map Position.clipped)) := by
  rw [clamp_eq, h, Outcome.ok_bind]
  cases hfind : c.toList.find? (Position.deviates tolerance) with
  | some p => exact .inl ⟨p, List.mem_of_find?_eq_some hfind, List.find?_some hfind, rfl⟩
  | none =>
    exact .inr ⟨fun p hp => Bool.eq_false_iff.2 (List.find?_eq_none.1 hfind p hp), rfl⟩

end Noise

namespace Column

/-! ## Selections -/

section Selections
variable {α : Type} (c : Column α)

/-- What is selected from both columns is selected from the positions. -/
theorem toList_select (keys : List Nat) : (c.select keys).toList = pick c.toList keys := by
  rw [toList, toList, pick_zipWith _ c.length_eq.symm]
  rfl

/-- Entries are picked one by one, each by its place. -/
theorem mapM_item? {β : Type} (xs : List β) (keys : List Int) :
    (keys.mapM fun key => (orBadIndex (Index.item? xs key) : Except (Fault α) β)) =
      (keys.mapM fun key => orBadIndex (Index.resolve xs.length key)).map (pick xs) := by
  induction keys with
  | nil => rfl
  | cons key keys ih =>
    rw [List.mapM_cons, List.mapM_cons, ih]
    cases hplace : Index.resolve xs.length key with
    | none =>
      have hnone : Index.item? xs key = none := by rw [Index.item?, hplace, Option.bind_none]
      rw [hnone]
      rfl
    | some k =>
      have hk : k < xs.length := Index.resolve_lt hplace
      have hsome : Index.item? xs key = some xs[k] := by
        rw [Index.item?, hplace, Option.bind_some, List.getElem?_eq_getElem hk]
      rw [hsome]
      cases (keys.mapM fun key => (orBadIndex (Index.resolve xs.length key) : Except (Fault α) Nat)) with
      | error f => rfl
      | ok places =>
        show Except.ok (xs[k] :: pick xs places) = Except.ok (pick xs (k :: places))
        rw [pick_cons, List.getElem?_eq_getElem hk]
        rfl

/-- The entries that a mask keeps are those at the places where it says so. -/
theorem pick_mask {β : Type} {xs : List β} {mask : List Bool} (h : mask.length = xs.length) :
    pick xs ((mask.zipIdx.filter Prod.fst).map Prod.snd) =
      (xs.zip mask).filterMap fun q => if q.2 then some q.1 else none := by
  -- The places are counted on behind what has been passed.
  have hbehind : ∀ pre : List β,
      pick (pre ++ xs) (((mask.zipIdx pre.length).filter Prod.fst).map Prod.snd) =
        (xs.zip mask).filterMap fun q => if q.2 then some q.1 else none := by
    induction mask generalizing xs with
    | nil =>
      intro pre
      rw [List.zip_nil_right]
      rfl
    | cons keep mask ih =>
      intro pre
      obtain ⟨x, xs, rfl⟩ : ∃ x rest, xs = x :: rest := List.exists_cons_of_length_eq_add_one h.symm
      have hrest := ih (Nat.succ.inj h) (pre ++ [x])
      rw [← List.append_cons, List.length_append, List.length_singleton] at hrest
      have hx : (pre ++ x :: xs)[pre.length]? = some x := by
        rw [List.getElem?_append_right le_rfl, Nat.sub_self]
        rfl
      rw [List.zipIdx_cons, List.zip_cons_cons]
      cases keep with
      | false => exact hrest
      | true =>
        rw [List.filter_cons_of_pos rfl, List.map_cons, pick_cons, hx, hrest]
        rfl
  exact hbehind []

end Selections

/-! ## Operations -/

/-- **What is done to a column as a whole.** -/
inductive Operation (α : Type) where
  /-- A slice is taken out. -/
  | slice (s : Slice)
  /-- Positions are taken at places, which may be counted from the end.  The places have a
  dimension; without one there is a single place, and what is there is no list. -/
  | take (keys : NdArray Int) (laid : 1 ≤ keys.rank)
  /-- The positions are kept that a mask keeps. -/
  | filter (mask : List Bool)
  /-- Noise is removed. -/
  | clamp (tolerance : α)
  /-- The column is put together anew from its positions. -/
  | rebuild
  /-- Every position is moved to the nearer end of its bracket. -/
  | snap
  /-- The column is put together anew from indices and fractions. -/
  | complement

namespace Operation

variable {α : Type} [Scalar α]

/-- What an operation does to a column. -/
def perform (op : Operation α) (c : Column α) : Except (Fault α) (Column α) :=
  match op with
  | slice s => c.slice s
  | take keys _ => c.take keys
  | filter mask => c.filter mask
  | clamp tolerance => c.clamp tolerance
  | rebuild => .ok (ofPositions c.toList)
  | snap => .ok c.snap
  | complement => c.complemented

/-- **What an operation does to a list of positions.**  Places in two or more dimensions pick no
list. -/
def onList (op : Operation α) (ps : List (Position α)) : Except (Fault α) (List (Position α)) :=
  match op with
  | slice s =>
    match s.ofList ps with
    | some qs => .ok qs
    | none => .error (.invalidArgument .stepZero)
  | take keys _ => do
    let qs ← keys.toList.mapM fun key => orBadIndex (Index.item? ps key)
    if 2 ≤ keys.rank then throw (.dimensionMismatch (.fractions keys.size (keys.shape ++ [2])))
    else return qs
  | filter mask =>
    if mask.length = ps.length then
      .ok ((ps.zip mask).filterMap fun q => if q.2 then some q.1 else none)
    else .error .badIndex
  | clamp tolerance => ps.mapM (Position.clamp tolerance)
  | rebuild => .ok ps
  | snap => .ok (ps.map Position.snap)
  | complement => .ok (ps.map fun p => Position.ofFraction p.idx p.fraction)

/-- **What an operation looks at first**, before it looks at positions. -/
def check (op : Operation α) : Except (Fault α) Unit :=
  match op with
  | clamp tolerance => Position.checkTolerance tolerance
  | _ => .ok ()

/-! ## One operation -/

theorem toList_slice (s : Slice) (c : Column α) :
    (c.slice s).map toList = (slice s).onList c.toList := by
  have hentries := s.pick_entries c.toList
  rw [length_toList] at hentries
  rw [Column.slice, onList, ← hentries]
  cases s.entries c.length with
  | none => rfl
  | some keys => exact congrArg Except.ok (c.toList_select keys)

theorem toList_take {keys : NdArray Int} (laid : 1 ≤ keys.rank) (c : Column α) :
    (c.take keys).map toList = (take keys laid).onList c.toList := by
  rw [Column.take, onList, mapM_item?, length_toList]
  cases (keys.toList.mapM fun key =>
      (orBadIndex (Index.resolve c.length key) : Except (Fault α) Nat)) with
  | error f => rfl
  | ok places =>
    rw [Outcome.ok_bind]
    by_cases hrank : 2 ≤ keys.rank
    · rw [if_neg (by omega)]
      exact (if_pos hrank).symm
    · rw [if_pos (by omega)]
      show Except.ok (c.select places).toList = _
      rw [toList_select]
      exact (if_neg hrank).symm

theorem toList_filter (mask : List Bool) (c : Column α) :
    (c.filter mask).map toList = (filter mask).onList c.toList := by
  rw [Column.filter, onList, length_toList]
  by_cases hmask : mask.length = c.length
  · rw [if_pos hmask, if_pos hmask, ← pick_mask (hmask.trans c.length_toList.symm), ← toList_select]
    rfl
  · rw [if_neg hmask, if_neg hmask]
    rfl

theorem toList_clamp (tolerance : α) (c : Column α) : (c.clamp tolerance).map toList =
    Position.checkTolerance tolerance >>= fun _ => (clamp tolerance).onList c.toList := by
  rw [clamp_eq, onList]
  cases hcheck : Position.checkTolerance tolerance with
  | error f => rfl
  | ok u =>
    rw [Outcome.ok_bind, Outcome.ok_bind, Position.mapM_clamp hcheck]
    cases c.toList.find? (Position.deviates tolerance) with
    | some p => rfl
    | none => exact congrArg Except.ok (toList_ofPositions _)

theorem toList_snap (c : Column α) : c.snap.toList = c.toList.map Position.snap :=
  toList_ofPositions _

theorem toList_complemented (c : Column α) :
    c.complemented.map toList = complement.onList c.toList := by
  have hlen : ((c.fd.map Prod.fst).map fun x => (x, Scalar.one - x)).length = c.idx.length := by
    rw [List.length_map, List.length_map, c.length_eq]
  rw [complemented, ofFractions, ofParts, dif_pos hlen]
  show Except.ok (List.zipWith _ c.idx ((c.fd.map Prod.fst).map _)) = Except.ok ((List.zipWith _ _ _).map _)
  rw [List.map_map, List.zipWith_map_right, List.map_zipWith]
  rfl

/-- **An operation on a column** is the operation on the list of its positions, as soon as the
operation has been looked at. -/
theorem toList_perform (op : Operation α) (c : Column α) :
    (op.perform c).map toList = op.check >>= fun _ => op.onList c.toList := by
  cases op with
  | slice s => exact toList_slice s c
  | take keys laid => exact toList_take laid c
  | filter mask => exact toList_filter mask c
  | clamp tolerance => exact toList_clamp tolerance c
  | rebuild => exact congrArg Except.ok (toList_ofPositions c.toList)
  | snap => exact congrArg Except.ok (toList_snap c)
  | complement => exact toList_complemented c

/-! ## When an operation is refused -/

/-- Only the tolerance is looked at first, and it is refused if it is infinite, no number, or not
positive. -/
theorem check_eq_error_iff {op : Operation α} {f : Fault α} :
    op.check = .error f ↔ ∃ tolerance, op = clamp tolerance ∧
      f = .invalidArgument (.tolerance tolerance) ∧
      (Scalar.isFinite tolerance = false ∨ Scalar.le tolerance Scalar.zero = true) := by
  constructor
  · intro h
    cases op with
    | clamp tolerance =>
      rw [check, Position.checkTolerance] at h
      by_cases hbad : ¬ Scalar.isFinite tolerance = true ∨ Scalar.le tolerance Scalar.zero = true
      · rw [if_pos hbad] at h
        exact ⟨tolerance, rfl, (Except.error.inj h).symm, hbad.imp_left Bool.eq_false_iff.2⟩
      · rw [if_neg hbad] at h
        cases h
    | _ => cases h
  · rintro ⟨tolerance, rfl, rfl, hbad⟩
    rw [check, Position.checkTolerance, if_pos (hbad.imp_left Bool.eq_false_iff.1)]

/-- If there is a position, it tells what would be told without it. -/
theorem check_bind_onList {op : Operation α} {ps : List (Position α)}
    (h : op.check = .ok () ∨ ps ≠ []) : (op.check >>= fun _ => op.onList ps) = op.onList ps := by
  cases hcheck : op.check with
  | ok u => rfl
  | error f =>
    obtain ⟨p, rest, rfl⟩ := List.exists_cons_of_ne_nil (h.resolve_left (by rw [hcheck]; nofun))
    obtain ⟨tolerance, rfl, -, -⟩ := check_eq_error_iff.1 hcheck
    rw [onList, List.mapM_cons, Position.clamp_of_error hcheck]
    rfl

/-- An operation applies to a list of positions: its step is not nought, its places are places of
the list and not laid out in two or more dimensions, its mask is as long as the list, and no position
is beyond repair. -/
def Applies (op : Operation α) (ps : List (Position α)) : Prop :=
  match op with
  | slice s => s.step ≠ some 0
  | take keys _ =>
    ¬ 2 ≤ keys.rank ∧ ∀ key ∈ keys.toList, -(ps.length : Int) ≤ key ∧ key < ps.length
  | filter mask => mask.length = ps.length
  | clamp tolerance => ∀ p ∈ ps, ∃ q, p.clamp tolerance = .ok q
  | _ => True

/-- A list is refused exactly if the operation does not apply to it. -/
theorem exists_onList_iff {op : Operation α} {ps : List (Position α)} :
    (∃ qs, op.onList ps = .ok qs) ↔ op.Applies ps := by
  cases op with
  | slice s =>
    have hstep : s.step.getD 1 = 0 ↔ s.step = some 0 := by
      cases s.step <;> simp
    simp only [onList, Applies, Slice.ofList]
    by_cases hzero : s.step.getD 1 = 0
    · simp [hstep.1 hzero]
    · by_cases hpos : 0 < s.step.getD 1
      · simp [hzero, hpos, mt hstep.2 hzero]
      · simp [hzero, hpos, mt hstep.2 hzero]
  | take keys laid =>
    have hitem : ∀ key : Int,
        (∃ p, (orBadIndex (Index.item? ps key) : Except (Fault α) (Position α)) = .ok p) ↔
          -(ps.length : Int) ≤ key ∧ key < ps.length := by
      intro key
      rw [← Index.resolve_isSome_iff]
      cases hplace : Index.resolve ps.length key with
      | none => simp [Index.item?, hplace, orBadIndex]
      | some k => simp [Index.item?, hplace, orBadIndex, Index.resolve_lt hplace]
    simp only [onList, Applies, ← hitem, ← Outcome.exists_mapM_iff]
    by_cases hrank : 2 ≤ keys.rank
    · simp [hrank, Outcome.bind_eq_ok_iff]
    · simp [hrank, Outcome.bind_eq_ok_iff]
  | filter mask =>
    by_cases hmask : mask.length = ps.length
    · simp [onList, Applies, hmask]
    · simp [onList, Applies, hmask]
  | clamp tolerance => exact Outcome.exists_mapM_iff
  | rebuild => exact iff_of_true ⟨_, rfl⟩ trivial
  | snap => exact iff_of_true ⟨_, rfl⟩ trivial
  | complement => exact iff_of_true ⟨_, rfl⟩ trivial

/-! ## Runs -/

omit [Scalar α] in
/-- A run of operations: the answer to each, and what there is afterwards.  What is refused leaves
things as they were. -/
def run {σ : Type} (act : Operation α → σ → Except (Fault α) σ) :
    σ → List (Operation α) → List (Except (Fault α) σ × σ)
  | _, [] => []
  | s, op :: ops =>
    let answer := act op s
    let after := answer.toOption.getD s
    (answer, after) :: run act after ops

omit [Scalar α] in
/-- **What every operation carries over, every run does.** -/
theorem run_map {σ τ : Type} {act : Operation α → σ → Except (Fault α) σ}
    {act' : Operation α → τ → Except (Fault α) τ} (φ : σ → τ)
    (h : ∀ op s, (act op s).map φ = act' op (φ s)) (s : σ) (ops : List (Operation α)) :
    (run act s ops).map (fun r => (r.1.map φ, φ r.2)) = run act' (φ s) ops := by
  induction ops generalizing s with
  | nil => rfl
  | cons op ops ih =>
    have hafter : (act' op (φ s)).toOption.getD (φ s) = φ ((act op s).toOption.getD s) := by
      rw [← h]
      cases act op s with
      | error f => rfl
      | ok t => rfl
    rw [run, run, List.map_cons, hafter, ← ih, h]

/-- **Columns are lists of positions.**

* In every run of operations the column has, after each of them, as many pairs of distances as
  indices, and its positions are what the operations have made of the list of its positions; what is
  refused is refused for both with the same fault, and leaves the column as it was.
* An operation on a column is the operation on the list, unless the column is empty and the operation
  is the removal of noise with a tolerance that is infinite, no number, or not positive: this is
  refused whatever the column holds.
* An operation on a column succeeds exactly if it applies to the list, and does not come with such a
  tolerance.
* A column put together anew from its positions is the column. -/
theorem columns_are_lists (c : Column α) :
    (∀ ops : List (Operation α),
      (run perform c ops).map (fun r => (r.1.map toList, r.2.toList)) =
        run (fun op ps => op.check >>= fun _ => op.onList ps) c.toList ops ∧
      ∀ r ∈ run perform c ops, r.2.fd.length = r.2.idx.length) ∧
    (∀ op : Operation α, op.check = .ok () ∨ c.toList ≠ [] →
      (op.perform c).map toList = op.onList c.toList) ∧
    (∀ op : Operation α, (∃ d, op.perform c = .ok d) ↔ op.check = .ok () ∧ op.Applies c.toList) ∧
    (∀ (op : Operation α) (f : Fault α), op.check = .error f ↔ ∃ tolerance, op = clamp tolerance ∧
      f = .invalidArgument (.tolerance tolerance) ∧
      (Scalar.isFinite tolerance = false ∨ Scalar.le tolerance Scalar.zero = true)) ∧
    (rebuild : Operation α).perform c = .ok c := by
  refine ⟨fun ops => ⟨run_map toList toList_perform c ops, fun r _ => r.2.length_eq⟩,
    fun op h => ?_, fun op => ?_, fun op f => check_eq_error_iff, ?_⟩
  · rw [toList_perform]
    exact check_bind_onList h
  · rw [← Outcome.exists_map_ok_iff, toList_perform, ← exists_onList_iff]
    cases op.check with
    | ok u => exact (and_iff_right rfl).symm
    | error f => exact iff_of_false (Outcome.not_exists_ok f) fun h => nomatch h.1
  · exact congrArg Except.ok c.ofPositions_toList

/-- Backwards, with a mask that is too short, and from the end. -/
theorem columns_are_lists_backwards :
    let c : Column ℚ := ofPositions [⟨0, 1 / 2, 1 / 2⟩, ⟨1, 1 / 4, 3 / 4⟩, ⟨2, 1, 0⟩]
    let ops : List (Operation ℚ) :=
      [slice ⟨none, none, some (-1)⟩, filter [true], take (NdArray.vector [-1, 0]) (by decide)]
    (run perform c ops).map (fun r => r.2.toList.map Position.idx) =
      [[2, 1, 0], [2, 1, 0], [0, 2]] := by
  intro c ops
  have hrun := ((columns_are_lists c).1 ops).1
  have hstates := congrArg (List.map fun r => r.2.map Position.idx) hrun
  rw [List.map_map] at hstates
  exact hstates

/-- **Without positions** there is none that a tolerance of nought refuses, but it is refused. -/
theorem clamp_empty_refused :
    (clamp (0 : ℚ)).onList [] = .ok [] ∧
      (clamp (0 : ℚ)).perform empty = .error (.invalidArgument (.tolerance 0)) ∧
      (empty : Column ℚ).toList = [] := by
  have hzero : Scalar.le (0 : ℚ) Scalar.zero = true := by decide +kernel
  have hcheck : Position.checkTolerance (0 : ℚ) = .error (.invalidArgument (.tolerance 0)) :=
    if_pos (.inr hzero)
  refine ⟨rfl, ?_, rfl⟩
  rw [perform, Column.clamp, hcheck]
  rfl

end Operation
end Column
end Regrid
