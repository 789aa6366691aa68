import Regrid.Proofs.Arrays
import Regrid.Proofs.Interpolator.Interpolation

/-!
# The protocols agree

A point that is sampled alone is located from a bracket that is estimated for it; in a
sequence or on a grid the bracket is carried from one query to the next, and a query on
a grid point may get another one.  The values are the same all the same, since each of
them is that of the interpolant at the point: along a sequence the value at each place is
that at the point there (`exists_get?_along`), and onto a grid the value at each
multi-index that at the point of its choice (`exists_get?_onto`).  A call for many points
succeeds exactly when the call for each of them does.
-/
namespace Regrid

namespace Interpolator

variable {K : Type} [Field K] [LinearOrder K] [IsStrictOrderedRing K] [FloorRing K] [Elementary K]
variable {I : Interpolator K}

/-! ## When a call succeeds -/

theorem exists_valueAt_iff (hI : I.WellFormed) {xs : List K} :
    (∃ v, I.valueAt (xs.map NdArray.scalar) = .ok v) ↔ I.Accepts xs := by
  constructor
  · rintro ⟨v, hv⟩
    exact ((valueAt_eq_ok_iff hI).1 hv).1
  · intro h
    obtain ⟨v, hv, -⟩ := exists_valueAt hI h
    exact ⟨v, hv⟩

theorem exists_along_iff (hI : I.WellFormed) {xss : List (List K)} {m : Nat}
    (hlen : ∀ xs ∈ xss, xs.length = m) :
    (∃ a, I.along (xss.map NdArray.vector) none = .ok a) ↔ I.AcceptsAll xss := by
  constructor
  · rintro ⟨a, ha⟩
    exact acceptsAll_of_along hI ha
  · intro h
    obtain ⟨a, ha, -⟩ := exists_along hI hlen h
    exact ⟨a, ha⟩

theorem exists_onto_iff (hI : I.WellFormed) {xss : List (List K)} :
    (∃ a, I.onto (xss.map NdArray.vector) none = .ok a) ↔ I.AcceptsAll xss := by
  constructor
  · rintro ⟨a, ha⟩
    exact acceptsAll_of_onto hI ha
  · intro h
    obtain ⟨a, ha, -⟩ := exists_onto hI h
    exact ⟨a, ha⟩

/-! ## What it returns -/

/-- Along a sequence: the shape, and the values at the points. -/
theorem along_eq_ok (hI : I.WellFormed) {xss : List (List K)} {m : Nat}
    (hlen : ∀ xs ∈ xss, xs.length = m) {a : NdArray K}
    (h : I.along (xss.map NdArray.vector) none = .ok a) :
    a.shape = [m] ∧ List.Forall₂ I.Interpolates (Weights.sideBySide xss) a.toList := by
  obtain ⟨b, hb, hshape, hvalues⟩ := exists_along hI hlen (acceptsAll_of_along hI h)
  rw [h] at hb
  cases hb
  exact ⟨hshape, hvalues⟩

/-- Onto a grid: the shape, and the values at the points of the mesh. -/
theorem onto_eq_ok (hI : I.WellFormed) {xss : List (List K)} {a : NdArray K}
    (h : I.onto (xss.map NdArray.vector) none = .ok a) :
    a.shape = xss.map List.length ∧ List.Forall₂ I.Interpolates (Sample.mesh xss) a.toList := by
  obtain ⟨b, hb, hshape, hvalues⟩ := exists_onto hI (acceptsAll_of_onto hI h)
  rw [h] at hb
  cases hb
  exact ⟨hshape, hvalues⟩

/-- **The value at a place** of a sequence is that at the point there. -/
theorem exists_get?_along (hI : I.WellFormed) {xss : List (List K)} {m : Nat}
    (hlen : ∀ xs ∈ xss, xs.length = m) {a : NdArray K}
    (h : I.along (xss.map NdArray.vector) none = .ok a) {i : Nat} (hi : i < m) {xs : List K}
    (hxs : List.Forall₂ (fun (row : List K) x => row[i]? = some x) xss xs) :
    ∃ v, a.get? [i] = some v ∧ I.Interpolates xs v := by
  obtain ⟨hshape, hvalues⟩ := along_eq_ok hI hlen h
  have hne := (acceptsAll_of_along hI h).ne_nil hI
  obtain ⟨v, hv, hvalue⟩ :=
    Choices.exists_getElem? hvalues ((Sample.getElem?_sideBySide hne).2 hxs)
  refine ⟨v, ?_, hvalue⟩
  rw [NdArray.get?_eq_toList, hshape]
  simpa [NdArray.place?, hi] using hv

/-- **The value at a multi-index** of a grid is that at the point of its choice. -/
theorem exists_get?_onto (hI : I.WellFormed) {xss : List (List K)} {a : NdArray K}
    (h : I.onto (xss.map NdArray.vector) none = .ok a) {ix : List Nat} {xs : List K}
    (hxs : Sample.entries? xss ix = some xs) :
    ∃ v, a.get? ix = some v ∧ I.Interpolates xs v := by
  obtain ⟨hshape, hvalues⟩ := onto_eq_ok hI h
  obtain ⟨r, hr⟩ := Option.isSome_iff_exists.1
    ((Sample.entries?_isSome_iff xss ix).1 (by rw [hxs]; rfl))
  obtain ⟨v, hv, hvalue⟩ := Choices.exists_getElem? hvalues ((Sample.getElem?_mesh hr).trans hxs)
  refine ⟨v, ?_, hvalue⟩
  rw [NdArray.get?_eq_toList, hshape, hr]
  exact hv

/-! ## Agreement -/

omit [IsStrictOrderedRing K] in
/-- A sequence of points is accepted when each of its points is. -/
theorem acceptsAll_iff_entriesAt {xss : List (List K)} {m : Nat} (hcount : xss.length = I.rank)
    (hlen : ∀ xs ∈ xss, xs.length = m) :
    I.AcceptsAll xss ↔
      ∀ i < m, ∀ xs, List.Forall₂ (fun (row : List K) x => row[i]? = some x) xss xs → I.Accepts xs := by
  constructor
  · intro h i _ xs hxs
    exact h.accepts (hxs.flip.imp fun _ _ => List.mem_of_getElem?)
  · intro h
    exact Choices.forall₂_of_entriesAt hcount.symm hlen h

omit [IsStrictOrderedRing K] in
theorem acceptsAll_iff_sideBySide {xss : List (List K)} {m : Nat} (hcount : xss.length = I.rank)
    (hne : xss ≠ []) (hlen : ∀ xs ∈ xss, xs.length = m) :
    I.AcceptsAll xss ↔ ∀ xs ∈ Weights.sideBySide xss, I.Accepts xs := by
  constructor
  · intro h xs hxs
    exact h.accepts (Weights.mem_sideBySide hne hxs)
  · intro h
    refine (acceptsAll_iff_entriesAt hcount hlen).2 fun i _ xs hxs => h xs ?_
    exact List.mem_of_getElem? ((Sample.getElem?_sideBySide hne).2 hxs)

omit [IsStrictOrderedRing K] in
/-- A grid is accepted when each of its points is. -/
theorem acceptsAll_iff_mesh {xss : List (List K)} (hcount : xss.length = I.rank)
    (hne : ∀ xs ∈ xss, xs ≠ []) :
    I.AcceptsAll xss ↔ ∀ xs ∈ Sample.mesh xss, I.Accepts xs := by
  constructor
  · intro h xs hxs
    exact h.accepts (Sample.mem_mesh.1 hxs)
  · intro h
    exact Choices.forall₂_of_mesh hcount.symm hne fun xs hxs => h xs (Sample.mem_mesh.2 hxs)

/-! ## A grid as a sequence -/

/-- A grid is accepted when the sequence of its points is. -/
theorem exists_onto_iff_meshColumns (hI : I.WellFormed) {xss : List (List K)}
    (hcount : xss.length = I.rank) (hne : ∀ xs ∈ xss, xs ≠ []) :
    (∃ a, I.onto (xss.map NdArray.vector) none = .ok a) ↔
      ∃ b, I.along ((Choices.meshColumns xss).map NdArray.vector) none = .ok b := by
  have hxss : xss ≠ [] := by
    rintro rfl
    exact hI.nonempty (List.length_eq_zero_iff.1 hcount.symm)
  have hlen : ∀ c ∈ Choices.meshColumns xss, c.length = (Sample.mesh xss).length :=
    fun c hc => Choices.length_of_mem_meshColumns hc
  rw [exists_onto_iff hI, exists_along_iff hI hlen, acceptsAll_iff_mesh hcount hne,
    acceptsAll_iff_sideBySide ((Choices.length_meshColumns xss).trans hcount)
      (Choices.meshColumns_ne_nil hxss) hlen, Choices.sideBySide_meshColumns hxss]

/-- The values on a grid stand in the order of the sequence of its points. -/
theorem toList_onto_eq_along (hI : I.WellFormed) {xss : List (List K)} {a b : NdArray K}
    (ha : I.onto (xss.map NdArray.vector) none = .ok a)
    (hb : I.along ((Choices.meshColumns xss).map NdArray.vector) none = .ok b) :
    a.toList = b.toList := by
  have hxss := (acceptsAll_of_onto hI ha).ne_nil hI
  have hvalues := (along_eq_ok hI (fun c hc => Choices.length_of_mem_meshColumns hc) hb).2
  rw [Choices.sideBySide_meshColumns hxss] at hvalues
  exact (coincide_of_eq hI rfl rfl).values_eq (onto_eq_ok hI ha).2 hvalues

/-- **The protocols agree.**

* Along a sequence of points, a row of `m` coordinates per axis, sampling succeeds exactly
  when it does at each point, and finds the same values.
* Onto a grid that a row of coordinates per axis spans, none of them empty, it succeeds
  exactly when it does at each point of the grid, and finds the same values.
* The values on a grid, in the order in which they are kept, are those along the mesh of
  the rows. -/
theorem protocols_agree (hI : I.Made) :
    (∀ (cs : List (List K)) (m : Nat), cs.length = I.rank → (∀ c ∈ cs, c.length = m) →
      ((∃ a, I.along (cs.map NdArray.vector) none = .ok a) ↔
        ∀ i < m, ∀ xs, List.Forall₂ (fun (row : List K) x => row[i]? = some x) cs xs →
          ∃ v, I.valueAt (xs.map NdArray.scalar) = .ok v) ∧
      ∀ a, I.along (cs.map NdArray.vector) none = .ok a → a.shape = [m] ∧
        ∀ i < m, ∀ xs, List.Forall₂ (fun (row : List K) x => row[i]? = some x) cs xs →
          ∃ v, I.valueAt (xs.map NdArray.scalar) = .ok v ∧ a.get? [i] = some v) ∧
    (∀ hs : List (List K), hs.length = I.rank → (∀ h ∈ hs, h ≠ []) →
      ((∃ a, I.onto (hs.map NdArray.vector) none = .ok a) ↔
        ∀ ix xs, Sample.entries? hs ix = some xs →
          ∃ v, I.valueAt (xs.map NdArray.scalar) = .ok v) ∧
      ∀ a, I.onto (hs.map NdArray.vector) none = .ok a → a.shape = hs.map List.length ∧
        ∀ ix xs, Sample.entries? hs ix = some xs →
          ∃ v, I.valueAt (xs.map NdArray.scalar) = .ok v ∧ a.get? ix = some v) ∧
    (∀ hs : List (List K), hs.length = I.rank → (∀ h ∈ hs, h ≠ []) →
      ((∃ a, I.onto (hs.map NdArray.vector) none = .ok a) ↔
        ∃ b, I.along ((Choices.meshColumns hs).map NdArray.vector) none = .ok b) ∧
      ∀ a b, I.onto (hs.map NdArray.vector) none = .ok a →
        I.along ((Choices.meshColumns hs).map NdArray.vector) none = .ok b →
        a.toList = b.toList) := by
  have hI := hI.wellFormed
  refine ⟨?_, ?_, ?_⟩
  · intro cs m hcount hlen
    refine ⟨?_, ?_⟩
    · rw [exists_along_iff hI hlen, acceptsAll_iff_entriesAt hcount hlen]
      simp only [exists_valueAt_iff hI]
    · intro a ha
      refine ⟨(along_eq_ok hI hlen ha).1, fun i hi xs hxs => ?_⟩
      obtain ⟨v, hv, hvalue⟩ := exists_get?_along hI hlen ha hi hxs
      exact ⟨v, (valueAt_eq_ok_iff hI).2 hvalue, hv⟩
  · intro hs hcount hne
    refine ⟨?_, ?_⟩
    · rw [exists_onto_iff hI, acceptsAll_iff_mesh hcount hne]
      simp only [exists_valueAt_iff hI, Sample.mem_mesh_iff_entries?]
      exact ⟨fun h ix xs hxs => h xs ⟨ix, hxs⟩, fun h xs ⟨ix, hxs⟩ => h ix xs hxs⟩
    · intro a ha
      refine ⟨(onto_eq_ok hI ha).1, fun ix xs hxs => ?_⟩
      obtain ⟨v, hv, hvalue⟩ := exists_get?_onto hI ha hxs
      exact ⟨v, (valueAt_eq_ok_iff hI).2 hvalue, hv⟩
  · intro hs hcount hne
    refine ⟨exists_onto_iff_meshColumns hI hcount hne, ?_⟩
    intro a b ha hb
    exact toList_onto_eq_along hI ha hb

/-- A field with no structure on an ascending and a descending logarithmic axis: the value
on a grid beyond the last point of the first axis is that at the point. -/
theorem protocols_agree_two_axes :
    let field : NdArray ℚ := ⟨[3, 2], #[1, 2, 3, 5, 8, 13], rfl⟩
    ∃ a v, (twoAxes field).onto [NdArray.vector [1, 7 / 2], NdArray.vector [3 / 2]] none = .ok a ∧
      a.shape = [2, 1] ∧ a.get? [1, 0] = some v ∧
      (twoAxes field).valueAt [NdArray.scalar (7 / 2), NdArray.scalar (3 / 2)] = .ok v := by
  intro field
  have hmade : (twoAxes field).Made := made_twoAxes rfl
  obtain ⟨-, honto, -⟩ := protocols_agree hmade
  obtain ⟨-, hvalues⟩ := honto [[1, 7 / 2], [3 / 2]] rfl (by simp)
  have hok : ((twoAxes field).onto [NdArray.vector [1, 7 / 2], NdArray.vector [3 / 2]]
      none).isOk = true := by decide +kernel
  cases ha : (twoAxes field).onto [NdArray.vector [1, 7 / 2], NdArray.vector [3 / 2]] none with
  | error f =>
    rw [ha] at hok
    cases hok
  | ok a =>
    obtain ⟨hshape, hentries⟩ := hvalues a ha
    obtain ⟨v, hv, hget⟩ := hentries [1, 0] [7 / 2, 3 / 2] rfl
    exact ⟨a, v, rfl, hshape, hget, hv⟩

end Interpolator
end Regrid
