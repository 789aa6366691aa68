import Regrid.Backend
import Regrid.Proofs.Arrays
import Regrid.Proofs.Exact
import Regrid.Proofs.Polynomial.Tableau
import Regrid.Proofs.Selections

/-!
# The tableau is Lagrange's interpolation

Through the points of a table whose abscissas differ goes one polynomial of degree less than the
number of points (`Through.eq`).  The tableau finds its value at the query without its coefficients.
The invariant of a stage (`Neville.Invariant`) speaks of *windows*, runs of neighbouring points, each
with the polynomial through it: a pair of corrections is what a window's value differs by from those
of the two windows that lack its last or its first point, and the value so far is that of the window
behind the path.  One point more is Neville's recursion (`window_succ`), so every stage preserves it
(`Invariant.step`).

In the end the window is the table, the last correction leads back to a window that lacks one point,
and the closest abscissa, where the path came from, has never been left out
(`exists_evaluate_closest`).
-/
open scoped Polynomial

namespace Regrid

variable {K : Type} [Field K]

/-! ## Polynomials through tables -/

/-- **A polynomial through a table**, of less degree than the table has points. -/
structure Through (xs ys : List K) (p : K[X]) : Prop where
  degree : p.degree < xs.length
  values : List.Forall₂ (fun a y => p.eval a = y) xs ys

theorem Through.length_eq {xs ys : List K} {p : K[X]} (h : Through xs ys p) :
    ys.length = xs.length := h.values.length_eq.symm

/-- **There is only one polynomial** through a table whose abscissas differ. -/
theorem Through.eq {xs ys : List K} (hxs : xs.Nodup) {p q : K[X]} (hp : Through xs ys p)
    (hq : Through xs ys q) : p = q := by
  classical
  have hcard : xs.toFinset.card = xs.length := List.toFinset_card_of_nodup hxs
  refine Polynomial.eq_of_degrees_lt_of_eval_finset_eq xs.toFinset (by rw [hcard]; exact hp.degree)
    (by rw [hcard]; exact hq.degree) fun a ha => ?_
  obtain ⟨k, hk, rfl⟩ := List.mem_iff_getElem.1 (List.mem_toFinset.1 ha)
  have hk' : k < ys.length := by rwa [hp.length_eq]
  exact ((List.forall₂_iff_get.1 hp.values).2 k hk hk').trans
    ((List.forall₂_iff_get.1 hq.values).2 k hk hk').symm

/-- The points of a table may stand in any order. -/
theorem Through.pick {xs ys : List K} {p : K[X]} (h : Through xs ys p) {order : List Nat}
    (horder : order.Perm (List.range xs.length)) :
    Through (Column.pick xs order) (Column.pick ys order) p :=
  ⟨by rw [Column.length_pick_of_perm horder]; exact h.degree, Column.forall₂_pick h.values order⟩

/-! ## Windows -/

section Windows
variable (xs ys : List K)

/-- The polynomial through a window: `count` points from place `i` on. -/
noncomputable def window (i count : Nat) : K[X] :=
  Lagrange.interpolate (Finset.Ico i (i + count)) (xs.getD · 0) (ys.getD · 0)

theorem window_zero (i : Nat) : window xs ys i 0 = 0 := by
  rw [window, Nat.add_zero, Finset.Ico_self, Lagrange.interpolate_empty]

theorem window_one (i : Nat) : window xs ys i 1 = Polynomial.C (ys.getD i 0) := by
  rw [window, Nat.Ico_succ_singleton, Lagrange.interpolate_singleton]

variable {xs ys} {i count : Nat}

/-- The abscissas of a window differ. -/
theorem injOn_window (hxs : xs.Nodup) (h : i + count ≤ xs.length) :
    Set.InjOn (xs.getD · 0) (Finset.Ico i (i + count) : Finset ℕ) := by
  intro j hj k hk hjk
  have hj' := (Finset.mem_Ico.1 (Finset.mem_coe.1 hj)).2
  have hk' := (Finset.mem_Ico.1 (Finset.mem_coe.1 hk)).2
  simp only [List.getD_eq_getElem?_getD, List.getElem?_eq_getElem (show j < xs.length by omega),
    List.getElem?_eq_getElem (show k < xs.length by omega), Option.getD_some] at hjk
  exact (hxs.getElem_inj_iff).1 hjk

/-- **Neville's recursion**: a window of two points or more, from those without its last and without
its first point. -/
theorem window_succ (hxs : xs.Nodup) (hpos : 0 < count) (h : i + count < xs.length) :
    window xs ys i (count + 1) =
      window xs ys i count * Lagrange.basisDivisor (xs.getD i 0) (xs.getD (i + count) 0) +
        window xs ys (i + 1) count *
          Lagrange.basisDivisor (xs.getD (i + count) 0) (xs.getD i 0) := by
  have hinj : Set.InjOn (xs.getD · 0) (Finset.Ico i (i + (count + 1)) : Finset ℕ) :=
    injOn_window hxs h
  have hlast : (Finset.Ico i (i + (count + 1))).erase (i + count) = Finset.Ico i (i + count) := by
    ext k
    simp only [Finset.mem_erase, Finset.mem_Ico]
    omega
  have hfirst : (Finset.Ico i (i + (count + 1))).erase i = Finset.Ico (i + 1) (i + 1 + count) := by
    ext k
    simp only [Finset.mem_erase, Finset.mem_Ico]
    omega
  rw [window, Lagrange.interpolate_eq_add_interpolate_erase _ hinj (i := i) (j := i + count)
    (Finset.mem_Ico.2 ⟨le_refl i, by omega⟩) (Finset.mem_Ico.2 ⟨by omega, by omega⟩) (by omega),
    hlast, hfirst]
  rfl

variable (ys) in
/-- The pair of a window: what it differs by from the windows without its last and without its
first point. -/
theorem window_succ_sub (hxs : xs.Nodup) (hpos : 0 < count) (h : i + count < xs.length) {near far : K}
    (hnear : xs[i]? = some near) (hfar : xs[i + count]? = some far) (x : K) :
    (window xs ys i (count + 1)).eval x - (window xs ys i count).eval x =
        (near - x) * (((window xs ys (i + 1) count).eval x - (window xs ys i count).eval x) /
          (near - far)) ∧
      (window xs ys i (count + 1)).eval x - (window xs ys (i + 1) count).eval x =
        (far - x) * (((window xs ys (i + 1) count).eval x - (window xs ys i count).eval x) /
          (near - far)) := by
  have hne : near ≠ far := by
    rintro rfl
    have hij := (List.getElem?_inj (by omega) hxs).1 (hnear.trans hfar.symm)
    omega
  have hsub : near - far ≠ 0 := sub_ne_zero.2 hne
  have hsub' : far - near ≠ 0 := sub_ne_zero.2 hne.symm
  rw [window_succ hxs hpos h, List.getD_eq_getElem?_getD, List.getD_eq_getElem?_getD, hnear, hfar,
    Option.getD_some, Option.getD_some]
  simp only [Lagrange.basisDivisor, Polynomial.eval_add, Polynomial.eval_mul, Polynomial.eval_sub,
    Polynomial.eval_C, Polynomial.eval_X]
  constructor
  · field_simp
    ring
  · field_simp
    ring

/-- A window goes through its points. -/
theorem through_window (hxs : xs.Nodup) (hlen : ys.length = xs.length) (h : i + count ≤ xs.length) :
    Through ((xs.drop i).take count) ((ys.drop i).take count) (window xs ys i count) := by
  have hinj := injOn_window hxs h
  have hlenx : ((xs.drop i).take count).length = count := by
    rw [List.length_take, List.length_drop]
    omega
  have hleny : ((ys.drop i).take count).length = count := by
    rw [List.length_take, List.length_drop]
    omega
  refine ⟨?_, List.forall₂_iff_get.2 ⟨by rw [hlenx, hleny], fun j hj hj' => ?_⟩⟩
  · have hdegree := Lagrange.degree_interpolate_lt (ys.getD · 0) hinj
    rw [Nat.card_Ico, Nat.add_sub_cancel_left] at hdegree
    rwa [hlenx]
  · have hj : j < count := by rwa [hlenx] at hj
    have hmem : i + j ∈ Finset.Ico i (i + count) := Finset.mem_Ico.2 ⟨by omega, by omega⟩
    have hvalue := Lagrange.eval_interpolate_at_node (ys.getD · 0) hinj hmem
    simp only [List.getD_eq_getElem?_getD, List.getElem?_eq_getElem (show i + j < xs.length by omega),
      List.getElem?_eq_getElem (show i + j < ys.length by omega), Option.getD_some] at hvalue
    simpa [List.get_eq_getElem, window, List.getD_eq_getElem?_getD] using hvalue

theorem through_window_all (hxs : xs.Nodup) (hlen : ys.length = xs.length) :
    Through xs ys (window xs ys 0 xs.length) := by
  have h := through_window hxs hlen (show 0 + xs.length ≤ xs.length by omega)
  rwa [List.drop_zero, List.drop_zero, List.take_length, ← hlen, List.take_length, hlen] at h

end Windows

/-! ## The closest abscissa -/

variable [LinearOrder K]

/-- The first of the least entries stands at place `k`. -/
def FirstLeast (ds : List K) (k : Nat) : Prop :=
  ∃ d, ds[k]? = some d ∧ (∀ e ∈ ds, d ≤ e) ∧ ∀ e ∈ ds.take k, d < e

/-- The first of the abscissas closest to the query stands at place `k`. -/
def FirstClosest (xs : List K) (x : K) (k : Nat) : Prop := FirstLeast (xs.map fun a => |x - a|) k

namespace Neville

variable [FloorRing K] [Elementary K]

/-- The search for the least entry goes through the whole row. -/
theorem firstLeast_leastFrom (pre : List K) {best : K} {here : Nat} (hget : pre[here]? = some best)
    (hle : ∀ e ∈ pre, best ≤ e) (hlt : ∀ e ∈ pre.take here, best < e) (rest : List K) :
    FirstLeast (pre ++ rest) (leastFrom best here pre.length rest) := by
  induction rest generalizing pre best here with
  | nil =>
    rw [List.append_nil]
    exact ⟨best, hget, hle, hlt⟩
  | cons y rest ih =>
    have hlen : pre.length + 1 = (pre ++ [y]).length := by simp
    have hhere : here < pre.length := (List.getElem?_eq_some_iff.1 hget).1
    rw [List.append_cons, leastFrom, Exact.lt_eq, hlen]
    by_cases hy : y < best
    · rw [if_pos (decide_eq_true hy)]
      refine ih (pre ++ [y]) (by simp) (fun e he => ?_) fun e he => ?_
      · rcases List.mem_append.1 he with he | he
        · exact hy.le.trans (hle e he)
        · exact (List.mem_singleton.1 he).ge
      · rw [List.take_left] at he
        exact hy.trans_le (hle e he)
    · -- An equal entry does not take the place of an earlier one.
      rw [if_neg (by simpa using hy)]
      refine ih (pre ++ [y]) ?_ (fun e he => ?_) fun e he => ?_
      · rw [List.getElem?_append_left hhere, hget]
      · rcases List.mem_append.1 he with he | he
        · exact hle e he
        · rw [List.mem_singleton.1 he]
          exact not_lt.1 hy
      · rw [List.take_append_of_le_length hhere.le] at he
        exact hlt e he

variable [IsStrictOrderedRing K] {xs ys : List K} {x : K}

/-- The tableau starts from the first of the closest abscissas. -/
theorem firstClosest_closest (hxs : xs ≠ []) : FirstClosest xs x (closest xs x) := by
  obtain ⟨a, rest, rfl⟩ := List.exists_cons_of_ne_nil hxs
  have habs : distances (a :: rest) x = |x - a| :: rest.map fun a => |x - a| := by
    rw [distances, List.map_cons]
    congr 1
    · exact Exact.abs_eq _
    · exact List.map_congr_left fun a _ => Exact.abs_eq _
  rw [closest, habs]
  exact firstLeast_leastFrom [|x - a|] rfl (by simp) (by simp) _

omit [IsStrictOrderedRing K] in
/-- Every distance is a number. -/
theorem closestOrNaN_eq (xs : List K) (x : K) : closestOrNaN xs x = closest xs x :=
  closestOrNaN_eq_closest fun d _ => Exact.isNaN_eq d

/-! ## A stage of the tableau -/

omit [IsStrictOrderedRing K] in
theorem gap_eq (near far : K) : gap x near far = near - far := by
  show near - x - (far - x) = near - far
  ring

omit [IsStrictOrderedRing K] in
/-- Abscissas that differ have gaps. -/
theorem apart_of_nodup (hxs : xs.Nodup) {m : Nat} (hpos : 0 < m) : Apart xs x m := by
  intro i near far hnear hfar
  have hne : near ≠ far := by
    rintro rfl
    have h := (List.getElem?_inj (List.getElem?_eq_some_iff.1 hnear).1 hxs).1 (hnear.trans hfar.symm)
    omega
  rw [gap_eq, Exact.eq_eq, Exact.zero_eq]
  exact decide_eq_false (sub_ne_zero.2 hne)

omit [IsStrictOrderedRing K] in
/-- Abscissas that coincide have none. -/
theorem exists_not_apart (hxs : ¬ xs.Nodup) : ∃ m, 0 < m ∧ m < xs.length ∧ ¬ Apart xs x m := by
  rw [List.nodup_iff_getElem?_ne_getElem?] at hxs
  push Not at hxs
  obtain ⟨i, j, hij, hj, heq⟩ := hxs
  refine ⟨j - i, by omega, by omega, fun hapart => ?_⟩
  have hfar : xs[i + (j - i)]? = some xs[j] := by
    rw [Nat.add_sub_cancel' hij.le, List.getElem?_eq_getElem hj]
  have h := hapart i xs[j] xs[j] (by rw [heq, List.getElem?_eq_getElem hj]) hfar
  rw [gap_eq, sub_self] at h
  simp at h

/-- **The invariant of a tableau** before stage `m`, which began with the entry `k`: its pairs tell
the windows of `m` points from those that lack one of them, and its value belongs to the window behind
the path.  The last correction was made to that window, and before it the value belonged to one that
lacks a point; neither window lacks entry `k`. -/
structure Invariant (xs ys : List K) (x : K) (k m : Nat) (t : Tableau K) : Prop where
  up : ∀ i, i + m ≤ xs.length → t.up[i]? =
    some ((window xs ys i m).eval x - (window xs ys i (m - 1)).eval x)
  down : ∀ i, i + m ≤ xs.length → t.down[i]? =
    some ((window xs ys i m).eval x - (window xs ys (i + 1) (m - 1)).eval x)
  value : t.value = (window xs ys (t.path + 1).toNat m).eval x
  window : (t.path + 1).toNat ≤ k ∧ k < (t.path + 1).toNat + m
  single : m = 1 → t.correction = 0
  shorter : 2 ≤ m → ∃ j ≤ 1, (t.path + 1).toNat + j ≤ k ∧ k < (t.path + 1).toNat + j + (m - 1) ∧
    t.value - t.correction = (Regrid.window xs ys ((t.path + 1).toNat + j) (m - 1)).eval x

namespace Invariant

variable {k m : Nat} {t t' : Tableau K}

omit [LinearOrder K] [FloorRing K] [Elementary K] [IsStrictOrderedRing K] in
/-- The entry that the tableau begins with is a window of one point. -/
theorem start (hlen : ys.length = xs.length) {y : K} (hy : ys[k]? = some y) :
    Invariant xs ys x k 1 ⟨ys, ys, (k : Int) - 1, y, 0⟩ := by
  have hvalue : ∀ {i : Nat} {b : K}, ys[i]? = some b → (Regrid.window xs ys i 1).eval x = b := by
    intro i b hb
    rw [window_one, Polynomial.eval_C, List.getD_eq_getElem?_getD, hb, Option.getD_some]
  have hentry : ∀ i j, i + 1 ≤ xs.length →
      ys[i]? = some ((Regrid.window xs ys i 1).eval x - (Regrid.window xs ys j 0).eval x) := by
    intro i j hi
    have hb : ys[i]? = some ys[i] := List.getElem?_eq_getElem (by omega)
    rw [hvalue hb, window_zero, Polynomial.eval_zero, sub_zero, hb]
  have hpath : ((k : Int) - 1 + 1).toNat = k := by omega
  refine ⟨fun i => hentry i i, fun i => hentry i (i + 1), ?_, ?_, fun _ => rfl, fun h => ?_⟩
  · rw [hpath, hvalue hy]
  · rw [hpath]
    omega
  · omega

omit [IsStrictOrderedRing K] in
/-- **Every stage preserves the invariant.** -/
theorem step (hxs : xs.Nodup) (ht : t.Inside xs.length m) (h : Invariant xs ys x k m t)
    (hfollows : Follows xs x m t t') : Invariant xs ys x k (m + 1) t' := by
  have hfirst := ht.first
  have hlast := hfollows.inside.last
  have hbefore : t'.value - t'.correction = t.value := by
    rw [hfollows.value]
    exact add_sub_cancel_right _ _
  obtain ⟨hleft, hright⟩ := h.window
  have hpos : 0 < m := by omega
  -- The new pairs are those of the windows of one point more.
  have hpairs : ∀ i, i + (m + 1) ≤ xs.length →
      t'.up[i]? = some ((Regrid.window xs ys i (m + 1)).eval x - (Regrid.window xs ys i m).eval x) ∧
      t'.down[i]? =
        some ((Regrid.window xs ys i (m + 1)).eval x - (Regrid.window xs ys (i + 1) m).eval x) := by
    intro i hi
    have hnear : xs[i]? = some xs[i] := List.getElem?_eq_getElem (by omega)
    have hfar : xs[i + m]? = some xs[i + m] := List.getElem?_eq_getElem (by omega)
    obtain ⟨hup, hdown⟩ := hfollows.pairs i _ _ _ _ hnear hfar (h.up (i + 1) (by omega))
      (h.down i (by omega))
    obtain ⟨hup', hdown'⟩ := window_succ_sub ys hxs hpos (by omega) hnear hfar x
    rw [gap_eq] at hup hdown
    -- The next entry and this one both lack the window between them.
    have hslope := sub_sub_sub_cancel_right ((Regrid.window xs ys (i + 1) m).eval x)
      ((Regrid.window xs ys i m).eval x) ((Regrid.window xs ys (i + 1) (m - 1)).eval x)
    rw [hup, hdown, hup', hdown', ← hslope]
    exact ⟨rfl, rfl⟩
  refine ⟨fun i hi => (hpairs i hi).1, fun i hi => (hpairs i hi).2, ?_, ?_, fun hm => by omega, ?_⟩
  · rcases hfollows.path with ⟨hpath, hget⟩ | ⟨h0, hpath, hget⟩
    · rw [hpath] at hlast ⊢
      rw [(hpairs _ (by omega)).1] at hget
      rw [hfollows.value, ← Option.some.inj hget, h.value]
      exact add_sub_cancel _ _
    · have hplace : (t.path + 1).toNat = t.path.toNat + 1 := by omega
      rw [hpath] at hlast ⊢
      rw [(hpairs _ (by omega)).2] at hget
      rw [hfollows.value, ← Option.some.inj hget, h.value, hplace, sub_add_cancel]
      exact add_sub_cancel _ _
  · rcases hfollows.path with ⟨hpath, -⟩ | ⟨h0, hpath, -⟩
    · rw [hpath]
      omega
    · rw [hpath]
      omega
  · rcases hfollows.path with ⟨hpath, -⟩ | ⟨h0, hpath, -⟩
    · refine fun _ => ⟨0, by omega, ?_⟩
      rw [hbefore, hpath, h.value]
      exact ⟨hleft, hright, rfl⟩
    · have hplace : (t'.path + 1).toNat + 1 = (t.path + 1).toNat := by omega
      refine fun _ => ⟨1, by omega, ?_⟩
      rw [hbefore, hplace, h.value]
      exact ⟨hleft, hright, rfl⟩

end Invariant

/-! ## The result -/

/-- **What an estimate says** of the table with abscissas `xs` and ordinates `ys`. -/
structure Interpolates (xs ys : List K) (x : K) (e : Estimate K) : Prop where
  /-- One polynomial goes through the table, and the value is its value at the query. -/
  value : ∃ p, Through xs ys p ∧ (∀ q, Through xs ys q → q = p) ∧ e.value = p.eval x
  /-- Nothing is added to a single point. -/
  single : xs.length = 1 → e.correction = 0
  /-- The last correction was made to the polynomial through all points but one, which is the last
  or the first of them, and not the first of those closest to the query. -/
  shorter : 2 ≤ xs.length → ∃ j k p, j ≤ 1 ∧ FirstClosest xs x k ∧ j ≤ k ∧ k < j + (xs.length - 1) ∧
    Through ((xs.drop j).take (xs.length - 1)) ((ys.drop j).take (xs.length - 1)) p ∧
    e.value - e.correction = p.eval x

theorem exists_evaluate_closest (coincide : Nat → K → Nat → K → Fault K) (hne : xs ≠ [])
    (hlen : ys.length = xs.length) (hxs : xs.Nodup) :
    ∃ e, evaluate coincide xs ys x (closest xs x) = .ok e ∧ Interpolates xs ys x e := by
  have hclosest : FirstClosest xs x (closest xs x) := firstClosest_closest hne
  obtain ⟨d, hd, -⟩ := hclosest
  have hlt : closest xs x < xs.length := by
    simpa using (List.getElem?_eq_some_iff.1 hd).1
  obtain ⟨t, hevaluate, hinside, hinv⟩ := evaluate_eq_ok coincide hlen hlt
    (fun m hpos _ => apart_of_nodup hxs hpos) (P := Invariant xs ys x (closest xs x))
    (fun y hy => by rw [Exact.zero_eq]; exact Invariant.start hlen hy)
    (fun m t t' ht h hfollows => h.step hxs ht hfollows)
  have hfirst := hinside.first
  have hlast := hinside.last
  have hpath : (t.path + 1).toNat = 0 := by omega
  refine ⟨⟨t.value, t.correction⟩, hevaluate, ⟨_, through_window_all hxs hlen,
    fun q hq => hq.eq hxs (through_window_all hxs hlen), ?_⟩, hinv.single, fun h2 => ?_⟩
  · rw [hinv.value, hpath]
  · obtain ⟨j, hj, hjk, hkj, hvalue⟩ := hinv.shorter h2
    rw [hpath, Nat.zero_add] at hjk hkj hvalue
    exact ⟨j, _, _, hj, firstClosest_closest hne, hjk, hkj, through_window hxs hlen (by omega),
      hvalue⟩

end Neville

/-! ## The backends -/

namespace Backend

variable [FloorRing K] [Elementary K]

theorem polynomialOf_endAlike (b b' : Backend) (xs ys : List K) (x : K) :
    Outcome.EndAlike (b.polynomialOf (NdArray.vector xs) (NdArray.vector ys) x)
      (b'.polynomialOf (NdArray.vector xs) (NdArray.vector ys) x) := by
  rw [polynomialOf_vector, polynomialOf_vector]
  exact polynomial_endAlike (Neville.closestOrNaN_eq xs x) b b'

theorem polynomialOf_reference (xs ys : List K) (x : K) :
    reference.polynomialOf (NdArray.vector xs) (NdArray.vector ys) x =
      if xs.length = 0 ∨ ys.length ≠ xs.length then
        .error (.dimensionMismatch (.tableLengths xs.length ys.length))
      else Neville.evaluate .singularStencil xs ys x (Neville.closest xs x) := by
  rw [polynomialOf_vector, ← Neville.closestOrNaN_eq]
  rfl

variable [IsStrictOrderedRing K] (b : Backend) {xs ys : List K} {x : K}

omit [IsStrictOrderedRing K] in
/-- A table without points and rows of two lengths are refused. -/
theorem exists_dimensionMismatch (h : xs = [] ∨ ys.length ≠ xs.length) :
    ∃ fault, b.polynomialOf (NdArray.vector xs) (NdArray.vector ys) x = .error fault ∧
      fault.kind = .dimensionMismatch := by
  rw [← List.length_eq_zero_iff] at h
  have hreference := polynomialOf_reference xs ys x
  rw [if_pos h] at hreference
  exact (polynomialOf_endAlike b reference xs ys x).exists_error_iff.2 ⟨_, hreference, rfl⟩

/-- Abscissas that coincide are refused. -/
theorem exists_singularStencil (hne : xs ≠ []) (hlen : ys.length = xs.length) (hxs : ¬ xs.Nodup) :
    ∃ fault, b.polynomialOf (NdArray.vector xs) (NdArray.vector ys) x = .error fault ∧
      fault.kind = .singularStencil := by
  obtain ⟨d, hd, -⟩ : FirstClosest xs x (Neville.closest xs x) := Neville.firstClosest_closest hne
  have hlt : Neville.closest xs x < xs.length := by
    simpa using (List.getElem?_eq_some_iff.1 hd).1
  obtain ⟨m, hpos, hm, hapart⟩ := Neville.exists_not_apart (x := x) hxs
  obtain ⟨i, a, j, c, herror⟩ := Neville.evaluate_eq_error .singularStencil hlen hlt hpos hm hapart
  have hreference := polynomialOf_reference xs ys x
  rw [if_neg (by simp [hne, hlen]), herror] at hreference
  exact (polynomialOf_endAlike b reference xs ys x).exists_error_iff.2 ⟨_, hreference, rfl⟩

/-- Every other table is interpolated, by all backends alike. -/
theorem exists_polynomialOf (hne : xs ≠ []) (hlen : ys.length = xs.length) (hxs : xs.Nodup) :
    ∃ e, (∀ b : Backend, b.polynomialOf (NdArray.vector xs) (NdArray.vector ys) x = .ok e) ∧
      Neville.Interpolates xs ys x e := by
  obtain ⟨e, he, hinterpolates⟩ := Neville.exists_evaluate_closest .singularStencil (x := x) hne hlen
    hxs
  refine ⟨e, fun b => (polynomialOf_endAlike b reference xs ys x).eq_ok_iff.2 ?_, hinterpolates⟩
  rw [polynomialOf_reference, if_neg (by simp [hne, hlen]), he]

/-- Only a table with coinciding abscissas is refused if its lengths are right. -/
theorem not_nodup_of_error (hne : xs ≠ []) (hlen : ys.length = xs.length) {fault : Fault K}
    (h : b.polynomialOf (NdArray.vector xs) (NdArray.vector ys) x = .error fault) : ¬ xs.Nodup := by
  intro hxs
  obtain ⟨e, he, -⟩ := exists_polynomialOf (x := x) hne hlen hxs
  rw [he b] at h
  cases h

theorem exists_dimensionMismatch_iff :
    (∃ fault, b.polynomialOf (NdArray.vector xs) (NdArray.vector ys) x = .error fault ∧
      fault.kind = .dimensionMismatch) ↔ xs = [] ∨ ys.length ≠ xs.length := by
  refine ⟨?_, exists_dimensionMismatch b⟩
  rintro ⟨fault, hfault, hkind⟩
  by_contra h
  push Not at h
  have hsingular := Outcome.kind_eq_of_exists_error hfault
    (exists_singularStencil b h.1 h.2 (not_nodup_of_error b h.1 h.2 hfault))
  rw [hkind] at hsingular
  cases hsingular

theorem exists_singularStencil_iff :
    (∃ fault, b.polynomialOf (NdArray.vector xs) (NdArray.vector ys) x = .error fault ∧
      fault.kind = .singularStencil) ↔ xs ≠ [] ∧ ys.length = xs.length ∧ ¬ xs.Nodup := by
  refine ⟨?_, fun h => exists_singularStencil b h.1 h.2.1 h.2.2⟩
  rintro ⟨fault, hfault, hkind⟩
  by_cases h : xs = [] ∨ ys.length ≠ xs.length
  · have hmismatch := Outcome.kind_eq_of_exists_error hfault (exists_dimensionMismatch b h)
    rw [hkind] at hmismatch
    cases hmismatch
  · push Not at h
    exact ⟨h.1, h.2, not_nodup_of_error b h.1 h.2 hfault⟩

omit b in
/-- The points may stand in any order: the polynomial through them is one through them in another
order, and there is one. -/
theorem exists_polynomialOf_pick (hne : xs ≠ []) (hlen : ys.length = xs.length) (hxs : xs.Nodup)
    {e : Estimate K} (he : Neville.Interpolates xs ys x e) {order : List Nat}
    (horder : order.Perm (List.range xs.length)) :
    ∃ e', (∀ b : Backend, b.polynomialOf (NdArray.vector (Column.pick xs order))
      (NdArray.vector (Column.pick ys order)) x = .ok e') ∧ e'.value = e.value := by
  have hlenx := Column.length_pick_of_perm horder
  have hleny : (Column.pick ys order).length = ys.length :=
    Column.length_pick_of_perm (by rwa [hlen])
  have hne' : Column.pick xs order ≠ [] := by
    rwa [← List.length_pos_iff, hlenx, List.length_pos_iff]
  have hxs' : (Column.pick xs order).Nodup := (Column.pick_perm horder).nodup_iff.2 hxs
  have hlen' : (Column.pick ys order).length = (Column.pick xs order).length := by
    rw [hleny, hlenx, hlen]
  obtain ⟨e', he', hinterpolates'⟩ := exists_polynomialOf (x := x) hne' hlen' hxs'
  obtain ⟨p, hp, -, hvalue⟩ := he.value
  obtain ⟨q, hq, honly, hvalue'⟩ := hinterpolates'.value
  exact ⟨e', he', by rw [hvalue, hvalue', honly p (hp.pick horder)]⟩

/-- **A backend's polynomial is Lagrange's.**  A table is refused as one of wrong lengths just if it
has no points or its rows differ in length, and else as a singular one just if two of its
abscissas coincide.  The polynomial through any other table has one estimate for all backends:
its value is that of the one polynomial through the points, in whichever order they stand, and
without the last correction that of the one through all but one of them. -/
theorem polynomialOf_interpolates (xs ys : List K) (x : K) :
    (∀ b : Backend, (∃ fault, b.polynomialOf (NdArray.vector xs) (NdArray.vector ys) x =
      .error fault ∧ fault.kind = .dimensionMismatch) ↔ xs = [] ∨ ys.length ≠ xs.length) ∧
    (∀ b : Backend, (∃ fault, b.polynomialOf (NdArray.vector xs) (NdArray.vector ys) x =
      .error fault ∧ fault.kind = .singularStencil) ↔
        xs ≠ [] ∧ ys.length = xs.length ∧ ¬ xs.Nodup) ∧
    (xs ≠ [] → ys.length = xs.length → xs.Nodup →
      ∃ e, (∀ b : Backend, b.polynomialOf (NdArray.vector xs) (NdArray.vector ys) x = .ok e) ∧
        Neville.Interpolates xs ys x e ∧
        ∀ order : List Nat, order.Perm (List.range xs.length) →
          ∃ e', (∀ b : Backend, b.polynomialOf (NdArray.vector (Column.pick xs order))
            (NdArray.vector (Column.pick ys order)) x = .ok e') ∧ e'.value = e.value) := by
  refine ⟨fun b => exists_dimensionMismatch_iff b, fun b => exists_singularStencil_iff b,
    fun hne hlen hxs => ?_⟩
  obtain ⟨e, he, hinterpolates⟩ := exists_polynomialOf (x := x) hne hlen hxs
  exact ⟨e, he, hinterpolates, fun order horder =>
    exists_polynomialOf_pick hne hlen hxs hinterpolates horder⟩

/-- Three points in another order. -/
theorem polynomialOf_interpolates_three_points :
    let xs : List ℚ := [0, 1, 3]
    let ys : List ℚ := [1, 2, 10]
    ∃ e e', (∀ b : Backend, b.polynomialOf (NdArray.vector xs) (NdArray.vector ys) 2 = .ok e) ∧
      Neville.Interpolates xs ys 2 e ∧
      (∀ b : Backend, b.polynomialOf (NdArray.vector [3, 0, 1]) (NdArray.vector [10, 1, 2]) 2 =
        .ok e') ∧ e'.value = e.value := by
  intro xs ys
  have hxs : xs.Nodup := by decide +kernel
  obtain ⟨-, -, hok⟩ := polynomialOf_interpolates xs ys 2
  obtain ⟨e, he, hinterpolates, horders⟩ := hok (by decide) rfl hxs
  obtain ⟨e', he', hvalue⟩ := horders [2, 0, 1] (by decide)
  exact ⟨e, e', he, hinterpolates, he', hvalue⟩

end Backend

end Regrid
