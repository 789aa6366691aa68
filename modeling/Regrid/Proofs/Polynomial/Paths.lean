import Regrid.Proofs.Polynomial.Tableau
import Regrid.Scalar.Double

/-!
# Paths through a tableau

A tableau keeps its rows at their full length, and a stage makes only the front of them anew: what is
behind is left from the stages before.  The path is an index into the rows, in front of the first entry
when it is below nought; and an index below nought would name an entry at the end of a row.  Nothing
in a row tells which of its entries are new.

The path tells.  Before stage `m` the window of the `m` points behind it lies in the table
(`Tableau.Inside`), and every stage keeps this (`Reaches.inside`), since the choice of the row weighs
the points on both sides of the window.  So a stage goes on with an entry that it has made itself
(`Follows.exists_taken`), and after the last stage, when the window is the whole table, the path is in
front of all entries (`path_stays_inside`).  Neither the abscissas nor the ordinates have to be numbers
for it.
-/
namespace Regrid
namespace Neville

variable {α : Type} [Scalar α]

/-! ## The tableaux on the way -/

/-- **The tableaux that are reached**, each with the number of the stage that comes next. -/
inductive Reaches (coincide : Nat → α → Nat → α → Fault α) (xa : List α) (x : α) (t₀ : Tableau α) :
    Nat → Tableau α → Prop
  | start : Reaches coincide xa x t₀ 1 t₀
  | stage {m : Nat} {t t' : Tableau α} (here : Reaches coincide xa x t₀ m t) (hm : m < xa.length)
      (next : stage coincide xa x m t = .ok t') : Reaches coincide xa x t₀ (m + 1) t'

section Run
variable {coincide : Nat → α → Nat → α → Fault α} {xa : List α} {x : α} {t₀ t t' : Tableau α} {m : Nat}

/-- The last one of some stages comes after all others. -/
theorem stages_succ (count m : Nat) (t : Tableau α) :
    stages coincide xa x (count + 1) m t =
      stages coincide xa x count m t >>= stage coincide xa x (m + count) := by
  induction count generalizing m t with
  | zero =>
    rw [stages, stages, Outcome.pure_eq_ok, Outcome.ok_bind]
    exact bind_pure _
  | succ count ih =>
    rw [stages, stages, bind_assoc]
    apply Outcome.bind_congr
    intro t₁ _
    rw [ih, Nat.succ_add_eq_add_succ]

theorem Reaches.pos (h : Reaches coincide xa x t₀ m t) : 0 < m := by
  cases h with
  | start => exact Nat.one_pos
  | stage => exact Nat.succ_pos _

/-- What is reached is what some stages end with. -/
theorem reaches_iff {count : Nat} (hcount : count < xa.length) :
    Reaches coincide xa x t₀ (count + 1) t ↔ stages coincide xa x count 1 t₀ = .ok t := by
  induction count generalizing t with
  | zero =>
    constructor
    · intro h
      cases h with
      | start => rfl
      | stage here => exact absurd here.pos (Nat.lt_irrefl 0)
    · intro h
      cases h
      exact .start
  | succ count ih =>
    have ih := fun t => ih (t := t) (by omega)
    rw [stages_succ, Outcome.bind_eq_ok_iff, Nat.add_comm 1 count]
    constructor
    · intro h
      cases h with
      | stage here _ next => exact ⟨_, (ih _).1 here, next⟩
    · rintro ⟨t₁, hstages, hstage⟩
      exact .stage ((ih t₁).2 hstages) hcount hstage

/-- The result is that of the tableau after the last stage. -/
theorem evaluate_eq_ok_iff {ya : List α} {nearest : Nat} (hne : xa ≠ []) (h : start ya nearest = .ok t₀)
    {e : Estimate α} : evaluate coincide xa ya x nearest = .ok e ↔
      ∃ t, Reaches coincide xa x t₀ xa.length t ∧ e = ⟨t.value, t.correction⟩ := by
  have hpos := List.length_pos_iff.2 hne
  have hreaches : ∀ t, Reaches coincide xa x t₀ xa.length t ↔
      stages coincide xa x (xa.length - 1) 1 t₀ = .ok t := by
    intro t
    rw [← reaches_iff (show xa.length - 1 < xa.length by omega), Nat.sub_add_cancel hpos]
  rw [evaluate, h, Outcome.ok_bind, Outcome.bind_eq_ok_iff]
  simp only [hreaches, Outcome.pure_eq_ok, Except.ok.injEq, eq_comm]

/-! ## The window -/

/-- A stage that ends has followed the tableau before it. -/
theorem follows_of_stage_eq_ok (ht : t.Inside xa.length m) (hpos : 0 < m) (hm : m < xa.length)
    (h : stage coincide xa x m t = .ok t') : Follows xa x m t t' := by
  by_cases hapart : Apart xa x m
  · obtain ⟨t₁, hstage, hfollows⟩ := stage_eq_ok coincide ht hpos hm hapart
    obtain rfl : t₁ = t' := Except.ok.inj (hstage.symm.trans h)
    exact hfollows
  · obtain ⟨i, a, j, b, herror⟩ := stage_eq_error coincide ht hpos hm hapart
    cases herror.symm.trans h

/-- **The window never leaves the table.** -/
theorem Reaches.inside (h : Reaches coincide xa x t₀ m t) (h₀ : t₀.Inside xa.length 1) :
    t.Inside xa.length m := by
  induction h with
  | start => exact h₀
  | stage here hm next ih => exact (follows_of_stage_eq_ok ih here.pos hm next).inside

/-! ## The choice -/

/-- The pair at the index `k` is made anew in stage `m`, from the abscissas `m` places apart and
from the entries before. -/
def Renewed (xa : List α) (x : α) (m : Nat) (t t' : Tableau α) (k : Nat) : Prop :=
  ∃ near far next d, xa[k]? = some near ∧ xa[k + m]? = some far ∧
    t.up[k + 1]? = some next ∧ t.down[k]? = some d ∧
    t'.up[k]? = some ((near - x) * ((next - d) / gap x near far)) ∧
    t'.down[k]? = some ((far - x) * ((next - d) / gap x near far))

/-- **The correction is taken from the index `k`**: of the upper row behind the path, or of the
lower row at the path, which goes back then. -/
inductive Takes (n m : Nat) (t t' : Tableau α) (k : Nat) : Prop
  | up (goes : goesUp n m t.path = true) (index : t.path + 1 = k)
      (taken : t'.up[k]? = some t'.correction) (path : t'.path = t.path)
  | down (goes : goesUp n m t.path = false) (index : t.path = k)
      (taken : t'.down[k]? = some t'.correction) (path : t'.path = t.path - 1)

/-- The row that is taken from, and the path after it. -/
theorem stage_takes (h : stage coincide xa x m t = .ok t') :
    (goesUp xa.length m t.path = true ∧ entry t'.up (t.path + 1) = .ok t'.correction ∧
        t'.path = t.path) ∨
      (goesUp xa.length m t.path = false ∧ entry t'.down t.path = .ok t'.correction ∧
        t'.path = t.path - 1) := by
  obtain ⟨⟨up, down⟩, -, h⟩ := Outcome.bind_eq_ok_iff.1 h
  by_cases hgoes : goesUp xa.length m t.path = true
  · simp only [hgoes, if_true] at h
    obtain ⟨s, hs, h⟩ := Outcome.bind_eq_ok_iff.1 h
    cases h
    exact .inl ⟨hgoes, hs, rfl⟩
  · simp only [hgoes] at h
    obtain ⟨s, hs, h⟩ := Outcome.bind_eq_ok_iff.1 h
    cases h
    exact .inr ⟨Bool.eq_false_of_not_eq_true hgoes, hs, rfl⟩

/-- All pairs whose far abscissa is in the table are made anew. -/
theorem Follows.renewed (h : Follows xa x m t t') (ht : t.Inside xa.length m) (hpos : 0 < m) {k : Nat}
    (hk : k + m < xa.length) : Renewed xa x m t t' k := by
  have hup : k + 1 < t.up.length := by
    rw [ht.up]
    omega
  have hdown : k < t.down.length := by
    rw [ht.down]
    omega
  have hnear := List.getElem?_eq_getElem (show k < xa.length by omega)
  have hfar := List.getElem?_eq_getElem hk
  have hnext := List.getElem?_eq_getElem hup
  have hd := List.getElem?_eq_getElem hdown
  exact ⟨_, _, _, _, hnear, hfar, hnext, hd, h.pairs k _ _ _ _ hnear hfar hnext hd⟩

omit [Scalar α] in
/-- An index inside a row does not count from its end. -/
theorem getElem?_of_entry_eq_ok {row : List α} {i : Int} {k : Nat} {s : α} (hi : i = k)
    (hk : k < row.length) (h : entry row i = .ok s) : row[k]? = some s := by
  subst hi
  obtain ⟨s', hs', hget⟩ := exists_entry row (Int.natCast_nonneg k) (Int.ofNat_lt.2 hk)
  obtain rfl : s' = s := Except.ok.inj (hs'.symm.trans h)
  rwa [Int.toNat_natCast] at hget

/-- **A stage goes on with a correction that it has made itself.** -/
theorem Follows.exists_taken (h : Follows xa x m t t') (ht : t.Inside xa.length m) (hpos : 0 < m)
    (hm : m < xa.length) (hstage : stage coincide xa x m t = .ok t') :
    ∃ k : Nat, k + m < xa.length ∧ Takes xa.length m t t' k ∧ Renewed xa x m t t' k := by
  have hfirst := ht.first
  have hlast := ht.last
  rcases stage_takes hstage with ⟨hgoes, htaken, hpath⟩ | ⟨hgoes, htaken, hpath⟩
  · -- There are more points behind the window than in front of it, so there is one behind.
    have hmore : 2 * (t.path + 1) < (xa.length : Int) - m := of_decide_eq_true hgoes
    obtain ⟨k, hk⟩ := Int.eq_ofNat_of_zero_le (show 0 ≤ t.path + 1 by omega)
    have hkm : k + m < xa.length := by omega
    have hrow : k < t'.up.length := by
      rw [h.inside.up]
      omega
    exact ⟨k, hkm, .up hgoes hk (getElem?_of_entry_eq_ok hk hrow htaken) hpath, h.renewed ht hpos hkm⟩
  · -- There are no more points behind the window than in front of it, and some outside, as `m` is less
    -- than their number; so there is one in front.
    have hless : ¬ 2 * (t.path + 1) < (xa.length : Int) - m := of_decide_eq_false hgoes
    obtain ⟨k, hk⟩ := Int.eq_ofNat_of_zero_le (show 0 ≤ t.path by omega)
    have hkm : k + m < xa.length := by omega
    have hrow : k < t'.down.length := by
      rw [h.inside.down]
      omega
    exact ⟨k, hkm, .down hgoes hk (getElem?_of_entry_eq_ok hk hrow htaken) hpath, h.renewed ht hpos hkm⟩

end Run

/-! ## Every table -/

variable {xa ya : List α}

/-- **The path stays inside the tableau**, whatever the table holds, from every entry that it may start
at.  Before stage `m` it is between the place in front of the first entry and the last entry that the
stage makes.  The stage tells that abscissas coincide, or it takes a correction at an index, never
below nought, of an entry that it has just made.  After the last stage the path is in front of all
entries.  The tableaux on this way are those that give the polynomial on every backend. -/
theorem path_stays_inside (hne : xa ≠ []) (hlen : ya.length = xa.length) (x : α) :
    (∀ b : Backend, ∃ coincide nearest, nearest < xa.length ∧
      b.polynomial xa ya x = evaluate coincide xa ya x nearest) ∧
    ∀ (coincide : Nat → α → Nat → α → Fault α) (nearest : Nat), nearest < xa.length →
      ∃ t₀, start ya nearest = .ok t₀ ∧ t₀.path = (nearest : Int) - 1 ∧
        (∀ e, evaluate coincide xa ya x nearest = .ok e ↔
          ∃ t, Reaches coincide xa x t₀ xa.length t ∧ e = ⟨t.value, t.correction⟩) ∧
        (∀ m t, Reaches coincide xa x t₀ m t → m < xa.length →
          (-1 ≤ t.path ∧ t.path ≤ (xa.length : Int) - m - 1) ∧
          ((∃ i a j b, stage coincide xa x m t = .error (coincide i a j b)) ∨
            ∃ t', stage coincide xa x m t = .ok t' ∧ ∃ k : Nat, (k : Int) ≤ xa.length - m - 1 ∧
              Takes xa.length m t t' k ∧ Renewed xa x m t t' k)) ∧
        ∀ t, Reaches coincide xa x t₀ xa.length t → t.path = -1 := by
  refine ⟨fun b => ?_, fun coincide nearest hnearest => ?_⟩
  · obtain ⟨coincide, nearest, hnearest, -, hpolynomial⟩ := b.exists_polynomial_eq_evaluate hne hlen x
    exact ⟨coincide, nearest, hnearest, hpolynomial⟩
  obtain ⟨y, -, hbegin, hinside⟩ := exists_start hlen hnearest
  refine ⟨_, hbegin, rfl, fun e => evaluate_eq_ok_iff hne hbegin, fun m t ht hm => ?_, fun t ht => ?_⟩
  · have hwindow := ht.inside hinside
    have hlast := hwindow.last
    refine ⟨⟨hwindow.first, by omega⟩, ?_⟩
    by_cases hapart : Apart xa x m
    · obtain ⟨t', hstage, hfollows⟩ := stage_eq_ok coincide hwindow ht.pos hm hapart
      obtain ⟨k, hk, htakes, hrenewed⟩ := hfollows.exists_taken hwindow ht.pos hm hstage
      exact .inr ⟨t', hstage, k, by omega, htakes, hrenewed⟩
    · exact .inl (stage_eq_error coincide hwindow ht.pos hm hapart)
  · have hwindow := ht.inside hinside
    have hfirst := hwindow.first
    have hlast := hwindow.last
    omega

/-- Doubles that are no numbers, among the abscissas and the ordinates and as the query. -/
theorem path_stays_inside_nan :
    let nan : Float := 0 / 0
    let xa : List Float := [0, nan, 1, 3]
    let ya : List Float := [nan, 5, 5, 2]
    xa ≠ [] ∧ ya.length = xa.length ∧ ∃ t₀ t, start ya 3 = .ok t₀ ∧ t₀.path = 2 ∧
      Reaches .singularStencil xa nan t₀ 4 t ∧ t.path = -1 := by
  intro nan xa ya
  have hlen : ya.length = xa.length := by decide
  obtain ⟨-, hevery⟩ := path_stays_inside (List.cons_ne_nil _ _ : xa ≠ []) hlen nan
  obtain ⟨t₀, hstart, hpath, hresult, -, hend⟩ := hevery .singularStencil 3 (by decide)
  have hok : (evaluate .singularStencil xa ya nan 3).isOk = true := by decide +kernel
  obtain ⟨e, he⟩ := Outcome.exists_of_isOk hok
  obtain ⟨t, hreaches, -⟩ := (hresult e).1 he
  exact ⟨List.cons_ne_nil _ _, hlen, t₀, t, hstart, hpath, hreaches, hend t hreaches⟩

end Neville
end Regrid
