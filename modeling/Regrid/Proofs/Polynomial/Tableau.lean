import Regrid.Backend
import Regrid.Proofs.Kinds

/-!
# The tableau of a table

What a tableau does on every scalar, whatever its laws.  A stage needs the abscissas that stand its
number of places apart to have a gap between them (`Neville.Apart`); then it puts in the new pairs
and takes one step of the path (`Neville.stage_eq_ok`), and if two of them have none it tells so
(`Neville.stage_eq_error`).  The path never leaves the rows (`Tableau.Inside`): there is a window of as
many points as there were stages, and one more, and it always lies in the table.  So the only
fault of a tableau is that abscissas coincide (`Neville.stages_eq_error`).

How that is told is the only thing that depends on who is told (`Neville.evaluate_endAlike`), so the
polynomials of all backends end alike where all distances are numbers (`Backend.polynomial_endAlike`).
-/
namespace Regrid
namespace Neville

variable {α : Type} [Scalar α]

/-! ## Gaps -/

/-- The gap between two abscissas, as a tableau takes it. -/
def gap (x near far : α) : α := near - x - (far - x)

/-- **There is a gap** between any two abscissas that stand `m` places apart. -/
def Apart (xa : List α) (x : α) (m : Nat) : Prop :=
  ∀ (i : Nat) (near far : α), xa[i]? = some near → xa[i + m]? = some far →
    Scalar.eq (gap x near far) Scalar.zero = false

/-! ## The pairs of a stage -/

omit [Scalar α] in
/-- Rows that reach as far as the far abscissas have entries where these have their first one. -/
theorem exists_heads {far : α} {fars nears cs ds : List α}
    (hnears : (far :: fars).length ≤ nears.length) (hcs : (far :: fars).length < cs.length)
    (hds : ds.length = cs.length) :
    ∃ near nears' c next cs' d ds', nears = near :: nears' ∧ cs = c :: next :: cs' ∧ ds = d :: ds' ∧
      fars.length ≤ nears'.length ∧ fars.length < (next :: cs').length ∧
      ds'.length = (next :: cs').length := by
  obtain ⟨near, nears, rfl⟩ : ∃ near later, nears = near :: later :=
    List.exists_cons_of_length_pos (Nat.lt_of_lt_of_le (Nat.succ_pos _) hnears)
  obtain ⟨c, next, cs, rfl⟩ : ∃ c next later, cs = c :: next :: later := by
    match cs, hcs with
    | c :: next :: later, _ => exact ⟨c, next, later, rfl⟩
  obtain ⟨d, ds, rfl⟩ : ∃ d later, ds = d :: later :=
    List.exists_cons_of_length_pos (by rw [hds]; exact Nat.succ_pos _)
  exact ⟨near, nears, c, next, cs, d, ds, rfl, rfl, rfl, Nat.le_of_succ_le_succ hnears,
    Nat.lt_of_succ_lt_succ hcs, Nat.succ.inj hds⟩

section Corrections
variable (coincide : Nat → α → Nat → α → Fault α) {coincide' : Nat → α → Nat → α → Fault α} {x : α}
  {m : Nat}

theorem corrections_nil (i : Nat) (nears cs ds : List α) :
    corrections coincide x m i nears [] cs ds = .ok (cs, ds) := by
  cases nears <;> rfl

theorem corrections_cons (i : Nat) (near far c next d : α) (nears fars cs ds : List α) :
    corrections coincide x m i (near :: nears) (far :: fars) (c :: next :: cs) (d :: ds) =
      if Scalar.eq (gap x near far) Scalar.zero then .error (coincide i near (i + m) far)
      else corrections coincide x m (i + 1) nears fars (next :: cs) ds >>= fun rows =>
        .ok ((near - x) * ((next - d) / gap x near far) :: rows.1,
          (far - x) * ((next - d) / gap x near far) :: rows.2) := by
  rw [corrections]
  by_cases h : Scalar.eq (near - x - (far - x)) Scalar.zero = true
  · simp only [gap, h, if_true]
    rfl
  · simp only [gap, h]
    rfl

/-- The new pairs, where there are gaps: as many as before, the ones over gaps replaced. -/
theorem corrections_eq_ok {i : Nat} {nears fars cs ds : List α} (hnears : fars.length ≤ nears.length)
    (hcs : fars.length < cs.length) (hds : ds.length = cs.length)
    (hgap : ∀ (j : Nat) (near far : α), nears[j]? = some near → fars[j]? = some far →
      Scalar.eq (gap x near far) Scalar.zero = false) :
    ∃ up down, corrections coincide x m i nears fars cs ds = .ok (up, down) ∧
      up.length = cs.length ∧ down.length = cs.length ∧
      ∀ (j : Nat) (near far next d : α), nears[j]? = some near → fars[j]? = some far →
        cs[j + 1]? = some next → ds[j]? = some d →
        up[j]? = some ((near - x) * ((next - d) / gap x near far)) ∧
          down[j]? = some ((far - x) * ((next - d) / gap x near far)) := by
  induction fars generalizing i nears cs ds with
  | nil => exact ⟨cs, ds, corrections_nil .., rfl, hds, by simp⟩
  | cons far fars ih =>
    obtain ⟨near, nears, c, next, cs, d, ds, rfl, rfl, rfl, hnears, hcs, hds⟩ :=
      exists_heads hnears hcs hds
    obtain ⟨up, down, hrows, hup, hdown, hentries⟩ := ih (i := i + 1) hnears hcs hds
      fun j => hgap (j + 1)
    have hfirst := hgap 0 near far rfl rfl
    refine ⟨(near - x) * ((next - d) / gap x near far) :: up,
      (far - x) * ((next - d) / gap x near far) :: down, ?_, ?_, ?_, ?_⟩
    · rw [corrections_cons, hfirst, hrows]
      rfl
    · rw [List.length_cons, hup]
      rfl
    · rw [List.length_cons, hdown]
      rfl
    · rintro (_ | j) near' far' next' d' hn hf hnext hd
      · cases hn
        cases hf
        cases hnext
        cases hd
        exact ⟨rfl, rfl⟩
      · exact hentries j near' far' next' d' hn hf hnext hd

/-- Where there is no gap, it is told. -/
theorem corrections_eq_error {i : Nat} {nears fars cs ds : List α}
    (hnears : fars.length ≤ nears.length) (hcs : fars.length < cs.length)
    (hds : ds.length = cs.length) {j : Nat} {near far : α} (hn : nears[j]? = some near)
    (hf : fars[j]? = some far) (hgap : Scalar.eq (gap x near far) Scalar.zero = true) :
    ∃ first a second b, corrections coincide x m i nears fars cs ds =
      .error (coincide first a second b) := by
  induction fars generalizing i nears cs ds j with
  | nil => cases hf
  | cons far' fars ih =>
    obtain ⟨near', nears, c, next, cs, d, ds, rfl, rfl, rfl, hnears, hcs, hds⟩ :=
      exists_heads hnears hcs hds
    rw [corrections_cons]
    by_cases hfirst : Scalar.eq (gap x near' far') Scalar.zero = true
    · exact ⟨i, near', i + m, far', by rw [if_pos hfirst]⟩
    · rw [if_neg hfirst]
      cases j with
      | zero =>
        cases hn
        cases hf
        exact absurd hgap hfirst
      | succ j =>
        obtain ⟨first, a, second, b, herror⟩ := ih (i := i + 1) hnears hcs hds hn hf
        exact ⟨first, a, second, b, by rw [herror]; rfl⟩

/-- Coinciding abscissas may be told in another way of the same kind. -/
theorem corrections_endAlike {coincide : Nat → α → Nat → α → Fault α}
    (h : ∀ i a j b, (coincide i a j b).kind = (coincide' i a j b).kind) (i : Nat)
    (nears fars cs ds : List α) :
    Outcome.EndAlike (corrections coincide x m i nears fars cs ds)
      (corrections coincide' x m i nears fars cs ds) := by
  induction fars generalizing i nears cs ds with
  | nil =>
    rw [corrections_nil, corrections_nil]
    exact .refl _
  | cons far fars ih =>
    match nears, cs, ds with
    | near :: nears, c :: next :: cs, d :: ds =>
      rw [corrections_cons, corrections_cons]
      by_cases hgap : Scalar.eq (gap x near far) Scalar.zero = true
      · rw [if_pos hgap, if_pos hgap]
        exact .of_kind_eq (h ..)
      · rw [if_neg hgap, if_neg hgap]
        exact (ih ..).bind fun rows _ => .refl _
    -- Rows that end before the far abscissas do are left as they are.
    | [], cs, ds => exact .refl (.ok (cs, ds))
    | _ :: _, [], ds => exact .refl (.ok ([], ds))
    | _ :: _, [c], ds => exact .refl (.ok ([c], ds))
    | _ :: _, c :: next :: cs, [] => exact .refl (.ok (c :: next :: cs, []))

end Corrections

/-! ## A stage -/

omit [Scalar α] in
theorem exists_entry (row : List α) {i : Int} (h0 : 0 ≤ i) (hi : i < row.length) :
    ∃ s, entry row i = .ok s ∧ row[i.toNat]? = some s := by
  have hlt : i.toNat < row.length := by omega
  refine ⟨row[i.toNat], ?_, List.getElem?_eq_getElem hlt⟩
  rw [entry, Outcome.orBadIndex_eq_ok_iff, Index.item?_of_lt h0 hi, List.getElem?_eq_getElem hlt]

/-- **A tableau before stage `m`** over `n` points: its rows have `n` entries, and the window of the
`m` points behind the path lies in the table. -/
structure Tableau.Inside (n m : Nat) (t : Tableau α) : Prop where
  up : t.up.length = n
  down : t.down.length = n
  first : -1 ≤ t.path
  last : t.path + m < n

omit [Scalar α] in
/-- The rows of a tableau reach as far as a stage reads them. -/
theorem Tableau.Inside.reaches {xa : List α} {m : Nat} {t : Tableau α} (ht : t.Inside xa.length m)
    (hpos : 0 < m) (hm : m < xa.length) : (xa.drop m).length ≤ xa.length ∧
      (xa.drop m).length < t.up.length ∧ t.down.length = t.up.length := by
  rw [ht.up, ht.down, List.length_drop]
  omega

/-- **What stage `m` does to a tableau.** -/
structure Follows (xa : List α) (x : α) (m : Nat) (t t' : Tableau α) : Prop where
  inside : t'.Inside xa.length (m + 1)
  /-- The new pairs. -/
  pairs : ∀ (i : Nat) (near far next d : α), xa[i]? = some near → xa[i + m]? = some far →
    t.up[i + 1]? = some next → t.down[i]? = some d →
    t'.up[i]? = some ((near - x) * ((next - d) / gap x near far)) ∧
      t'.down[i]? = some ((far - x) * ((next - d) / gap x near far))
  value : t'.value = t.value + t'.correction
  /-- The window gets one point more at its end, or at its front. -/
  path : (t'.path = t.path ∧ t'.up[(t.path + 1).toNat]? = some t'.correction) ∨
    (0 ≤ t.path ∧ t'.path = t.path - 1 ∧ t'.down[t.path.toNat]? = some t'.correction)

section Stage
variable (coincide : Nat → α → Nat → α → Fault α) {coincide' : Nat → α → Nat → α → Fault α}
  {xa : List α} {x : α} {m : Nat} {t : Tableau α}

theorem stage_eq_ok (ht : t.Inside xa.length m) (hpos : 0 < m) (hm : m < xa.length)
    (hapart : Apart xa x m) : ∃ t', stage coincide xa x m t = .ok t' ∧ Follows xa x m t t' := by
  have hfirst := ht.first
  have hlast := ht.last
  obtain ⟨hnears, hcs, hds⟩ := ht.reaches hpos hm
  obtain ⟨up, down, hrows, hup, hdown, hpairs⟩ := corrections_eq_ok coincide (x := x) (m := m)
    (i := 0) hnears hcs hds fun j near far hn hf => by
      rw [List.getElem?_drop, Nat.add_comm] at hf
      exact hapart j near far hn hf
  rw [ht.up] at hup hdown
  have hpairs' : ∀ (i : Nat) (near far next d : α), xa[i]? = some near → xa[i + m]? = some far →
      t.up[i + 1]? = some next → t.down[i]? = some d →
      up[i]? = some ((near - x) * ((next - d) / gap x near far)) ∧
        down[i]? = some ((far - x) * ((next - d) / gap x near far)) := by
    intro i near far next d hn hf hnext hd
    rw [Nat.add_comm, ← List.getElem?_drop] at hf
    exact hpairs i near far next d hn hf hnext hd
  -- Either way the entry that is read is inside the row: the window is not the whole table yet.
  by_cases hgoes : goesUp xa.length m t.path = true
  · have hlt : 2 * (t.path + 1) < (xa.length : Int) - m := of_decide_eq_true hgoes
    obtain ⟨s, hs, hget⟩ := exists_entry up (i := t.path + 1) (by omega) (by omega)
    refine ⟨⟨up, down, t.path, t.value + s, s⟩, ?_, ⟨⟨hup, hdown, hfirst, ?_⟩, hpairs', rfl,
      .inl ⟨rfl, hget⟩⟩⟩
    · rw [stage, hrows, Outcome.ok_bind]
      simp only [hgoes, if_true, hs]
      rfl
    · push_cast
      omega
  · have hge : ¬ 2 * (t.path + 1) < (xa.length : Int) - m := fun h => hgoes (decide_eq_true h)
    obtain ⟨s, hs, hget⟩ := exists_entry down (i := t.path) (by omega) (by omega)
    refine ⟨⟨up, down, t.path - 1, t.value + s, s⟩, ?_, ⟨⟨hup, hdown, ?_, ?_⟩, hpairs', rfl,
      .inr ⟨by omega, rfl, hget⟩⟩⟩
    · rw [stage, hrows, Outcome.ok_bind]
      simp only [hgoes, hs]
      rfl
    · show -1 ≤ t.path - 1
      omega
    · push_cast
      omega

theorem stage_eq_error (ht : t.Inside xa.length m) (hpos : 0 < m) (hm : m < xa.length)
    (hapart : ¬ Apart xa x m) :
    ∃ i a j b, stage coincide xa x m t = .error (coincide i a j b) := by
  obtain ⟨hnears, hcs, hds⟩ := ht.reaches hpos hm
  simp only [Apart, not_forall, Bool.not_eq_false] at hapart
  obtain ⟨k, near, far, hn, hf, hgap⟩ := hapart
  rw [Nat.add_comm, ← List.getElem?_drop] at hf
  obtain ⟨i, a, j, b, herror⟩ := corrections_eq_error coincide (m := m) (i := 0) hnears hcs hds hn hf
    hgap
  exact ⟨i, a, j, b, by rw [stage, herror]; rfl⟩

theorem stage_endAlike {coincide : Nat → α → Nat → α → Fault α}
    (h : ∀ i a j b, (coincide i a j b).kind = (coincide' i a j b).kind) :
    Outcome.EndAlike (stage coincide xa x m t) (stage coincide' xa x m t) :=
  (corrections_endAlike h ..).bind fun _ _ => .refl _

end Stage

/-! ## All stages -/

section Run
variable (coincide : Nat → α → Nat → α → Fault α) {coincide' : Nat → α → Nat → α → Fault α}
  {xa : List α} {x : α}

/-- What every stage preserves holds in the end, where there are gaps. -/
theorem stages_eq_ok (hapart : ∀ m, 0 < m → m < xa.length → Apart xa x m)
    {P : Nat → Tableau α → Prop}
    (hstep : ∀ m t t', t.Inside xa.length m → P m t → Follows xa x m t t' → P (m + 1) t')
    {count m : Nat} (hcount : m + count = xa.length) (hpos : 0 < m) {t : Tableau α}
    (ht : t.Inside xa.length m) (hP : P m t) :
    ∃ t', stages coincide xa x count m t = .ok t' ∧ t'.Inside xa.length xa.length ∧
      P xa.length t' := by
  induction count generalizing m t with
  | zero =>
    obtain rfl : m = xa.length := hcount
    exact ⟨t, rfl, ht, hP⟩
  | succ count ih =>
    have hm : m < xa.length := by omega
    obtain ⟨t₁, hstage, hfollows⟩ := stage_eq_ok coincide ht hpos hm (hapart m hpos hm)
    obtain ⟨t', hstages, h⟩ := ih (by omega) (Nat.succ_pos m) hfollows.inside
      (hstep m t t₁ ht hP hfollows)
    exact ⟨t', by rw [stages, hstage, Outcome.ok_bind, hstages], h⟩

/-- **The only fault of a tableau** is that abscissas coincide, and it is told if they do. -/
theorem stages_eq_error {k : Nat} (hk : ¬ Apart xa x k) {count m : Nat}
    (hcount : m + count = xa.length) (hpos : 0 < m) (hmk : m ≤ k) (hkn : k < xa.length)
    {t : Tableau α} (ht : t.Inside xa.length m) :
    ∃ i a j b, stages coincide xa x count m t = .error (coincide i a j b) := by
  induction count generalizing m t with
  | zero => omega
  | succ count ih =>
    have hm : m < xa.length := by omega
    -- The first stage without its gaps tells; there is one, at the latest stage `k`.
    by_cases hapart : Apart xa x m
    · obtain ⟨t₁, hstage, hfollows⟩ := stage_eq_ok coincide ht hpos hm hapart
      have hne : m ≠ k := by
        rintro rfl
        exact hk hapart
      obtain ⟨i, a, j, b, herror⟩ := ih (by omega) (Nat.succ_pos m) (by omega) hfollows.inside
      exact ⟨i, a, j, b, by rw [stages, hstage, Outcome.ok_bind, herror]⟩
    · obtain ⟨i, a, j, b, herror⟩ := stage_eq_error coincide ht hpos hm hapart
      exact ⟨i, a, j, b, by rw [stages, herror, Outcome.error_bind]⟩

theorem stages_endAlike {coincide : Nat → α → Nat → α → Fault α}
    (h : ∀ i a j b, (coincide i a j b).kind = (coincide' i a j b).kind)
    (count m : Nat) (t : Tableau α) :
    Outcome.EndAlike (stages coincide xa x count m t) (stages coincide' xa x count m t) := by
  induction count generalizing m t with
  | zero => exact .refl _
  | succ count ih => exact (stage_endAlike h).bind fun t' _ => ih (m + 1) t'

variable {ya : List α} {nearest : Nat}

/-- The tableau in the beginning: a window of the entry `nearest`. -/
theorem exists_start (hlen : ya.length = xa.length) (hnearest : nearest < xa.length) :
    ∃ y, ya[nearest]? = some y ∧
      start ya nearest = .ok ⟨ya, ya, (nearest : Int) - 1, y, Scalar.zero⟩ ∧
      Tableau.Inside xa.length 1 ⟨ya, ya, (nearest : Int) - 1, y, Scalar.zero⟩ := by
  obtain ⟨y, hy, hget⟩ := exists_entry ya (i := nearest) (by omega) (by omega)
  refine ⟨y, by rwa [Int.toNat_natCast] at hget, ?_, hlen, hlen, ?_, ?_⟩
  · rw [start, hy]
    rfl
  · show -1 ≤ (nearest : Int) - 1
    omega
  · show (nearest : Int) - 1 + 1 < xa.length
    omega

/-- What is so of the entry `nearest` and preserved by every stage is so of the result, where
there are gaps. -/
theorem evaluate_eq_ok (hlen : ya.length = xa.length) (hnearest : nearest < xa.length)
    (hapart : ∀ m, 0 < m → m < xa.length → Apart xa x m) {P : Nat → Tableau α → Prop}
    (hstart : ∀ y, ya[nearest]? = some y → P 1 ⟨ya, ya, (nearest : Int) - 1, y, Scalar.zero⟩)
    (hstep : ∀ m t t', t.Inside xa.length m → P m t → Follows xa x m t t' → P (m + 1) t') :
    ∃ t, evaluate coincide xa ya x nearest = .ok ⟨t.value, t.correction⟩ ∧
      t.Inside xa.length xa.length ∧ P xa.length t := by
  obtain ⟨y, hy, hbegin, hinside⟩ := exists_start hlen hnearest
  obtain ⟨t, hstages, h⟩ := stages_eq_ok coincide hapart hstep
    (show 1 + (xa.length - 1) = xa.length by omega) Nat.one_pos hinside (hstart y hy)
  exact ⟨t, by rw [evaluate, hbegin, Outcome.ok_bind, hstages]; rfl, h⟩

theorem evaluate_eq_error (hlen : ya.length = xa.length) (hnearest : nearest < xa.length) {m : Nat}
    (hpos : 0 < m) (hm : m < xa.length) (hapart : ¬ Apart xa x m) :
    ∃ i a j b, evaluate coincide xa ya x nearest = .error (coincide i a j b) := by
  obtain ⟨y, -, hbegin, hinside⟩ := exists_start hlen hnearest
  obtain ⟨i, a, j, b, herror⟩ := stages_eq_error coincide hapart
    (show 1 + (xa.length - 1) = xa.length by omega) Nat.one_pos hpos hm hinside
  exact ⟨i, a, j, b, by rw [evaluate, hbegin, Outcome.ok_bind, herror]; rfl⟩

/-- A tableau that starts in its table fails as coinciding abscissas are told, and in no other way. -/
theorem evaluate_failsWithin {kinds : List FaultKind}
    (hkinds : ∀ i a j b, (coincide i a j b).kind ∈ kinds) (hlen : ya.length = xa.length)
    (hnearest : nearest < xa.length) :
    Outcome.FailsWithin kinds (evaluate coincide xa ya x nearest) := by
  by_cases hapart : ∀ m, 0 < m → m < xa.length → Apart xa x m
  · obtain ⟨t, ht, -⟩ := evaluate_eq_ok coincide hlen hnearest hapart (P := fun _ _ => True)
      (fun _ _ => trivial) fun _ _ _ _ _ _ => trivial
    exact .of_exists_ok ⟨_, ht⟩
  · simp only [not_forall] at hapart
    obtain ⟨m, hpos, hm, hapart⟩ := hapart
    obtain ⟨i, a, j, b, herror⟩ := evaluate_eq_error coincide hlen hnearest hpos hm hapart
    rw [herror]
    exact .of_error (hkinds i a j b)

/-- **In whichever way coinciding abscissas are told**, the result is the same. -/
theorem evaluate_endAlike {coincide : Nat → α → Nat → α → Fault α}
    (h : ∀ i a j b, (coincide i a j b).kind = (coincide' i a j b).kind) :
    Outcome.EndAlike (evaluate coincide xa ya x nearest) (evaluate coincide' xa ya x nearest) :=
  (Outcome.EndAlike.refl _).bind fun _ _ => (stages_endAlike h ..).bind fun _ _ => .refl _

end Run

variable {xa : List α} {x : α}

/-! ## The two searches -/

/-- Where all distances are numbers there is no first one that is none. -/
theorem closestOrNaN_eq_closest (h : ∀ d ∈ distances xa x, Scalar.isNaN d = false) :
    closestOrNaN xa x = closest xa x := by
  rw [closestOrNaN, List.findIdx?_eq_none_iff.2 h, Option.getD_none]

theorem leastFrom_lt (best : α) {here next : Nat} (h : here < next) (rest : List α) :
    leastFrom best here next rest < next + rest.length := by
  induction rest generalizing best here next with
  | nil => exact h
  | cons y rest ih =>
    rw [leastFrom, List.length_cons, Nat.add_comm rest.length, ← Nat.add_assoc]
    by_cases hy : Scalar.lt y best = true
    · rw [if_pos hy]
      exact ih y (Nat.lt_succ_self next)
    · rw [if_neg hy]
      exact ih best (Nat.lt_succ_of_lt h)

/-- The search ends inside the table, whatever the distances are. -/
theorem closest_lt (hne : xa ≠ []) (x : α) : closest xa x < xa.length := by
  obtain ⟨a, rest, rfl⟩ := List.exists_cons_of_ne_nil hne
  have h := leastFrom_lt (Scalar.abs (x - a)) Nat.zero_lt_one (rest.map fun b => Scalar.abs (x - b))
  rwa [List.length_map, Nat.add_comm] at h

theorem closestOrNaN_lt (hne : xa ≠ []) (x : α) : closestOrNaN xa x < xa.length := by
  rw [closestOrNaN]
  cases hfound : (distances xa x).findIdx? Scalar.isNaN with
  | none => exact closest_lt hne x
  | some k =>
    obtain ⟨hk, -⟩ := List.findIdx?_eq_some_iff_getElem.1 hfound
    rwa [distances, List.length_map] at hk

/-! ## Tables in rows -/

theorem interpolateArrays_vector (xa ya : List α) (x : α) :
    interpolateArrays (NdArray.vector xa) (NdArray.vector ya) x = interpolate xa ya x := by
  rw [interpolateArrays, NdArray.toList_vector, NdArray.toList_vector]
  rfl

theorem interpolateArraysTersely_vector (unfit : Nat → Fault α) (xa ya : List α) (x : α) :
    interpolateArraysTersely unfit (NdArray.vector xa) (NdArray.vector ya) x =
      interpolateTersely xa ya x := by
  have hsize : (NdArray.vector xa).size = xa.length := volume_singleton _
  have hrow : ∀ l : List α, rowShape (NdArray.vector l) = [l.length] := fun l => rfl
  have hshape : (xa.length = 0 ∨ [xa.length] ≠ [ya.length]) ↔
      (xa.length = 0 ∨ ya.length ≠ xa.length) := by
    rw [ne_eq, List.singleton_inj, eq_comm (a := xa.length) (b := ya.length)]
  rw [interpolateArraysTersely, hsize, hrow, hrow, NdArray.toList_vector, NdArray.toList_vector]
  by_cases h : xa.length = 0 ∨ ya.length ≠ xa.length
  · rw [if_pos (hshape.2 h), interpolateTersely, if_pos h]
  · rw [if_neg (mt hshape.1 h)]
    rfl

end Neville

/-! ## The backends -/

namespace Backend

variable {α : Type} [Scalar α] {xa ya : List α} {x : α}

/-- A table in two rows is the table. -/
theorem polynomialOf_vector (b : Backend) (xa ya : List α) (x : α) :
    b.polynomialOf (NdArray.vector xa) (NdArray.vector ya) x = b.polynomial xa ya x := by
  cases b with
  | compiled => exact Neville.interpolateArraysTersely_vector (fun _ => .notCompiled) xa ya x
  | native => exact Neville.interpolateArraysTersely_vector (.invalidArgument <| .bufferRank ·) xa ya x
  | reference => exact Neville.interpolateArrays_vector xa ya x
  | fused => exact Neville.interpolateArrays_vector xa ya x

/-- Both forms evaluate a tableau from an entry of the table. -/
theorem exists_polynomial_eq_evaluate (b : Backend) (hne : xa ≠ []) (hlen : ya.length = xa.length)
    (x : α) : ∃ coincide nearest, nearest < xa.length ∧
      (∀ i a j a', (coincide i a j a' : Fault α).kind = .singularStencil) ∧
      b.polynomial xa ya x = Neville.evaluate coincide xa ya x nearest := by
  have hshape : ¬ (xa.length = 0 ∨ ya.length ≠ xa.length) := by
    rw [not_or, not_not, List.length_eq_zero_iff]
    exact ⟨hne, hlen⟩
  have hreference : Neville.interpolate xa ya x =
      Neville.evaluate .singularStencil xa ya x (Neville.closestOrNaN xa x) := by
    rw [Neville.interpolate, if_neg hshape]
  cases b with
  | compiled | native =>
    refine ⟨fun _ _ _ _ => .singularTable, _, Neville.closest_lt hne x, fun _ _ _ _ => rfl, ?_⟩
    rw [polynomial, Neville.interpolateTersely, if_neg hshape]
  | reference => exact ⟨_, _, Neville.closestOrNaN_lt hne x, fun _ _ _ _ => rfl, hreference⟩
  | fused => exact ⟨_, _, Neville.closestOrNaN_lt hne x, fun _ _ _ _ => rfl, hreference⟩

/-- Through a table with gaps every backend has a polynomial. -/
theorem exists_polynomial (b : Backend) (hne : xa ≠ []) (hlen : ya.length = xa.length)
    (hapart : ∀ m, 0 < m → m < xa.length → Neville.Apart xa x m) :
    ∃ e, b.polynomial xa ya x = .ok e := by
  obtain ⟨coincide, nearest, hnearest, -, hpolynomial⟩ := b.exists_polynomial_eq_evaluate hne hlen x
  obtain ⟨t, ht, -⟩ := Neville.evaluate_eq_ok coincide hlen hnearest hapart (P := fun _ _ => True)
    (fun _ _ => trivial) fun _ _ _ _ _ _ => trivial
  exact ⟨_, hpolynomial.trans ht⟩

/-- A table without entries, or with rows of different lengths, has no polynomial. -/
theorem polynomial_mismatch (b : Backend) (x : α) (h : xa.length = 0 ∨ ya.length ≠ xa.length) :
    Outcome.Refused .dimensionMismatch (b.polynomial xa ya x) := by
  cases b with
  | compiled | native => exact ⟨_, if_pos h, rfl⟩
  | reference => exact ⟨_, if_pos h, rfl⟩
  | fused => exact ⟨_, if_pos h, rfl⟩

/-- A polynomial is refused for the lengths of its table, or because abscissas coincide. -/
theorem polynomial_failsWithin (b : Backend) (xa ya : List α) (x : α) :
    Outcome.FailsWithin [.dimensionMismatch, .singularStencil] (b.polynomial xa ya x) := by
  by_cases hshape : xa.length = 0 ∨ ya.length ≠ xa.length
  · obtain ⟨f, hf, hkind⟩ := b.polynomial_mismatch x hshape
    rw [hf]
    exact .of_error (hkind ▸ List.mem_cons_self ..)
  · obtain ⟨hempty, hlen⟩ := not_or.1 hshape
    obtain ⟨coincide, nearest, hnearest, hkind, hpolynomial⟩ :=
      b.exists_polynomial_eq_evaluate (mt List.length_eq_zero_iff.2 hempty) (not_not.1 hlen) x
    rw [hpolynomial]
    refine Neville.evaluate_failsWithin coincide (fun i a j a' => ?_) (not_not.1 hlen) hnearest
    rw [hkind]
    exact List.mem_cons_of_mem _ (List.mem_singleton_self _)

/-- **Where the closest abscissa is found is no matter** if there is one, so every backend's
polynomial through the table ends alike. -/
theorem polynomial_endAlike (h : Neville.closestOrNaN xa x = Neville.closest xa x) (b b' : Backend) :
    Outcome.EndAlike (b.polynomial xa ya x) (b'.polynomial xa ya x) := by
  have hforms : Outcome.EndAlike (Neville.interpolate xa ya x)
      (Neville.interpolateTersely xa ya x) := by
    rw [Neville.interpolate, Neville.interpolateTersely, h]
    by_cases hshape : xa.length = 0 ∨ ya.length ≠ xa.length
    · rw [if_pos hshape, if_pos hshape]
      exact .of_kind_eq rfl
    · rw [if_neg hshape, if_neg hshape]
      exact Neville.evaluate_endAlike fun _ _ _ _ => rfl
  have hcompiled : ∀ b : Backend, Outcome.EndAlike (b.polynomial xa ya x)
      (Neville.interpolate xa ya x) := by
    intro b
    cases b with
    | compiled | native => exact hforms.symm
    | reference => exact .refl _
    | fused => exact .refl _
  exact (hcompiled b).trans (hcompiled b').symm

end Backend
end Regrid
