import Mathlib
import Regrid.Fault

/-!
# Outcomes

A call ends with a result or with a fault.  A sequence of calls ends with a result
exactly when each of them does, so a successful run is taken apart call by call
(`bind_eq_ok_iff`), and a call for every entry of a list succeeds exactly when it
succeeds at each (`mapM_eq_ok_iff`).

Two calls may fail alike (`FailAlike`), with the same fault or not at all.  Then only their
results can tell them apart (`FailAlike.eq`), and a sequence of such calls fails alike as
well (`FailAlike.bind`).
-/
namespace Regrid
namespace Outcome

variable {ε α β : Type}

theorem bind_eq_ok_iff {x : Except ε α} {f : α → Except ε β} {b : β} :
    (x >>= f) = .ok b ↔ ∃ a, x = .ok a ∧ f a = .ok b := by
  cases x with
  | error e => simp [bind, Except.bind]
  | ok a => simp [bind, Except.bind]

/-- A check in front of a call has no result of its own. -/
theorem check_bind_eq_ok_iff {x : Except ε Unit} {y : Except ε β} {b : β} :
    (x >>= fun _ => y) = .ok b ↔ x = .ok () ∧ y = .ok b := by
  rw [bind_eq_ok_iff]
  exact ⟨fun ⟨_, h⟩ => h, fun h => ⟨(), h⟩⟩

theorem bind_eq_error_iff {x : Except ε α} {f : α → Except ε β} {e : ε} :
    (x >>= f) = .error e ↔ x = .error e ∨ ∃ a, x = .ok a ∧ f a = .error e := by
  cases x with
  | error e' => simp [bind, Except.bind]
  | ok a => simp [bind, Except.bind]

@[simp] theorem ok_bind (a : α) (f : α → Except ε β) :
    ((Except.ok a : Except ε α) >>= f) = f a := rfl

@[simp] theorem error_bind (e : ε) (f : α → Except ε β) :
    ((Except.error e : Except ε α) >>= f) = .error e := rfl

@[simp] theorem pure_eq_ok (a : α) : (pure a : Except ε α) = .ok a := rfl

@[simp] theorem throw_eq_error (e : ε) : (throw e : Except ε α) = .error e := rfl

/-- A call that is known to succeed has a result. -/
theorem exists_of_isOk {x : Except ε α} (h : x.isOk = true) : ∃ a, x = .ok a := by
  cases x with
  | error e => cases h
  | ok a => exact ⟨a, rfl⟩

/-- A guard in front of a call: the call is made only if the guard lets it pass. -/
theorem guard_eq_ok_iff {c : Prop} [Decidable c] {e : ε} {f : Unit → Except ε β} {b : β} :
    (if c then (throw e : Except ε Unit) >>= f else f ()) = .ok b ↔ ¬ c ∧ f () = .ok b := by
  by_cases hc : c <;> simp [hc]

/-- What comes next matters only where there is a result. -/
theorem bind_congr {x : Except ε α} {f g : α → Except ε β} (h : ∀ a, x = .ok a → f a = g a) :
    x >>= f = x >>= g := by
  cases x with
  | error e => rfl
  | ok a => exact h a rfl

theorem guard_congr {c : Prop} [Decidable c] {e : ε} {f g : Unit → Except ε β}
    (h : ¬ c → f () = g ()) :
    (if c then (throw e : Except ε Unit) >>= f else f ()) =
      if c then (throw e : Except ε Unit) >>= g else g () := by
  by_cases hc : c
  · rw [if_pos hc, if_pos hc]
    rfl
  · rw [if_neg hc, if_neg hc, h hc]

theorem bind_ok_eq_map (x : Except ε α) (g : α → β) : (x >>= fun a => .ok (g a)) = x.map g := by
  cases x <;> rfl

theorem map_eq_ok_iff {x : Except ε α} {g : α → β} {b : β} :
    x.map g = .ok b ↔ ∃ a, x = .ok a ∧ g a = b := by
  cases x <;> simp [Except.map]

theorem exists_map_ok_iff {x : Except ε α} {g : α → β} :
    (∃ b, x.map g = .ok b) ↔ ∃ a, x = .ok a := by
  simp only [map_eq_ok_iff]
  exact ⟨fun ⟨_, a, ha, _⟩ => ⟨a, ha⟩, fun ⟨a, ha⟩ => ⟨g a, a, ha, rfl⟩⟩

/-- What fails has no result. -/
theorem not_exists_ok (e : ε) : ¬ ∃ b, (Except.error e : Except ε β) = .ok b := by
  rintro ⟨b, h⟩
  cases h

theorem map_bind {γ : Type} (x : Except ε α) (f : α → Except ε β) (g : β → γ) :
    (x >>= f).map g = x >>= fun a => (f a).map g := by
  cases x <;> rfl

theorem map_ite {c : Prop} [Decidable c] (x y : Except ε α) (g : α → β) :
    (if c then x else y).map g = if c then x.map g else y.map g := apply_ite ..

theorem map_error (e : ε) (g : α → β) : (Except.error e : Except ε α).map g = .error e := rfl

theorem mapM_congr {f g : α → Except ε β} {xs : List α} (h : ∀ x ∈ xs, f x = g x) :
    xs.mapM f = xs.mapM g := by
  induction xs with
  | nil => rfl
  | cons x xs ih =>
    obtain ⟨hx, hxs⟩ := List.forall_mem_cons.1 h
    rw [List.mapM_cons, List.mapM_cons, hx, ih hxs]

theorem mapError_eq_ok_iff {ε' : Type} {x : Except ε α} {f : ε → ε'} {a : α} :
    x.mapError f = .ok a ↔ x = .ok a := by
  cases x <;> simp [Except.mapError]

theorem mapError_eq_error_iff {ε' : Type} {x : Except ε α} {f : ε → ε'} {e : ε'} :
    x.mapError f = .error e ↔ ∃ e', x = .error e' ∧ f e' = e := by
  cases x <;> simp [Except.mapError]

/-- Two calls that succeed together and whose results are known from one another. -/
theorem eq_ok_iff_of_exists {x : Except ε α} {y : Except ε β} {f : α → β}
    (hok : (∃ b, y = .ok b) ↔ ∃ a, x = .ok a) (h : ∀ a b, x = .ok a → y = .ok b → b = f a) (b : β) :
    y = .ok b ↔ ∃ a, x = .ok a ∧ b = f a := by
  constructor
  · intro hb
    obtain ⟨a, ha⟩ := hok.1 ⟨b, hb⟩
    exact ⟨a, ha, h a b ha hb⟩
  · rintro ⟨a, ha, rfl⟩
    obtain ⟨b, hb⟩ := hok.2 ⟨a, ha⟩
    rw [hb, h a b ha hb]

theorem orBadIndex_eq_ok_iff {x : Option β} {b : β} :
    (orBadIndex x : Except (Fault α) β) = .ok b ↔ x = some b := by
  cases x <;> simp [orBadIndex]

/-- **A call for every entry of a list** succeeds exactly when it does at each. -/
theorem mapM_eq_ok_iff {f : α → Except ε β} {xs : List α} {ys : List β} :
    xs.mapM f = .ok ys ↔ List.Forall₂ (fun x y => f x = .ok y) xs ys := by
  induction xs generalizing ys with
  | nil => simp [eq_comm]
  | cons x xs ih =>
    rw [List.mapM_cons, bind_eq_ok_iff, List.forall₂_cons_left_iff]
    constructor
    · rintro ⟨y, hy, h⟩
      obtain ⟨zs, hzs, rfl⟩ : ∃ zs, xs.mapM f = .ok zs ∧ y :: zs = ys := by
        simpa [bind_eq_ok_iff] using h
      exact ⟨y, zs, hy, ih.1 hzs, rfl⟩
    · rintro ⟨y, zs, hy, hzs, rfl⟩
      exact ⟨y, hy, by simp [ih.2 hzs]⟩

/-- Calls that succeed for every entry of a list do so together, with a result for each. -/
theorem exists_mapM {f : α → Except ε β} {xs : List α} (h : ∀ x ∈ xs, ∃ y, f x = .ok y) :
    ∃ ys, xs.mapM f = .ok ys ∧ ys.length = xs.length := by
  induction xs with
  | nil => exact ⟨[], rfl, rfl⟩
  | cons x xs ih =>
    obtain ⟨⟨y, hy⟩, hxs⟩ := List.forall_mem_cons.1 h
    obtain ⟨ys, hys, hlen⟩ := ih hxs
    exact ⟨y :: ys, by simp [hy, hys], congrArg Nat.succ hlen⟩

/-- They do so together only if each of them does. -/
theorem exists_mapM_iff {f : α → Except ε β} {xs : List α} :
    (∃ ys, xs.mapM f = .ok ys) ↔ ∀ x ∈ xs, ∃ y, f x = .ok y := by
  constructor
  · rintro ⟨ys, hys⟩ x hx
    obtain ⟨i, hi, rfl⟩ := List.mem_iff_getElem.1 hx
    have hall := mapM_eq_ok_iff.1 hys
    exact ⟨_, (List.forall₂_iff_get.1 hall).2 i hi (by rwa [← hall.length_eq])⟩
  · intro h
    obtain ⟨ys, hys, -⟩ := exists_mapM h
    exact ⟨ys, hys⟩

/-! ## Faults -/

/-- **Two calls fail alike**: with the same fault, or not at all. -/
def FailAlike (x : Except ε α) (y : Except ε β) : Prop := ∀ e, x = .error e ↔ y = .error e

namespace FailAlike

variable {α' β' : Type} {x : Except ε α} {y : Except ε β}

theorem refl (x : Except ε α) : FailAlike x x := fun _ => Iff.rfl

theorem of_ok (a : α) (b : β) : FailAlike (.ok a : Except ε α) (.ok b : Except ε β) := by
  intro e
  constructor <;> intro h <;> cases h

theorem of_error (e : ε) : FailAlike (.error e : Except ε α) (.error e : Except ε β) := by
  intro e'
  rw [Except.error.injEq, Except.error.injEq]

theorem symm (h : FailAlike x y) : FailAlike y x := fun e => (h e).symm

theorem trans {z : Except ε α'} (h : FailAlike x y) (h' : FailAlike y z) : FailAlike x z :=
  fun e => (h e).trans (h' e)

/-- Calls that fail alike succeed together. -/
theorem exists_ok (h : FailAlike x y) {a : α} (ha : x = .ok a) : ∃ b, y = .ok b := by
  cases hy : y with
  | ok b => exact ⟨b, rfl⟩
  | error e =>
    rw [(h e).2 hy] at ha
    cases ha

theorem exists_ok_iff (h : FailAlike x y) : (∃ a, x = .ok a) ↔ ∃ b, y = .ok b :=
  ⟨fun ⟨_, ha⟩ => h.exists_ok ha, fun ⟨_, hb⟩ => h.symm.exists_ok hb⟩

/-- **Calls that fail alike are the same** if their results are. -/
theorem eq {y : Except ε α} (h : FailAlike x y) (hok : ∀ a b, x = .ok a → y = .ok b → a = b) :
    x = y := by
  cases hx : x with
  | error e => exact ((h e).1 hx).symm
  | ok a =>
    obtain ⟨b, hb⟩ := h.exists_ok hx
    rw [hb, hok a b hx hb]

/-- **One call after another**: if the first ones fail alike, and the second ones do where the
first ones succeed, both together fail alike. -/
theorem bind {f : α → Except ε α'} {g : β → Except ε β'} (h : FailAlike x y)
    (hfg : ∀ a b, x = .ok a → y = .ok b → FailAlike (f a) (g b)) :
    FailAlike (x >>= f) (y >>= g) := by
  cases hx : x with
  | error e =>
    rw [(h e).1 hx]
    exact of_error _
  | ok a =>
    obtain ⟨b, hb⟩ := h.exists_ok hx
    rw [hb]
    exact hfg a b hx hb

/-- What follows without a fault does not count. -/
theorem bind_ok {f : α → Except ε α'} (hf : ∀ a, x = .ok a → ∃ b, f a = .ok b) :
    FailAlike (x >>= f) x := by
  cases hx : x with
  | error e => exact of_error e
  | ok a =>
    obtain ⟨b, hb⟩ := hf a hx
    rw [ok_bind, hb]
    exact of_ok b a

/-- Faults that are told in other words are told in the same words. -/
theorem mapError {ε' : Type} (h : FailAlike x y) (f : ε → ε') :
    FailAlike (x.mapError f) (y.mapError f) := by
  cases hx : x with
  | error e =>
    rw [(h e).1 hx]
    exact of_error _
  | ok a =>
    obtain ⟨b, hb⟩ := h.exists_ok hx
    rw [hb]
    exact of_ok a b

end FailAlike

end Outcome
end Regrid
