import Regrid.Proofs.Outcome

/-!
# Kinds of faults

A caller asks for the kind of a fault, and seldom for its cause.  Two calls end alike
(`Outcome.EndAlike`) if both give the same result, or both are refused with faults of the
same kind; a sequence of such calls ends alike, too (`EndAlike.bind`).  A call may also be
known to be refused for faults of some kinds only (`Outcome.FailsWithin`).
-/
namespace Regrid

/-- **The kinds of faults**: two constructors stand for coinciding abscissas, with and without
the places, and all others for a kind of their own. -/
inductive FaultKind where
  | malformedGrid
  | outOfRange
  | dimensionMismatch
  | invalidWeights
  | singularStencil
  | invalidArgument
  | wrongType
  | notCompiled
  | unavailable
  | overflow
  | zeroDivision
  | badIndex
deriving DecidableEq, Repr

/-- The kind of a fault. -/
def Fault.kind {α : Type} : Fault α → FaultKind
  | .malformedGrid .. => .malformedGrid
  | .outOfRange .. => .outOfRange
  | .dimensionMismatch .. => .dimensionMismatch
  | .invalidWeights .. => .invalidWeights
  | .singularStencil .. => .singularStencil
  | .singularTable => .singularStencil
  | .invalidArgument .. => .invalidArgument
  | .wrongType .. => .wrongType
  | .notCompiled => .notCompiled
  | .unavailable => .unavailable
  | .overflow => .overflow
  | .zeroDivision => .zeroDivision
  | .badIndex => .badIndex

namespace Outcome

variable {α β γ : Type}

/-- **Two calls end alike**: with one result, or with faults of one kind. -/
def EndAlike (x y : Except (Fault α) β) : Prop := x.mapError Fault.kind = y.mapError Fault.kind

/-- A call is refused for one kind of fault. -/
theorem kind_eq_of_exists_error {x : Except (Fault α) β} {e : Fault α} (h : x = .error e)
    {k : FaultKind} (hk : ∃ e', x = .error e' ∧ e'.kind = k) : e.kind = k := by
  obtain ⟨e', he', rfl⟩ := hk
  rw [h] at he'
  cases he'
  rfl

namespace EndAlike

variable {x y z : Except (Fault α) β}

theorem refl (x : Except (Fault α) β) : EndAlike x x := rfl

theorem of_eq (h : x = y) : EndAlike x y := congrArg _ h

theorem of_kind_eq {e e' : Fault α} (h : e.kind = e'.kind) :
    EndAlike (.error e : Except (Fault α) β) (.error e') := congrArg Except.error h

theorem symm (h : EndAlike x y) : EndAlike y x := Eq.symm h

theorem trans (h : EndAlike x y) (h' : EndAlike y z) : EndAlike x z := Eq.trans h h'

/-- Results are the same. -/
theorem eq_ok_iff (h : EndAlike x y) {b : β} : x = .ok b ↔ y = .ok b := by
  have hiff : x.mapError Fault.kind = .ok b ↔ y.mapError Fault.kind = .ok b := by rw [h]
  simpa only [mapError_eq_ok_iff] using hiff

/-- Faults are of the same kinds. -/
theorem exists_error_iff (h : EndAlike x y) {k : FaultKind} :
    (∃ e, x = .error e ∧ e.kind = k) ↔ ∃ e, y = .error e ∧ e.kind = k := by
  have hiff : x.mapError Fault.kind = .error k ↔ y.mapError Fault.kind = .error k := by rw [h]
  simpa only [mapError_eq_error_iff] using hiff

/-- **A sequence of calls that end alike** ends alike. -/
theorem bind (h : EndAlike x y) {f g : β → Except (Fault α) γ}
    (hfg : ∀ b, x = .ok b → EndAlike (f b) (g b)) : EndAlike (x >>= f) (y >>= g) := by
  -- What follows is only called with a result, and that one is the same.
  cases hx : x with
  | ok b =>
    rw [h.eq_ok_iff.1 hx]
    exact hfg b hx
  | error e =>
    obtain ⟨e', he', hkind⟩ := h.exists_error_iff.1 ⟨e, hx, rfl⟩
    rw [he']
    exact of_kind_eq hkind.symm

/-- Calls for every entry of a list that end alike do so together. -/
theorem mapM {γ : Type} {xs : List γ} {f g : γ → Except (Fault α) β}
    (h : ∀ x ∈ xs, EndAlike (f x) (g x)) : EndAlike (xs.mapM f) (xs.mapM g) := by
  induction xs with
  | nil => exact .refl _
  | cons x xs ih =>
    obtain ⟨hx, hxs⟩ := List.forall_mem_cons.1 h
    rw [List.mapM_cons, List.mapM_cons]
    exact hx.bind fun _ _ => (ih hxs).bind fun _ _ => .refl _

end EndAlike

/-- A call is refused for a fault of a kind. -/
def Refused (k : FaultKind) (x : Except (Fault α) β) : Prop := ∃ f, x = .error f ∧ f.kind = k

/-- Calls that are refused for one kind of fault end alike. -/
theorem Refused.endAlike {k : FaultKind} {x y : Except (Fault α) β} (hx : Refused k x)
    (hy : Refused k y) : EndAlike x y := by
  obtain ⟨f, rfl, hf⟩ := hx
  obtain ⟨f', rfl, hf'⟩ := hy
  exact .of_kind_eq (hf.trans hf'.symm)

theorem Refused.bind {k : FaultKind} {x : Except (Fault α) β} (h : Refused k x)
    (g : β → Except (Fault α) γ) : Refused k (x >>= g) := by
  obtain ⟨f, rfl, hf⟩ := h
  exact ⟨f, rfl, hf⟩

theorem Refused.map {k : FaultKind} {x : Except (Fault α) β} (h : Refused k x) (g : β → γ) :
    Refused k (x.map g) := by
  obtain ⟨f, rfl, hf⟩ := h
  exact ⟨f, rfl, hf⟩

/-- What is refused has no result. -/
theorem Refused.not_ok {k : FaultKind} {x : Except (Fault α) β} (h : Refused k x) :
    ¬ ∃ b, x = .ok b := by
  obtain ⟨f, rfl, -⟩ := h
  exact nofun

theorem refused_error_iff {k : FaultKind} {f : Fault α} :
    Refused k (.error f : Except (Fault α) β) ↔ f.kind = k := by
  constructor
  · rintro ⟨f', hf, hkind⟩
    rw [Except.error.inj hf, hkind]
  · intro hkind
    exact ⟨f, rfl, hkind⟩

/-- What has a result is not refused. -/
theorem not_refused_ok {k : FaultKind} {b : β} : ¬ Refused k (.ok b : Except (Fault α) β) :=
  fun h => h.not_ok ⟨b, rfl⟩

/-- **A call is refused for faults of some kinds only**, if it is. -/
def FailsWithin (kinds : List FaultKind) (x : Except (Fault α) β) : Prop :=
  ∀ f, x = .error f → f.kind ∈ kinds

namespace FailsWithin

variable {kinds : List FaultKind} {x : Except (Fault α) β}

theorem of_ok (b : β) : FailsWithin kinds (.ok b : Except (Fault α) β) := nofun

theorem of_error {f : Fault α} (h : f.kind ∈ kinds) :
    FailsWithin kinds (.error f : Except (Fault α) β) := by
  intro f' hf'
  cases hf'
  exact h

theorem mono {kinds' : List FaultKind} (h : FailsWithin kinds x) (hkinds : kinds ⊆ kinds') :
    FailsWithin kinds' x := fun f hf => hkinds (h f hf)

/-- A call that cannot be refused. -/
theorem of_exists_ok (h : ∃ b, x = .ok b) : FailsWithin kinds x := by
  obtain ⟨b, rfl⟩ := h
  exact of_ok b

/-- **One call after another.** -/
theorem bind {g : β → Except (Fault α) γ} (h : FailsWithin kinds x)
    (hg : ∀ b, x = .ok b → FailsWithin kinds (g b)) : FailsWithin kinds (x >>= g) := by
  intro f hf
  rcases bind_eq_error_iff.1 hf with hx | ⟨b, hb, hgb⟩
  · exact h f hx
  · exact hg b hb f hgb

theorem ite {c : Prop} [Decidable c] {y : Except (Fault α) β} (hx : c → FailsWithin kinds x)
    (hy : ¬ c → FailsWithin kinds y) : FailsWithin kinds (if c then x else y) := by
  by_cases hc : c
  · rw [if_pos hc]
    exact hx hc
  · rw [if_neg hc]
    exact hy hc

theorem map (h : FailsWithin kinds x) (g : β → γ) : FailsWithin kinds (x.map g) := by
  cases x with
  | error f => exact of_error (h f rfl)
  | ok b => exact of_ok (g b)

/-- A call for every entry of a list. -/
theorem mapM {xs : List γ} {f : γ → Except (Fault α) β} (h : ∀ x ∈ xs, FailsWithin kinds (f x)) :
    FailsWithin kinds (xs.mapM f) := by
  induction xs with
  | nil => exact of_ok []
  | cons x xs ih =>
    obtain ⟨hx, hxs⟩ := List.forall_mem_cons.1 h
    rw [List.mapM_cons]
    exact hx.bind fun y _ => (ih hxs).bind fun ys _ => of_ok (y :: ys)

/-- What an index finds, or not. -/
theorem of_orBadIndex (b : Option β) : FailsWithin [.badIndex] (orBadIndex b : Except (Fault α) β) := by
  cases b with
  | none => exact of_error (List.mem_singleton_self _)
  | some b => exact of_ok b

/-- A call that is refused for faults of other kinds only is not out of range. -/
theorem ne_outOfRange (h : FailsWithin kinds x) (hkinds : .outOfRange ∉ kinds) (cause : RangeFault α) :
    x ≠ .error (.outOfRange cause) := fun hx => hkinds (h _ hx)

/-- What comes next is not out of range, so what came before is. -/
theorem outOfRange_of_bind {g : β → Except (Fault α) γ} {cause : RangeFault α}
    (h : x >>= g = .error (.outOfRange cause)) (hkinds : .outOfRange ∉ kinds)
    (hg : ∀ b, x = .ok b → FailsWithin kinds (g b)) : x = .error (.outOfRange cause) := by
  rcases bind_eq_error_iff.1 h with hx | ⟨b, hb, hgb⟩
  · exact hx
  · exact absurd hgb ((hg b hb).ne_outOfRange hkinds cause)

end FailsWithin
end Outcome
end Regrid
