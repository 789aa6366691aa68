import Regrid.Proofs.Interpolator.Agreement

/-!
# Calls

A call may be made with any arrays as its arguments, and with a container for the values.
Neither adds anything to what is known of rows and of calls without a container.  An
argument that is a row, or a single number in its place, stands for its numbers
(`positions_eq_vector`), and any other argument is refused on its axis
(`rank_le_one_of_positions`); so a call that succeeds is one with rows
(`rows_of_along`, `rows_of_onto`, `scalars_of_valueAt`).  A container is looked at when the
values are known (`along_out`, `onto_out`): it takes them or refuses them by their shape
alone, and what it does to a number does not depend on the others (`exists_map_of_deliver`).

If the interpolants of two interpolators coincide (`Interpolator.Coincide`), a call that
both answer is answered alike (`Coincide.valueAt_eq`, `Coincide.along_eq`,
`Coincide.onto_eq`).
-/
namespace Regrid

/-! ## Containers -/

namespace Sample

variable {α : Type} [Scalar α]

/-- **What a container does to values** it does to each number alone. -/
theorem exists_map_of_deliver (out : Option (Container α)) :
    ∃ f : α → α, ∀ values a, deliver out values = .ok a → a = values.map f := by
  cases out with
  | none =>
    refine ⟨id, fun values a h => ?_⟩
    cases h
    exact NdArray.ext_toList rfl (by simp)
  | some c =>
    refine ⟨Container.kept c.element, fun values a h => ?_⟩
    obtain ⟨-, -, rfl⟩ := (Container.contentsAfter_eq_ok_iff ..).1 h
    rfl

/-- A container takes or refuses values by their shape. -/
theorem exists_deliver_iff (out : Option (Container α)) {values values' : NdArray α}
    (h : values.shape = values'.shape) :
    (∃ a, deliver out values = .ok a) ↔ ∃ a, deliver out values' = .ok a := by
  cases out with
  | none => exact ⟨fun _ => ⟨_, rfl⟩, fun _ => ⟨_, rfl⟩⟩
  | some c =>
    change (∃ a, c.contentsAfter _ _ values = .ok a) ↔ ∃ a, c.contentsAfter _ _ values' = .ok a
    simp only [Container.contentsAfter_eq_ok_iff, h, exists_and_left, exists_eq, and_true]

/-- Values that are alike are alike in a container. -/
theorem eq_of_deliver {out : Option (Container α)} {values values' a b : NdArray α}
    (hshape : values.shape = values'.shape) (hlist : values.toList = values'.toList)
    (ha : deliver out values = .ok a) (hb : deliver out values' = .ok b) : a = b := by
  rw [NdArray.ext_toList hshape hlist, hb] at ha
  exact (Except.ok.inj ha).symm

/-- Two results and one container: what relates two results entry by entry relates them
in containers of one kind, too. -/
theorem deliver_related (out : Option (Container α)) {x y : Except (Fault α) (NdArray α)}
    {R : NdArray α → NdArray α → Prop} (hok : (∃ a, x = .ok a) ↔ ∃ b, y = .ok b)
    (h : ∀ a b, x = .ok a → y = .ok b → b.shape = a.shape ∧ R a b)
    (hmap : ∀ f a b, R a b → R (a.map f) (b.map f)) :
    ((∃ a, x >>= deliver out = .ok a) ↔ ∃ b, y >>= deliver out = .ok b) ∧
      ∀ a b, x >>= deliver out = .ok a → y >>= deliver out = .ok b → b.shape = a.shape ∧ R a b := by
  simp only [Outcome.bind_eq_ok_iff]
  refine ⟨⟨?_, ?_⟩, ?_⟩
  · rintro ⟨a, values, hx, hdeliver⟩
    obtain ⟨values', hy⟩ := hok.1 ⟨values, hx⟩
    obtain ⟨b, hb⟩ := (exists_deliver_iff out (h _ _ hx hy).1).2 ⟨a, hdeliver⟩
    exact ⟨b, values', hy, hb⟩
  · rintro ⟨b, values', hy, hdeliver⟩
    obtain ⟨values, hx⟩ := hok.2 ⟨values', hy⟩
    obtain ⟨a, ha⟩ := (exists_deliver_iff out (h _ _ hx hy).1).1 ⟨b, hdeliver⟩
    exact ⟨a, values, hx, ha⟩
  · rintro a b ⟨values, hx, ha⟩ ⟨values', hy, hb⟩
    obtain ⟨f, hf⟩ := exists_map_of_deliver out
    obtain rfl := hf _ _ ha
    obtain rfl := hf _ _ hb
    obtain ⟨hshape, hR⟩ := h _ _ hx hy
    exact ⟨hshape, hmap f _ _ hR⟩

end Sample

namespace Interpolator

/-! ## Arguments -/

section Arguments
variable {α : Type} [Scalar α] {I : Interpolator α}

omit [Scalar α] in
/-- The queries of an array are its numbers, if it is a row or a single number. -/
theorem queries_eq_ok_iff {k : Nat} {v : NdArray α} {xs : List α} :
    queries k v = .ok xs ↔ v.rank ≤ 1 ∧ v.toList = xs := by
  rw [NdArray.rank_le_one_iff]
  unfold queries
  split
  · next h => simp [h]
  · next h => simp [h]
  · next h₀ h₁ =>
    refine ⟨nofun, ?_⟩
    rintro ⟨h | ⟨n, h⟩, -⟩
    · exact absurd h h₀
    · exact absurd h (h₁ n)

/-- **An argument stands for its row.** -/
theorem positions_eq_vector (k : Nat) (a : Axis α) {v : NdArray α} (h : v.rank ≤ 1) :
    I.positions k a v = I.positions k a (NdArray.vector v.toList) := by
  have hv : queries k v = .ok v.toList := queries_eq_ok_iff.2 ⟨h, rfl⟩
  have hrow : queries k (NdArray.vector v.toList) = .ok v.toList :=
    queries_eq_ok_iff.2 ⟨le_rfl, NdArray.toList_vector _⟩
  rw [positions, positions, hv, hrow]

theorem rank_le_one_of_positions {k : Nat} {a : Axis α} {v : NdArray α} {c : Column α}
    (h : I.positions k a v = .ok c) : v.rank ≤ 1 := by
  obtain ⟨xs, hxs, -⟩ := Outcome.bind_eq_ok_iff.1 h
  exact (queries_eq_ok_iff.1 hxs).1

/-- The rows that arguments stand for. -/
theorem allPositions_eq_vectors {axes : List (Axis α)} {args : List (NdArray α)}
    (h : ∀ v ∈ args, v.rank ≤ 1) (k : Nat) :
    I.allPositions k axes args =
      I.allPositions k axes ((args.map NdArray.toList).map NdArray.vector) := by
  induction axes generalizing args k with
  | nil => cases args <;> rfl
  | cons a axes ih =>
    cases args with
    | nil => rfl
    | cons v args =>
      obtain ⟨hv, hargs⟩ := List.forall_mem_cons.1 h
      rw [List.map_cons, List.map_cons, allPositions, allPositions, positions_eq_vector k a hv,
        ih hargs]

theorem rank_le_one_of_allPositions {axes : List (Axis α)} {args : List (NdArray α)} {k : Nat}
    {cs : List (Column α)} (hlen : axes.length = args.length)
    (h : I.allPositions k axes args = .ok cs) : ∀ v ∈ args, v.rank ≤ 1 := by
  induction axes generalizing args k cs with
  | nil =>
    obtain rfl := List.length_eq_zero_iff.1 hlen.symm
    simp
  | cons a axes ih =>
    cases args with
    | nil => cases hlen
    | cons v args =>
      obtain ⟨c, others, hc, hothers, -⟩ := allPositions_cons_eq_ok_iff.1 h
      intro w hw
      rcases List.mem_cons.1 hw with rfl | hw
      · exact rank_le_one_of_positions hc
      · exact ih (Nat.succ.inj hlen) hothers w hw

/-! ## Columns -/

/-- The columns of positions for the arguments of a call, one per axis. -/
def columns (I : Interpolator α) (args : List (NdArray α)) :
    Except (Fault α) (List (Column α)) := do
  I.checkCount args.length
  I.allPositions 0 I.axes args

theorem columns_eq_ok_iff {args : List (NdArray α)} {cs : List (Column α)} :
    I.columns args = .ok cs ↔ args.length = I.axes.length ∧ I.allPositions 0 I.axes args = .ok cs := by
  rw [columns, Outcome.bind_eq_ok_iff]
  constructor
  · rintro ⟨u, hcount, hcs⟩
    exact ⟨checkCount_eq_ok_iff.1 hcount, hcs⟩
  · rintro ⟨hcount, hcs⟩
    exact ⟨(), checkCount_eq_ok_iff.2 hcount, hcs⟩

theorem columns_eq_vectors {args : List (NdArray α)} (h : ∀ v ∈ args, v.rank ≤ 1) :
    I.columns args = I.columns ((args.map NdArray.toList).map NdArray.vector) := by
  rw [columns, columns, List.length_map, List.length_map, allPositions_eq_vectors h]

theorem rank_le_one_of_columns {args : List (NdArray α)} {cs : List (Column α)}
    (h : I.columns args = .ok cs) : ∀ v ∈ args, v.rank ≤ 1 := by
  obtain ⟨hcount, hcs⟩ := columns_eq_ok_iff.1 h
  exact rank_le_one_of_allPositions hcount.symm hcs

/-- Interpolators with the same axes that place the values of every axis alike have the same
columns. -/
theorem columns_congr {J : Interpolator α} (haxes : I.axes = J.axes)
    (hpositions : ∀ k a v, I.positions k a v = J.positions k a v) (args : List (NdArray α)) :
    I.columns args = J.columns args := by
  have hall : ∀ axes k args, I.allPositions k axes args = J.allPositions k axes args := by
    intro axes
    induction axes with
    | nil => exact fun k args => by cases args <;> rfl
    | cons a axes ih =>
      intro k args
      cases args with
      | nil => rfl
      | cons v args => rw [allPositions, allPositions, hpositions, ih]
  rw [columns, columns, checkCount, checkCount, rank, rank, haxes]
  exact Outcome.bind_congr fun _ _ => hall ..

/-- With one more dimension around it, only a number without a dimension is a row. -/
theorem scalars_of_columns {point : List (NdArray α)} {cs : List (Column α)}
    (h : I.columns (point.map Locate.wrapped) = .ok cs) :
    ∃ xs : List α, point = xs.map NdArray.scalar := by
  refine NdArray.exists_scalars_of_shapes fun p hp => ?_
  have hrank := rank_le_one_of_columns h _ (List.mem_map_of_mem hp)
  simpa [NdArray.rank, Locate.wrapped] using hrank

/-! ## Along a sequence and onto a grid -/

theorem along_eq_columns (args : List (NdArray α)) (out : Option (Container α)) :
    I.along args out = I.columns args >>= fun cs => Weights.blue cs none >>= fun w =>
      I.backend.sample w I.field (cs.map .many) out I.config.sumCheck := by
  rw [columns, bind_assoc]
  rfl

theorem onto_eq_columns (args : List (NdArray α)) (out : Option (Container α)) :
    I.onto args out = I.columns args >>= fun cs => Weights.green cs none >>= fun w =>
      I.backend.sample w I.field (cs.map .many) out I.config.sumCheck := by
  rw [columns, bind_assoc]
  rfl

/-- **The container comes last** along a sequence. -/
theorem along_out (args : List (NdArray α)) (out : Option (Container α)) :
    I.along args out = I.along args none >>= Sample.deliver out := by
  simp only [along, Backend.sample, Sample.sample_many_out _ _ _ _ out, bind_assoc]

/-- **The container comes last** on a grid. -/
theorem onto_out (args : List (NdArray α)) (out : Option (Container α)) :
    I.onto args out = I.onto args none >>= Sample.deliver out := by
  simp only [onto, Backend.sample, Sample.sample_many_out _ _ _ _ out, bind_assoc]

/-- A call with rows or single numbers is one with rows. -/
theorem along_eq_vectors {args : List (NdArray α)} (h : ∀ v ∈ args, v.rank ≤ 1)
    (out : Option (Container α)) :
    I.along args out = I.along ((args.map NdArray.toList).map NdArray.vector) out := by
  rw [along_eq_columns, along_eq_columns, columns_eq_vectors h]

theorem onto_eq_vectors {args : List (NdArray α)} (h : ∀ v ∈ args, v.rank ≤ 1)
    (out : Option (Container α)) :
    I.onto args out = I.onto ((args.map NdArray.toList).map NdArray.vector) out := by
  rw [onto_eq_columns, onto_eq_columns, columns_eq_vectors h]

theorem rank_le_one_of_along {args : List (NdArray α)} {out : Option (Container α)} {a : NdArray α}
    (h : I.along args out = .ok a) : ∀ v ∈ args, v.rank ≤ 1 := by
  rw [along_eq_columns] at h
  obtain ⟨cs, hcs, -⟩ := Outcome.bind_eq_ok_iff.1 h
  exact rank_le_one_of_columns hcs

theorem rank_le_one_of_onto {args : List (NdArray α)} {out : Option (Container α)} {a : NdArray α}
    (h : I.onto args out = .ok a) : ∀ v ∈ args, v.rank ≤ 1 := by
  rw [onto_eq_columns] at h
  obtain ⟨cs, hcs, -⟩ := Outcome.bind_eq_ok_iff.1 h
  exact rank_le_one_of_columns hcs

/-- **A call along a sequence that succeeds** is one with rows, and then the container. -/
theorem rows_of_along {args : List (NdArray α)} {out : Option (Container α)} {a : NdArray α}
    (h : I.along args out = .ok a) :
    ∃ values, I.along ((args.map NdArray.toList).map NdArray.vector) none = .ok values ∧
      Sample.deliver out values = .ok a := by
  rw [along_out] at h
  obtain ⟨values, hvalues, hdeliver⟩ := Outcome.bind_eq_ok_iff.1 h
  exact ⟨values, (along_eq_vectors (rank_le_one_of_along hvalues) none).symm.trans hvalues, hdeliver⟩

/-- **A call onto a grid that succeeds** is one with rows, and then the container. -/
theorem rows_of_onto {args : List (NdArray α)} {out : Option (Container α)} {a : NdArray α}
    (h : I.onto args out = .ok a) :
    ∃ values, I.onto ((args.map NdArray.toList).map NdArray.vector) none = .ok values ∧
      Sample.deliver out values = .ok a := by
  rw [onto_out] at h
  obtain ⟨values, hvalues, hdeliver⟩ := Outcome.bind_eq_ok_iff.1 h
  exact ⟨values, (onto_eq_vectors (rank_le_one_of_onto hvalues) none).symm.trans hvalues, hdeliver⟩

/-! ## At one point -/

theorem valueAt_eq_columns (point : List (NdArray α)) :
    I.valueAt point = I.columns (point.map Locate.wrapped) >>= fun cs =>
      cs.mapM (fun c => c.get 0) >>= fun ps => Weights.red ps none >>= fun w =>
      I.backend.sample w I.field (ps.map .one) none I.config.sumCheck >>= fun value =>
      orBadIndex (value.get? []) := by
  rw [columns, bind_assoc, List.length_map]
  rfl

/-- **A call at a point that succeeds** is one with single numbers. -/
theorem scalars_of_valueAt {point : List (NdArray α)} {v : α} (h : I.valueAt point = .ok v) :
    ∃ xs : List α, point = xs.map NdArray.scalar := by
  rw [valueAt_eq_columns] at h
  obtain ⟨cs, hcs, -⟩ := Outcome.bind_eq_ok_iff.1 h
  exact scalars_of_columns hcs

end Arguments

/-! ## Two interpolators with one interpolant

Two interpolators may differ in their settings, in the direction of their axes or in the
points of their grids, and yet stand for one function.  Then a call that both answer is
answered alike, whatever the arguments and the container. -/

section Comparison
variable {K : Type} [Field K] [LinearOrder K] [IsStrictOrderedRing K] [FloorRing K] [Elementary K]
variable {I J : Interpolator K}

namespace Coincide

variable (h : Coincide I J) (hI : I.WellFormed) (hJ : J.WellFormed)
include h hI hJ

/-- **A point is answered alike.** -/
theorem valueAt_eq {point : List (NdArray K)} {v w : K} (hv : I.valueAt point = .ok v)
    (hw : J.valueAt point = .ok w) : v = w := by
  obtain ⟨xs, rfl⟩ := scalars_of_valueAt hv
  rw [valueAt_eq_ok_iff hI] at hv
  rw [valueAt_eq_ok_iff hJ] at hw
  exact h xs v w hv hw

/-- **A sequence is answered alike.** -/
theorem along_eq {args : List (NdArray K)} {out : Option (Container K)} {a b : NdArray K}
    (ha : I.along args out = .ok a) (hb : J.along args out = .ok b) : a = b := by
  obtain ⟨values, hvalues, hdeliver⟩ := rows_of_along ha
  obtain ⟨values', hvalues', hdeliver'⟩ := rows_of_along hb
  obtain ⟨m, hlen⟩ := exists_length_of_along hI hvalues
  obtain ⟨hshape, hv⟩ := along_eq_ok hI hlen hvalues
  obtain ⟨hshape', hw⟩ := along_eq_ok hJ hlen hvalues'
  exact Sample.eq_of_deliver (hshape.trans hshape'.symm) (h.values_eq hv hw) hdeliver hdeliver'

/-- **A grid is answered alike.** -/
theorem onto_eq {args : List (NdArray K)} {out : Option (Container K)} {a b : NdArray K}
    (ha : I.onto args out = .ok a) (hb : J.onto args out = .ok b) : a = b := by
  obtain ⟨values, hvalues, hdeliver⟩ := rows_of_onto ha
  obtain ⟨values', hvalues', hdeliver'⟩ := rows_of_onto hb
  obtain ⟨hshape, hv⟩ := onto_eq_ok hI hvalues
  obtain ⟨hshape', hw⟩ := onto_eq_ok hJ hvalues'
  exact Sample.eq_of_deliver (hshape.trans hshape'.symm) (h.values_eq hv hw) hdeliver hdeliver'

end Coincide

end Comparison

end Interpolator
end Regrid
