import Regrid.Interpolator.Session
import Regrid.Proofs.Extended
import Regrid.Proofs.Interpolator.Calls
import Regrid.Proofs.Sample.Samplers

/-!
# Backends are interchangeable

Interpolators that differ in their backend alone (`Interpolator.withBackend`) are made from the same
grids and fields (`make_withBackend`), and give the same answers.  The backends locate alike, so
every call gets the same positions (`positions_withBackend`), and they sample alike where sums may be
made in any order, so it gets the same values (`along_withBackend`, `onto_withBackend`,
`valueAt_withBackend`).

Polynomials have a closest point in common only if no distance is no number.  A query that has been
located in a grid of finite points is finite, and so are its distances (`polyAlong_withBackend`).

A session is a sequence of such calls: with every backend it gets answers that end alike, and leaves
the same containers (`backends_interchangeable`).
-/
namespace Regrid

/-! ## Another backend -/

section Exchange
variable {α : Type}

/-- The same settings with another choice of a backend. -/
def Settings.withBackend (s : Settings α) (c : BackendChoice) : Settings α :=
  { s with backend := some c }

/-- The same configuration with another choice of a backend. -/
def Config.withBackend (cfg : Config α) (c : BackendChoice) : Config α := { cfg with backend := c }

/-- The same interpolator with another backend. -/
def Interpolator.withBackend (I : Interpolator α) (c : BackendChoice) (b : Backend) :
    Interpolator α :=
  { I with config := I.config.withBackend c, backend := b }

/-- Every choice but the native kernels can be built. -/
theorem Backend.exists_build {c : BackendChoice} (hc : c ≠ .native) :
    ∃ b, (build c : Except (Fault α) Backend) = .ok b := by
  cases c with
  | native => exact absurd rfl hc
  | reference => exact ⟨reference, rfl⟩
  | compiled => exact ⟨compiled, rfl⟩
  | fused => exact ⟨fused, rfl⟩
  | auto => exact ⟨compiled, rfl⟩

end Exchange

section Construction
variable {α : Type} [Scalar α]

/-- Settings pass the checks with every backend that has a name. -/
theorem Config.make_withBackend {s : Settings α} {cfg : Config α} (h : make s = .ok cfg)
    (c : BackendChoice) : make (s.withBackend c) = .ok (cfg.withBackend c) :=
  make_eq_ok_iff.2 { make_eq_ok_iff.1 h with backend := rfl }

namespace Interpolator

theorem makeAxes_withBackend (cfg : Config α) (c : BackendChoice) (k : Nat) (shape : List Nat)
    (points : List (List α)) :
    makeAxes (cfg.withBackend c) k shape points = makeAxes cfg k shape points := by
  induction shape generalizing k points with
  | nil => cases points <;> rfl
  | cons n shape ih =>
    cases points with
    | nil => rfl
    | cons xs points =>
      rw [makeAxes, makeAxes, ih]
      rfl

/-- **Interpolators are made alike** with all backends. -/
theorem make_withBackend {c c' : BackendChoice} {b b' : Backend}
    (hc : (Backend.build c : Except (Fault α) Backend) = .ok b)
    (hc' : (Backend.build c' : Except (Fault α) Backend) = .ok b') (cfg : Config α)
    (grids : List (NdArray α)) (field : NdArray α) :
    make grids field (cfg.withBackend c') =
      (make grids field (cfg.withBackend c)).map (·.withBackend c' b') := by
  have hbuild : (Backend.build (cfg.withBackend c).backend : Except (Fault α) Backend) = .ok b := hc
  have hbuild' : (Backend.build (cfg.withBackend c').backend : Except (Fault α) Backend) = .ok b' :=
    hc'
  have hlog : ∀ c, (cfg.withBackend c).logAxes = cfg.logAxes := fun _ => rfl
  simp only [make, makeAxes_withBackend, hbuild, hbuild', hlog, Outcome.throw_eq_error,
    Outcome.error_bind, Outcome.ok_bind, Outcome.map_bind, Outcome.map_ite, Outcome.map_error]
  rfl

end Interpolator
end Construction

/-! ## Calls -/

namespace Interpolator

section Calls
variable {α : Type} [Scalar α] (I : Interpolator α) (c : BackendChoice) (b : Backend)

theorem positions_withBackend (k : Nat) (a : Axis α) (values : NdArray α) :
    (I.withBackend c b).positions k a values = I.positions k a values := by
  simp only [positions, Backend.locate_eq]
  rfl

theorem locate_withBackend (axis : Int) (values : NdArray α) (clamp : Bool) :
    (I.withBackend c b).locate axis values clamp = I.locate axis values clamp := by
  simp only [locate, positions_withBackend]
  rfl

theorem columns_withBackend (args : List (NdArray α)) :
    (I.withBackend c b).columns args = I.columns args :=
  columns_congr (I := I.withBackend c b) (J := I) rfl (positions_withBackend I c b) args

section Sampling
variable [ExactSums α]

theorem along_withBackend (args : List (NdArray α)) (out : Option (Container α)) :
    (I.withBackend c b).along args out = I.along args out := by
  rw [along_eq_columns, along_eq_columns, columns_withBackend]
  exact Outcome.bind_congr fun cs _ => Outcome.bind_congr fun w _ => Backend.sample_eq ..

theorem onto_withBackend (args : List (NdArray α)) (out : Option (Container α)) :
    (I.withBackend c b).onto args out = I.onto args out := by
  rw [onto_eq_columns, onto_eq_columns, columns_withBackend]
  exact Outcome.bind_congr fun cs _ => Outcome.bind_congr fun w _ => Backend.sample_eq ..

theorem valueAt_withBackend (point : List (NdArray α)) :
    (I.withBackend c b).valueAt point = I.valueAt point := by
  rw [valueAt_eq_columns, valueAt_eq_columns, columns_withBackend]
  refine Outcome.bind_congr fun cs _ => Outcome.bind_congr fun ps _ =>
    Outcome.bind_congr fun w _ => ?_
  have hsample := Backend.sample_eq b I.backend w I.field (ps.map .one) none I.config.sumCheck
  exact congrArg (· >>= fun value => orBadIndex (value.get? [])) hsample

end Sampling

/-! ## Polynomials -/

theorem polynomialAt_withBackend {points values : List α} {x : α}
    (h : ∀ start count, Neville.closestOrNaN (Polynomial.stretch start count points) x =
      Neville.closest (Polynomial.stretch start count points) x) (p : Position α) :
    Outcome.EndAlike ((I.withBackend c b).polynomialAt points values p x)
      (I.polynomialAt points values p x) := by
  refine (Outcome.EndAlike.refl _).bind fun start _ => ?_
  exact (Backend.polynomial_endAlike (h ..) b I.backend).bind fun _ _ => .refl _

end Calls

variable {K : Type} [Field K] [LinearOrder K] [FloorRing K] [Elementary K]
variable {I : Interpolator (Extended K)}

/-- The coordinates of located values are finite. -/
theorem isFinite_of_positions (he : Scalar.isFinite I.config.extpolfac = true) {k : Nat}
    {a : Axis (Extended K)} {values : NdArray (Extended K)} {column : Column (Extended K)}
    (h : I.positions k a values = .ok column) :
    ∀ x ∈ (if a.logarithmic then values.toList.map Scalar.log else values.toList),
      Scalar.isFinite x = true := by
  rw [positions_eq_vector k a (rank_le_one_of_positions h)] at h
  obtain ⟨zs, hzs, hlocate⟩ := positions_eq_ok_iff.1 h
  have hcoordinates : (if a.logarithmic then values.toList.map Scalar.log else values.toList) = zs := by
    unfold Axis.coordinates at hzs
    split at hzs
    · next hlog =>
      rw [if_pos hlog]
      split at hzs
      · cases hzs
      · exact Except.ok.inj hzs
    · next hlog =>
      rw [if_neg hlog]
      exact Except.ok.inj hzs
  rw [hcoordinates]
  exact Extended.isFinite_of_locate he hlocate

/-- **Polynomials along a sequence** end alike with all backends. -/
theorem polyAlong_withBackend (he : Scalar.isFinite I.config.extpolfac = true) (c : BackendChoice)
    (b : Backend) (coordinates : NdArray (Extended K)) :
    Outcome.EndAlike ((I.withBackend c b).polyAlong coordinates) (I.polyAlong coordinates) := by
  have haxes : (I.withBackend c b).axes = I.axes := rfl
  rw [polyAlong, polyAlong, haxes]
  split
  · next axis _ =>
    refine (Outcome.EndAlike.refl _).bind fun d hreference => ?_
    refine (Outcome.EndAlike.of_eq (positions_withBackend ..)).bind fun column hcolumn => ?_
    rw [positions_withBackend] at hcolumn
    refine (Outcome.EndAlike.mapM fun entry hentry => ?_).bind fun values _ => .refl _
    -- The grid has been checked and the query located, so no distance between them is no number.
    have hpoints := Extended.isFinite_of_checkReference hreference
    have hquery := isFinite_of_positions he hcolumn entry.2 (List.of_mem_zip hentry).2
    exact polynomialAt_withBackend I c b (fun start count => Extended.closestOrNaN_eq
      (fun x hx => hpoints x (List.mem_of_mem_drop (List.mem_of_mem_take hx))) hquery) entry.1
  · exact .refl _

end Interpolator

/-! ## Sessions -/

namespace Session

variable {α : Type} [Scalar α]

/-- Answers that end alike leave the same containers. -/
theorem settle_eq {reply reply' : Except (Fault α) (Reply α)}
    (h : Outcome.EndAlike reply reply') (shelf : Shelf α) (target : Option String) :
    settle shelf target reply = settle shelf target reply' := by
  cases hreply : reply with
  | ok r => rw [h.eq_ok_iff.1 hreply]
  | error e =>
    obtain ⟨e', he', -⟩ := h.exists_error_iff.1 ⟨e, hreply, rfl⟩
    rw [he']
    rfl

variable {K : Type} [Field K] [LinearOrder K] [FloorRing K] [Elementary K]
variable {I : Interpolator (Extended K)}

/-- One call ends alike with all backends. -/
theorem answer_withBackend (he : Scalar.isFinite I.config.extpolfac = true) (c : BackendChoice)
    (b : Backend) (shelf : Shelf (Extended K)) (call : Call (Extended K)) :
    Outcome.EndAlike (answer (I.withBackend c b) shelf call) (answer I shelf call) := by
  cases call with
  | valueAt point =>
    exact (Outcome.EndAlike.of_eq (I.valueAt_withBackend c b point)).bind fun _ _ => .refl _
  | along coordinates out =>
    refine (Outcome.EndAlike.refl _).bind fun container _ => ?_
    exact (Outcome.EndAlike.of_eq (I.along_withBackend c b coordinates container)).bind
      fun _ _ => .refl _
  | onto newGrids out =>
    refine (Outcome.EndAlike.refl _).bind fun container _ => ?_
    exact (Outcome.EndAlike.of_eq (I.onto_withBackend c b newGrids container)).bind
      fun _ _ => .refl _
  | locate axis values clamp =>
    exact (Outcome.EndAlike.of_eq (I.locate_withBackend c b axis values clamp)).bind
      fun _ _ => .refl _
  | polyAlong coordinates =>
    exact (Interpolator.polyAlong_withBackend he c b coordinates).bind fun _ _ => .refl _

/-- A run of calls: every one of them ends alike with all backends, and finds and leaves the same
containers. -/
theorem run_withBackend (he : Scalar.isFinite I.config.extpolfac = true) (c : BackendChoice)
    (b : Backend) (shelf : Shelf (Extended K)) (calls : List (Call (Extended K))) :
    List.Forall₂ (fun step step' => Outcome.EndAlike step.1 step'.1 ∧ step.2 = step'.2)
      (run I shelf calls) (run (I.withBackend c b) shelf calls) := by
  induction calls generalizing shelf with
  | nil => exact .nil
  | cons call calls ih =>
    have hreply := (answer_withBackend he c b shelf call).symm
    -- The next call finds the same containers, and with these the induction goes on.
    have hshelf : (perform (I.withBackend c b) shelf call).2 = (perform I shelf call).2 :=
      (settle_eq hreply shelf call.target).symm
    rw [run, run, hshelf]
    exact .cons ⟨hreply, hshelf.symm⟩ (ih _)

end Session

namespace Interpolator

variable {K : Type} [Field K] [LinearOrder K] [FloorRing K] [Elementary K]

/-- **Backends are interchangeable**, except that native kernels cannot be chosen where they are not
there.  In exact arithmetic with infinities,
take a checked configuration and any two choices of a backend in it.  Interpolators are made with
both from the same grids and fields, or refused with the same fault.  In every session, whatever
numbers, infinities and other things are asked for, they give the same positions and values or faults
of the same kind, call by call, and leave the same containers.  The backends themselves locate values
alike with every tie-break and factor, and sample any field with any weights and positions alike. -/
theorem backends_interchangeable {settings : Settings (Extended K)} {cfg : Config (Extended K)}
    (hcfg : Config.make settings = .ok cfg) {c c' : BackendChoice} (hc : c ≠ .native)
    (hc' : c' ≠ .native) (grids : List (NdArray (Extended K))) (field : NdArray (Extended K)) :
    Config.make (settings.withBackend c) = .ok (cfg.withBackend c) ∧
    Config.make (settings.withBackend c') = .ok (cfg.withBackend c') ∧
    Outcome.FailAlike (make grids field (cfg.withBackend c)) (make grids field (cfg.withBackend c')) ∧
    (∀ I J, make grids field (cfg.withBackend c) = .ok I →
      make grids field (cfg.withBackend c') = .ok J →
      ∀ (shelf : Shelf (Extended K)) (calls : List (Call (Extended K))),
        List.Forall₂ (fun step step' => Outcome.EndAlike step.1 step'.1 ∧ step.2 = step'.2)
          (Session.run I shelf calls) (Session.run J shelf calls)) ∧
    ∀ b b' : Backend,
      (∀ (oldGrid newGrid : NdArray (Extended K)) (extpolfac : Extended K) (t : TieBreak),
        b.locate oldGrid newGrid extpolfac (some t) = b'.locate oldGrid newGrid extpolfac (some t)) ∧
      ∀ (weights samples : NdArray (Extended K)) (ps : List (Placement (Extended K)))
        (out : Option (Container (Extended K))) (check : SumCheck (Extended K)),
        b.sample weights samples ps out check = b'.sample weights samples ps out check := by
  obtain ⟨b, hb⟩ := Backend.exists_build (α := Extended K) hc
  obtain ⟨b', hb'⟩ := Backend.exists_build (α := Extended K) hc'
  have hmake := make_withBackend hb hb' cfg grids field
  refine ⟨Config.make_withBackend hcfg c, Config.make_withBackend hcfg c', fun fault => ?_,
    fun I J hI hJ shelf calls => ?_, fun b b' => ⟨fun oldGrid newGrid extpolfac t => ?_,
      fun weights samples ps out check => Backend.sample_eq ..⟩⟩
  · rw [hmake]
    cases make grids field (cfg.withBackend c) <;> simp [Except.map]
  · rw [hmake, hI] at hJ
    cases hJ
    have hconfig : I.config = cfg.withBackend c := by
      obtain ⟨-, -, -, -, -, -, -, -, hconfig⟩ := make_eq_ok_iff.1 hI
      exact hconfig
    have he : Scalar.isFinite I.config.extpolfac = true := by
      have hfor := Config.make_eq_ok_iff.1 hcfg
      rw [hconfig]
      exact hfor.extpolfac_eq ▸ hfor.finite
    exact Session.run_withBackend he c' b' shelf calls
  · rw [Backend.locate_eq, Backend.locate_eq]

/-- A field with an infinity and an entry that is no number, and calls with such values. -/
theorem backends_interchangeable_two_axes :
    let cfg : Config (Extended ℚ) := ⟨Grid.defaultExtpolfac, Position.defaultTolerance,
      ⟨true, SumCheck.defaultTolerance⟩, .keep, .reference, .adaptive3, []⟩
    let grids : List (NdArray (Extended ℚ)) :=
      [NdArray.vector [.finite 0, .finite 1, .finite 3], NdArray.vector [.finite 2, .finite 1]]
    let field : NdArray (Extended ℚ) :=
      ⟨[3, 2], #[.finite 1, .posInf, .nan, .finite 3, .finite 5, .finite 8], rfl⟩
    let box : Container (Extended ℚ) := .ofReals .double field
    let calls : List (Call (Extended ℚ)) :=
      [.onto grids (some "box"), .along [NdArray.vector [.nan], NdArray.vector [.finite 1]] none,
        .locate 0 (NdArray.vector [.posInf]) true]
    Config.make Settings.default = .ok cfg ∧
      ∃ I J, make grids field (cfg.withBackend .fused) = .ok I ∧
        make grids field (cfg.withBackend .auto) = .ok J ∧
        List.Forall₂ (fun step step' => Outcome.EndAlike step.1 step'.1 ∧ step.2 = step'.2)
          (Session.run I [("box", box)] calls) (Session.run J [("box", box)] calls) := by
  intro cfg grids field box calls
  have hcfg : Config.make Settings.default = .ok cfg :=
    Config.make_eq_ok_iff.2 ⟨rfl, by decide +kernel, by decide +kernel, by decide +kernel, rfl, rfl,
      rfl, rfl, .nil, rfl, rfl, rfl⟩
  obtain ⟨I, hI⟩ := Outcome.exists_of_isOk
    (show (make grids field (cfg.withBackend .fused)).isOk = true by decide +kernel)
  obtain ⟨J, hJ⟩ := Outcome.exists_of_isOk
    (show (make grids field (cfg.withBackend .auto)).isOk = true by decide +kernel)
  obtain ⟨-, -, -, hsessions, -⟩ :=
    backends_interchangeable hcfg (show BackendChoice.fused ≠ .native by decide)
      (show BackendChoice.auto ≠ .native by decide) grids field
  exact ⟨hcfg, I, J, hI, hJ, hsessions I J hI hJ _ _⟩

end Interpolator
end Regrid
