import Mathlib
import BoxNewton.Proofs.Evaluation
import BoxNewton.Proofs.Feasibility

/-!
# Reports describe the current point

The value, the gradient and the stationarity are carried beside the point, through accepted and
rejected steps and through both ways of halting, and an accepted gradient has three sources. When the
objective answers by two functions `f` and `f'`, whichever way it is asked, and the observer changes
nothing but the status, they belong to the point at all times: so it is at every call of the observer
and at the end (`Solver.solve_describes`).

The contract keeps one bit of history, whether the observer has left every status as it was. If it
has, a minimization that ends at a first-order point has stationarity within the tolerance that was
set at the projected start.
-/

set_option autoImplicit false

namespace BoxNewton

open Dialogue (Contract)

variable {α : Type} [Scalar α] {S : Subsolver α} {n : Nat}

/-- Holds when a report and a gradient are those of a point, for the value `f` and the gradient `f'`
on a box. -/
structure Report.Describes (report : Report α) (box : Box α n) (f : Vec α n → α)
    (f' : Vec α n → Vec α n) (x g : Vec α n) : Prop where
  objective : report.objective = f x
  gradient : g = f' x
  stationarity : report.stationarity = stationarityAt box x (f' x)

/-- The tolerance for the norm of the projected gradient, when the minimization starts at a point with
this norm. -/
def Options.tolerance (options : Options α) (stationarity : α) : α :=
  options.absoluteTolerance + options.relativeTolerance * stationarity

/-- The contract to show reports that describe the point. The objective is relied on to answer by `f`
and `f'`, and the observer to hand the point and the gradient back. Recorded is whether the observer
has left every status as it was. -/
def Box.describing (box : Box α n) (f : Vec α n → α) (f' : Vec α n → Vec α n) :
    Contract (Query α n) Query.Reply Bool where
  promises _ q := match q with
    | .observe x g report => report.Describes box f f' x g
    | _ => True
  relies _ q a := match q, a with
    | .value x, fx => fx = f x
    | .gradient x _, g => g = f' x
    | .valueGradient x _, both => both = (f x, f' x)
    | .observe x g _, seen => seen.x = x ∧ seen.g = g
    | _, _ => True
  next quiet q a := match q, a with
    | .observe _ _ report, seen => quiet && seen.status == report.status
    | _, _ => quiet

section Questions

variable {box : Box α n} {f : Vec α n → α} {f' : Vec α n → Vec α n} {quiet : Bool}

theorem Box.permits_describing (x : Vec α n) (trial : Vec α n → Prop) :
    PermitsIteration (box.describing f f') quiet x trial where
  product _ _ := ⟨trivial, fun _ _ => rfl⟩
  value _ _ := ⟨trivial, fun _ _ => rfl⟩
  gradient _ _ _ := ⟨trivial, fun _ _ => rfl⟩
  valueGradient _ _ _ := ⟨trivial, fun _ _ => rfl⟩

theorem Box.clock_describing (limit : Float) :
    (box.describing f f').Allows quiet (.outOfTime limit) := ⟨trivial, fun _ _ => rfl⟩

/-- The plain answers are those that are relied on. -/
theorem Box.plainAnswer_relied (box : Box α n) (f : Vec α n → α) (f' : Vec α n → Vec α n)
    (H : Vec α n → Vec α n → Vec α n) (quiet : Bool) (q : Query α n) :
    (box.describing f f').relies quiet q (plainAnswer f f' H q) := by
  cases q with
  | observe x g report => exact ⟨rfl, rfl⟩
  | value | gradient | valueGradient => rfl
  | product | outOfTime => trivial

/-- Whichever way a value was asked for, it is that of `f`. -/
theorem ValueAt.eq {x : Vec α n} {fx : α} (known : ValueAt (box.describing f f') quiet x fx) :
    fx = f x := by
  rcases known with alone | ⟨_, _, both⟩
  · exact alone
  · exact congrArg Prod.fst both

/-- Whichever way a gradient was asked for, it is that of `f'`. -/
theorem GradientAt.eq {x g : Vec α n} (known : GradientAt (box.describing f f') quiet x g) :
    g = f' x := by
  rcases known with ⟨_, alone⟩ | ⟨_, _, both⟩
  · exact alone
  · exact congrArg Prod.snd both

end Questions

/-! ## One iteration -/

/-- Holds when what is carried beside the point belongs to it, and a first-order point is within the
tolerance as long as the observer is quiet. -/
structure Setting.Describes (st : Setting α n) (f : Vec α n → α) (f' : Vec α n → Vec α n)
    (p : Progress α S n) (quiet : Bool) : Prop where
  held : st.box.Holds p.x
  report : p.report.Describes st.box f f' p.x p.g
  reached : quiet → p.status = .firstOrder → p.stationarity ≤ st.tolerance

namespace Setting

variable {st : Setting α n} {f : Vec α n → α} {f' : Vec α n → Vec α n} {p : Progress α S n}
  {quiet : Bool}

/-- What stands still belongs to the point. -/
theorem report_of_stands {p' : Progress α S n} (here : p.report.Describes st.box f f' p.x p.g)
    (stands : p.Stands p') : p'.report.Describes st.box f f' p'.x p'.g := by
  obtain ⟨objective, gradient, stationarity⟩ := here
  rw [stands.x, stands.g]
  exact ⟨stands.value.trans objective, gradient, stands.stationarity.trans stationarity⟩

theorem describes_of_stands {p' : Progress α S n} (here : st.Describes f f' p quiet)
    (stands : p.Stands p') (halted : p'.status ≠ .firstOrder) : st.Describes f f' p' quiet where
  held := stands.x ▸ here.held
  report := report_of_stands here.report stands
  reached _ stationary := absurd stationary halted

variable [Scalar.LawfulOrder α]

/-- The observer is shown what belongs to the point. The projection moves nothing that is handed
back. -/
theorem checkpoint_describes (held : st.box.Holds p.x)
    (report : p.report.Describes st.box f f' p.x p.g)
    (reached : p.status = .firstOrder → p.stationarity ≤ st.tolerance) :
    (st.checkpoint p).Keeps (st.box.describing f f')
      (fun p' quiet' => st.Describes f f' p' quiet') quiet := by
  refine ⟨report, ?_⟩
  rintro seen ⟨sameX, sameG⟩
  have still : st.box.project seen.x = p.x := by
    rw [sameX]
    exact Box.project_of_holds held
  refine ⟨?_, ⟨?_, ?_, ?_⟩, ?_⟩
  · exact Box.holds_project _ _
  · exact report.objective.trans (congrArg f still.symm)
  · exact sameG.trans (report.gradient.trans (congrArg f' still.symm))
  · change p.stationarity = stationarityAt st.box (st.box.project seen.x) _
    rw [still]
    exact report.stationarity
  · intro quiet' stationary
    apply reached
    have same : seen.status = p.status := eq_of_beq (Bool.and_eq_true_iff.1 quiet').2
    exact same.symm.trans stationary

/-- After an iteration whose step was judged, the observer is shown what belongs to the point. -/
theorem judged_describes {p' : Progress α S n} {status : Status} (here : st.Describes f f' p quiet)
    (went : p.Stands p' ∨ st.Moves (st.box.describing f f') quiet st.box.Holds p p')
    (reached : status = .firstOrder → p'.stationarity ≤ st.tolerance) :
    (st.checkpoint { p' with iteration := p'.iteration + 1, status }).Keeps (st.box.describing f f')
      (fun p'' quiet' => st.Describes f f' p'' quiet') quiet := by
  rcases went with stands | moves
  · have held : st.box.Holds p'.x := stands.x ▸ here.held
    have after := report_of_stands here.report stands
    exact checkpoint_describes held ⟨after.objective, after.gradient, after.stationarity⟩ reached
  · refine checkpoint_describes moves.trial ⟨moves.value.eq, moves.g.eq, ?_⟩ reached
    exact moves.stationarity.trans (congrArg _ moves.g.eq)

theorem loop_describes (fuel : Nat) (here : st.Describes f f' p quiet) :
    (st.loop fuel p).Keeps (st.box.describing f f') (fun p' quiet' => st.Describes f f' p' quiet')
      quiet := by
  refine loop_keeps (fun p quiet => st.Describes f f' p quiet)
    (fun p _ _ => Box.permits_describing p.x st.box.Holds) (lands_within st S)
    (fun _ => Box.clock_describing) ?_ ?_ fuel p quiet here
  · intro p p' quiet here stands halted
    apply describes_of_stands here stands
    rcases halted with small | flat
    · rw [small]
      nofun
    · rw [flat]
      nofun
  · intro p p' quiet status here went reached
    exact judged_describes here went reached

end Setting

/-! ## A minimization -/

variable [Scalar.LawfulOrder α]

/-- What is known of the end of a minimization from a starting point. -/
structure Minimum.Describes (found : Minimum α S n) (options : Options α) (box : Box α n)
    (f : Vec α n → α) (f' : Vec α n → Vec α n) (start : Vec α n) (quiet : Bool) : Prop where
  report : found.report.Describes box f f' found.x found.state.buffers.gradient
  reached : quiet → found.report.status = .firstOrder →
    stationarityAt box found.x (f' found.x) ≤
      options.tolerance (stationarityAt box (box.project start) (f' (box.project start)))

/-- When the first point has been shown, what is carried belongs to it. -/
theorem SolverState.begin_describes (state : SolverState α S n) (options : Options α)
    (box : Box α n) (f : Vec α n → α) (f' : Vec α n → Vec α n) (start : Vec α n) (fuel : Nat)
    (quiet : Bool) :
    (state.begin options box start fuel).Keeps (box.describing f f')
      (fun out quiet' => out.1.options = options ∧ out.1.box = box ∧
        out.1.Describes f f' out.2 quiet' ∧ out.1.tolerance =
          options.tolerance (stationarityAt box (box.project start) (f' (box.project start))))
      quiet := by
  have allowed : PermitsIteration (box.describing f f') quiet (box.project start) fun _ => True :=
    Box.permits_describing _ _
  apply begin_keeps state fuel allowed trivial Box.clock_describing
  intro st p opens
  obtain ⟨rfl, rfl, x, value, g, stationarity, tolerance, reached, -⟩ := opens
  have held : st.box.Holds p.x := x ▸ Box.holds_project st.box start
  refine (Setting.checkpoint_describes held ⟨value.eq, g.eq, ?_⟩ reached).mono
    fun p' quiet' here => ⟨rfl, rfl, here, ?_⟩
  · exact stationarity.trans (congrArg _ g.eq)
  · rw [tolerance, g.eq, x]
    rfl

theorem SolverState.minimize_describes (state : SolverState α S n) (options : Options α)
    (box : Box α n) (f : Vec α n → α) (f' : Vec α n → Vec α n) (start : Vec α n) (fuel : Nat)
    (quiet : Bool) :
    (state.minimize options box start fuel).Keeps (box.describing f f')
      (fun found quiet' => found.Describes options box f f' start quiet') quiet := by
  unfold minimize
  refine (begin_describes state options box f f' start fuel quiet).bind ?_
  rintro ⟨st, p⟩ quiet' ⟨-, rfl, here, tolerance⟩
  refine (Setting.loop_describes fuel here).bind ?_
  intro last quiet'' here
  refine ⟨⟨here.report.objective, here.report.gradient, here.report.stationarity⟩,
    fun silent stationary => ?_⟩
  rw [← tolerance]
  exact (here.report.stationarity : last.stationarity = _) ▸ here.reached silent stationary

/-! ## Runs -/

section Worlds

omit [Scalar.LawfulOrder α]

/-- An objective whose answers in dimension `n` are those of two functions, whichever way it is asked
and whatever it is handed to write into. -/
structure Objective.Computes {α : Type} {n : Nat} (o : Objective α) (f : Vec α n → α)
    (f' : Vec α n → Vec α n) : Prop where
  value : ∀ x : Vec α n, o.value x.toArray = .ok (f x)
  gradient : ∀ x out : Vec α n, o.gradient x.toArray out.toArray = .ok (f' x).toArray
  valueGradient : ∀ x out : Vec α n,
    o.valueGradient x.toArray out.toArray = .ok (f x, (f' x).toArray)

/-- An observer that hands the point and the gradient back as they are. -/
def Observer.KeepsPoint {α ω : Type} (observer : Observer α ω) : Prop :=
  ∀ x g report w, ∃ status w', observer.observe x g report w = ((x, g, status), w')

omit [Scalar α] in
theorem Vec.ofArray?_toArray (x : Vec α n) : Vec.ofArray? n x.toArray = .ok x := by
  simp [ofArray?]

/-- What is no misfit does not stop a run. -/
theorem Dialogue.liftM_ok {β : Type} (b : β) :
    (liftM (.ok b : Except Misfit β) : Except Stop β) = .ok b := rfl

omit [Scalar α] in
/-- Such an objective gives the plain answers to an observer that changes nothing. -/
theorem Objective.Computes.answer_eq {ω : Type} {o : Objective α} {f : Vec α n → α}
    {f' : Vec α n → Vec α n} {H : Vec α n → Vec α n → Vec α n} (computes : o.Computes f f')
    (product : ∀ x v out : Vec α n, o.product x.toArray v.toArray out.toArray = .ok (H x v).toArray)
    (q : Query α n) (w : ω) :
    o.answer .silent .stopped q w = .ok (plainAnswer f f' H q, w) := by
  cases q with
  | value x =>
      simp only [answer, computes.value]
      rfl
  | gradient x out =>
      simp only [answer, computes.gradient, Dialogue.liftM_ok, bind, Except.bind,
        Vec.ofArray?_toArray]
      rfl
  | valueGradient x out =>
      simp only [answer, computes.valueGradient, Dialogue.liftM_ok, bind, Except.bind,
        Vec.ofArray?_toArray]
      rfl
  | product x v out =>
      simp only [answer, product, Dialogue.liftM_ok, bind, Except.bind, Vec.ofArray?_toArray]
      rfl
  | observe x g report =>
      simp only [answer, Observer.silent, Dialogue.liftM_ok, bind, Except.bind,
        Vec.ofArray?_toArray]
      rfl
  | outOfTime limit => rfl

/-- An observer that hands every status back as it is. -/
def Observer.KeepsStatus {α ω : Type} (observer : Observer α ω) : Prop :=
  ∀ x g report w, (observer.observe x g report w).1.2.2 = report.status

/-- Such an objective and such an observer answer as relied on. -/
theorem Objective.Computes.relied {ω : Type} {o : Objective α} {f : Vec α n → α}
    {f' : Vec α n → Vec α n} (computes : o.Computes f f') {observer : Observer α ω}
    (keeps : observer.KeepsPoint) (clock : Clock ω) (box : Box α n) (q : Query α n)
    (quiet : Bool) (w : ω) (a : q.Reply) (w' : ω)
    (silent : observer.KeepsStatus → quiet = true)
    (answered : o.answer observer clock q w = .ok (a, w')) :
    (box.describing f f').relies quiet q a ∧
      (observer.KeepsStatus → (box.describing f f').next quiet q a = true) := by
  cases q with
  | value x =>
      simp only [answer, computes.value] at answered
      cases answered
      exact ⟨rfl, silent⟩
  | gradient x out =>
      simp only [answer, computes.gradient, Dialogue.liftM_ok, Vec.ofArray?_toArray, bind,
        Except.bind] at answered
      cases answered
      exact ⟨rfl, silent⟩
  | valueGradient x out =>
      simp only [answer, computes.valueGradient, Dialogue.liftM_ok, Vec.ofArray?_toArray, bind,
        Except.bind] at answered
      cases answered
      exact ⟨rfl, silent⟩
  | product x v out => exact ⟨trivial, silent⟩
  | outOfTime limit => exact ⟨trivial, silent⟩
  | observe x g report =>
      obtain ⟨status, w₁, seen⟩ := keeps x.toArray g.toArray report w
      simp only [answer, seen, Dialogue.liftM_ok, Vec.ofArray?_toArray, bind, Except.bind]
        at answered
      cases answered
      refine ⟨⟨rfl, rfl⟩, fun keepsStatus => Bool.and_eq_true_iff.2 ⟨silent keepsStatus, ?_⟩⟩
      have same := keepsStatus x.toArray g.toArray report w
      rw [seen] at same
      exact beq_iff_eq.2 same

end Worlds

/-- **Reports describe the current point.** Let the objective answer by two functions, and let the
observer change nothing but the status. Then every report that the observer is shown, and the one at
the end, describes the point that it comes with. A minimization under an observer that changes no
status ends at a first-order point only within the tolerance for the projected start. -/
theorem Solver.solve_describes (solver : Solver α S) (p : Problem α) (dom : Domain α)
    (start : Vec α dom.dim) (fuel : Nat) (f : Vec α dom.dim → α)
    (f' : Vec α dom.dim → Vec α dom.dim) :
    (∀ d, solver.solve p dom start.toArray fuel = .ok d →
      d.Keeps (dom.box.describing f f')
        (fun found quiet => found.Describes solver.options dom.box f f' start quiet) true) ∧
    ∀ {ω : Type} (observer : Observer α ω) (clock : Clock ω) (w : ω)
      (solution : Solution α S ω dom.dim), p.objective.Computes f f' → observer.KeepsPoint →
      solver.run p dom start.toArray observer clock fuel w = .ok (.ok solution) →
        (∀ x g report, .observe x g report ∈ solution.transcript.asked →
          report.Describes dom.box f f' x g) ∧
        ∃ x g : Vec α dom.dim, x.toArray = solution.x ∧
          g.toArray = solution.solver.state.buffers.gradient.toArray ∧
          solution.report.Describes dom.box f f' x g ∧
          (observer.KeepsStatus → solution.report.status = .firstOrder →
            stationarityAt dom.box x (f' x) ≤ solver.options.tolerance
              (stationarityAt dom.box (dom.box.project start) (f' (dom.box.project start)))) := by
  have kept : ∀ d, solver.solve p dom start.toArray fuel = .ok d →
      d.Keeps (dom.box.describing f f')
        (fun found quiet => found.Describes solver.options dom.box f f' start quiet) true := by
    refine fun d made => Solver.solve_keeps (fun start' same => ?_) made
    cases Vector.toArray_inj.1 same
    exact SolverState.minimize_describes _ _ _ _ _ _ _ _
  refine ⟨kept, ?_⟩
  intro ω observer clock w solution computes keeps ran
  obtain ⟨asked, found, quiet, silent, here, sameX, sameReport, sameSolver⟩ :=
    run_keeps (fun quiet _ => observer.KeepsStatus → quiet = true) kept
      (fun q quiet w a w' silent answered =>
        computes.relied keeps clock dom.box q quiet w a w' silent answered)
      (fun _ => rfl) ran
  refine ⟨fun x g report shown => (asked _ shown).elim fun _ describes => describes,
    found.x, found.state.buffers.gradient, sameX, ?_, sameReport ▸ here.report, fun still => ?_⟩
  · rw [sameSolver]
  · rw [← sameReport]
    exact here.reached (silent still)

omit [Scalar.LawfulOrder α] in
/-- The sphere is half the squared norm, and every point is its own gradient. -/
theorem Sphere.computes :
    (Sphere.objective : Objective α).Computes (fun x : Vec α n => 0.5 * x.normSq) id where
  value x := by
    obtain ⟨xs, rfl⟩ := x
    rfl
  gradient x out := by simp [Sphere.objective, replaceAll?]
  valueGradient x out := by
    obtain ⟨xs, rfl⟩ := x
    simp [Sphere.objective, replaceAll?]

omit [Scalar.LawfulOrder α] in
/-- The sphere has the unit matrix for its Hessian. -/
theorem Sphere.product (x v out : Vec α n) :
    (Sphere.objective : Objective α).product x.toArray v.toArray out.toArray = .ok v.toArray := by
  simp [Sphere.objective, replaceAll?]

/-- The run from outside the box ends at a first-order point. -/
theorem solve_describes_cappedSphere :
    ∃ solution, cappedSphereSolver.run cappedSphere cappedSphere.domain #[5] .silent
        .stopped 9 () = .ok (.ok solution) ∧ solution.report.status = .firstOrder ∧
      (∀ x g report, .observe x g report ∈ solution.transcript.asked →
        report.Describes cappedSphere.domain.box (fun x => 0.5 * x.normSq) id x g) ∧
      ∃ x : Vec Float 1, x.toArray = solution.x ∧
        stationarityAt cappedSphere.domain.box x x ≤ Options.standard.tolerance
          (stationarityAt cappedSphere.domain.box #v[2] #v[2]) := by
  have describes := cappedSphereSolver.solve_describes cappedSphere cappedSphere.domain #v[5] 9
    (fun x => 0.5 * x.normSq) id
  have ends : ((cappedSphereSolver.run cappedSphere cappedSphere.domain #[5] .silent
      .stopped 9 ()).toOption.bind Except.toOption).any
        (·.report.status = .firstOrder) := by
    decide +kernel
  cases ran : cappedSphereSolver.run cappedSphere cappedSphere.domain #[5] .silent
      .stopped 9 () with
  | error stop => simp [ran, Except.toOption] at ends
  | ok result =>
      cases result with
      | error e => simp [ran, Except.toOption] at ends
      | ok solution =>
          have stationary : solution.report.status = .firstOrder := by
            simpa [ran, Except.toOption] using ends
          obtain ⟨shown, x, g, sameX, -, -, reached⟩ :=
            describes.2 .silent _ _ solution Sphere.computes (fun _ _ report _ => ⟨_, _, rfl⟩) ran
          exact ⟨solution, rfl, stationary, shown, x, sameX, reached (fun _ _ _ _ => rfl) stationary⟩

end BoxNewton
