import Mathlib
import BoxNewton.Proofs.Iteration

/-!
# From one iteration to a run

Between two iterations the clock may be asked, and the observer is shown the point
(`Setting.conclude_keeps`). A run repeats this, so what an iteration and its end keep, a run keeps
(`Setting.loop_rule`).

Before all this come the checks, which either refuse a minimization or make it (`Solver.solve_starts`).
A run that ends is the run of a minimization that passed the checks (`Solver.run_ok`), so what such a
minimization keeps on every path holds of every run in a world that answers as relied on
(`Solver.run_keeps`).
-/

set_option autoImplicit false

namespace BoxNewton

open Dialogue (Contract keeps_free)

variable {α : Type} [Scalar α] {S : Subsolver α} {n : Nat} {σ : Type}

namespace Setting

variable {c : Contract (Query α n) Query.Reply σ} {s : σ} {trial : Vec α n → Prop}
  {st : Setting α n} {p : Progress α S n}

/-! ## Between two iterations -/

/-- The reasons to stop that a state of the minimization can give, with what each of them says. -/
inductive Verdict (st : Setting α n) (p : Progress α S n) : Status → Prop where
  | firstOrder (reached : p.stationarity ≤ st.tolerance) : Verdict st p .firstOrder
  | unbounded (below : p.value < st.floor) : Verdict st p .unbounded
  | maxEvaluations : Verdict st p .maxEvaluations
  | maxTime : Verdict st p .maxTime
  | maxIterations : Verdict st p .maxIterations
  | unknown (iterations : p.iteration < st.options.maxIterations)
      (evaluations : 0 ≤ st.options.maxEvaluations →
        (p.evaluations.objective : Int) ≤ st.options.maxEvaluations) : Verdict st p .unknown

/-- A verdict is one of the reasons, and no question but the one for the time is asked for it. -/
theorem verdict_gives (clock : ∀ limit, c.Allows s (.outOfTime limit)) :
    (st.verdict p).Keeps c (fun status s' => s' = s ∧ st.Verdict p status) s := by
  unfold verdict
  split
  · rename_i reached
    exact ⟨rfl, .firstOrder reached⟩
  · split
    · rename_i below
      exact ⟨rfl, .unbounded below⟩
    · split
      · exact ⟨rfl, .maxEvaluations⟩
      · rename_i within
        refine ⟨(clock _).1, ?_⟩
        intro late relied
        have same := (clock _).2 late relied
        cases late with
        | true => exact ⟨same, .maxTime⟩
        | false =>
            change (if st.options.maxIterations ≤ p.iteration then pure Status.maxIterations
              else pure Status.unknown : SolverDialogue α n Status).Keeps c _ _
            split
            · exact ⟨same, .maxIterations⟩
            · rename_i further
              refine ⟨same, .unknown (not_le.1 further) fun limited => ?_⟩
              exact not_lt.1 fun beyond => within ⟨limited, beyond⟩

/-- A minimization whose verdict is a stationary point has reached the tolerance. -/
theorem verdict_keeps (clock : ∀ limit, c.Allows s (.outOfTime limit)) :
    (st.verdict p).Keeps c
      (fun status s' => s' = s ∧ (status = .firstOrder → p.stationarity ≤ st.tolerance)) s := by
  refine (verdict_gives clock).mono ?_
  rintro status s' ⟨same, verdict⟩
  refine ⟨same, ?_⟩
  rintro rfl
  cases verdict with
  | firstOrder reached => exact reached

/-- An iteration ends at the observer. -/
theorem conclude_keeps {post : Progress α S n → σ → Prop}
    (clock : ∀ limit, c.Allows s (.outOfTime limit)) (ratio : α)
    (shown : ∀ status, (status = .firstOrder → p.stationarity ≤ st.tolerance) →
      (st.checkpoint { p with iteration := p.iteration + 1, status }).Keeps c post s) :
    (st.conclude p ratio).Keeps c post s := by
  unfold conclude
  refine (verdict_keeps clock).bind ?_
  rintro status s' ⟨same, reached⟩
  subst same
  simp only [Dialogue.keeps_bind, Dialogue.keeps_remarkWhen]
  exact shown status reached

/-- **From one iteration to a run.** What an iteration that halts keeps, and every call of the observer
keeps after an iteration, the loop keeps. -/
theorem loop_rule (invariant : Progress α S n → σ → Prop)
    (permits : ∀ p s, invariant p s → PermitsIteration c s p.x trial) (lands : st.Lands S trial)
    (clock : ∀ s limit, c.Allows s (.outOfTime limit))
    (halts : ∀ p p' s, invariant p s → st.Iterates c s trial p (.halted p') → invariant p' s)
    (shown : ∀ p p' ratio s status, invariant p s → st.Iterates c s trial p (.judged p' ratio) →
      (status = .firstOrder → p'.stationarity ≤ st.tolerance) →
        (st.checkpoint { p' with iteration := p'.iteration + 1, status }).Keeps c invariant s) :
    ∀ (fuel : Nat) (p : Progress α S n) (s : σ), invariant p s →
      (st.loop fuel p).Keeps c invariant s := by
  intro fuel
  induction fuel with
  | zero =>
      intro p s here
      unfold loop
      split
      · exact here
      · trivial
  | succ fuel ih =>
      intro p s here
      unfold loop
      split
      · exact here
      · refine (iterate_keeps (permits p s here) lands).bind ?_
        rintro turn s' ⟨same, iterates⟩
        subst same
        cases turn with
        | halted p' => exact halts p p' s' here iterates
        | judged p' ratio =>
            have ends := conclude_keeps (clock s') ratio fun status reached =>
              shown p p' ratio s' status here iterates reached
            exact ends.bind ih

/-- The rule for invariants that do not mention the region. -/
theorem loop_keeps (invariant : Progress α S n → σ → Prop)
    (permits : ∀ p s, invariant p s → PermitsIteration c s p.x trial) (lands : st.Lands S trial)
    (clock : ∀ s limit, c.Allows s (.outOfTime limit))
    (halts : ∀ p p' s, invariant p s → p.Stands p' →
      p'.status = .smallStep ∨ p'.status = .noPredictedDecrease → invariant p' s)
    (shown : ∀ p p' s status, invariant p s → p.Stands p' ∨ st.Moves c s trial p p' →
      (status = .firstOrder → p'.stationarity ≤ st.tolerance) →
        (st.checkpoint { p' with iteration := p'.iteration + 1, status }).Keeps c invariant s) :
    ∀ (fuel : Nat) (p : Progress α S n) (s : σ), invariant p s →
      (st.loop fuel p).Keeps c invariant s := by
  refine loop_rule invariant permits lands clock ?_ ?_
  · intro p p' s here iterates
    cases iterates.outcome with
    | halted _ stands status => exact halts p p' s here stands status
  · intro p p' ratio s status here iterates reached
    cases iterates.outcome with
    | rejected _ _ stands low => exact shown p p' s status here (.inl stands) reached
    | accepted _ _ moves high => exact shown p p' s status here (.inr moves) reached

end Setting

/-! ## The start -/

/-- What is known when the first point is shown. -/
structure Setting.Opens (st : Setting α n) (c : Contract (Query α n) Query.Reply σ) (s : σ)
    (options : Options α) (box : Box α n) (start : Vec α n) (p : Progress α S n) : Prop where
  sameOptions : st.options = options
  sameBox : st.box = box
  x : p.x = box.project start
  value : ValueAt c s p.x p.value
  g : GradientAt c s p.x p.g
  stationarity : p.stationarity = stationarityAt box p.x p.g
  tolerance : st.tolerance =
    options.absoluteTolerance + options.relativeTolerance * stationarityAt box p.x p.g
  reached : p.status = .firstOrder → p.stationarity ≤ st.tolerance
  region : ∃ idle : TrustRegion α,
    p.state.region = idle.start options.region (startRadius p.stationarity)

section Start

variable {c : Contract (Query α n) Query.Reply σ} {s : σ} {options : Options α} {box : Box α n}
  {start : Vec α n}

omit [Scalar α] in
theorem askStart_keeps {x : Vec α n} (value : c.Allows s (.value x))
    (gradient : ∀ out, c.Allows s (.gradient x out))
    (both : ∀ out, c.Allows s (.valueGradient x out)) (out : Vec α n) :
    (askStart options x out).Keeps c
      (fun found s' => s' = s ∧ ValueAt c s x found.1 ∧ GradientAt c s x found.2) s := by
  unfold askStart
  split
  · exact ⟨(both out).1, fun a relied =>
      ⟨(both out).2 a relied, .inr ⟨_, _, relied⟩, .inr ⟨_, _, relied⟩⟩⟩
  · refine ⟨value.1, ?_⟩
    intro fx relied
    rw [value.2 fx relied]
    exact ⟨(gradient out).1, fun g answered =>
      ⟨(gradient out).2 g answered, .inl relied, .inl ⟨_, answered⟩⟩⟩

/-- A minimization starts at the projected point, and its first point is shown there. -/
theorem SolverState.begin_keeps (state : SolverState α S n) (fuel : Nat)
    {post : Setting α n × Progress α S n → σ → Prop}
    {trial : Vec α n → Prop} (permits : PermitsIteration c s (box.project start) trial)
    (here : trial (box.project start)) (clock : ∀ limit, c.Allows s (.outOfTime limit))
    (shown : ∀ (st : Setting α n) (p : Progress α S n), st.Opens c s options box start p →
      (st.checkpoint p).Keeps c (fun p' s' => post (st, p') s') s) :
    (state.begin options box start fuel).Keeps c post s := by
  unfold begin
  simp only [Dialogue.keeps_bind, Dialogue.keeps_remarkWhen, Dialogue.keeps_remark]
  refine (askStart_keeps (permits.value _ here) (fun out => permits.gradient _ out here)
    (fun out => permits.valueGradient _ out here) _).mono ?_
  rintro found s' ⟨same, fx, g⟩
  subst same
  refine (Setting.verdict_keeps clock).mono ?_
  rintro status s' ⟨same, reached⟩
  subst same
  exact (shown _ _ ⟨rfl, rfl, rfl, fx, g, rfl, rfl, reached, _, rfl⟩).mono fun _ _ here => here

end Start

/-! ## The checks -/

namespace Checked

variable {β γ : Type} (next : β → Checked α S γ) (loan : Loan α S)

omit [Scalar α] in
@[simp] theorem run_get (next : Loan α S → Checked α S γ) :
    (get >>= next).run loan = (next loan).run loan := rfl

omit [Scalar α] in
/-- A check that passes leaves the loan as it was. -/
@[simp] theorem run_ok (b : β) :
    (MonadExcept.ofExcept (.ok b) >>= next).run loan = (next b).run loan := rfl

omit [Scalar α] in
/-- Nothing comes after a check that fails. -/
@[simp] theorem run_error (e : SolveError) :
    (MonadExcept.ofExcept (.error e) >>= next).run loan = (.error e, loan) := rfl

end Checked

theorem Problem.start?_error {p : Problem α} {dom : Domain α} {x : Array α} {error : ProblemError}
    (wrong : p.error? dom x.size = some error) : p.start? dom x = .error error := by
  unfold start?
  split
  · rename_i error' wrong'
    cases wrong.symm.trans wrong'
    rfl
  · rename_i sound
    cases wrong.symm.trans sound

theorem Problem.start?_ok {p : Problem α} {dom : Domain α} {start : Vec α dom.dim}
    (sound : p.error? dom start.toArray.size = none) : p.start? dom start.toArray = .ok start := by
  unfold start?
  split
  · rename_i error wrong
    cases sound.symm.trans wrong
  · rfl

theorem Options.checked?_error {o : Options α} {fault : OptionFault} (wrong : o.fault? = some fault) :
    o.checked? = .error fault := by
  rw [checked?, wrong]

theorem Options.checked?_ok {o : Options α} (usable : o.fault? = none) : o.checked? = .ok o := by
  rw [checked?, usable]

/-- The ways in which a minimization is refused or made. -/
inductive Solver.Starts (solver : Solver α S) (p : Problem α) (dom : Domain α) (x : Array α) (fuel : Nat) :
    Except (Refused (Loan α S)) (SolverDialogue α dom.dim (Minimum α S dom.dim)) → Prop where
  | problem (error : ProblemError) (wrong : p.error? dom x.size = some error) :
      Starts solver p dom x fuel (.error ⟨.problem error, ⟨solver, x⟩⟩)
  | options (fault : OptionFault) (sound : p.error? dom x.size = none)
      (wrong : solver.options.fault? = some fault) :
      Starts solver p dom x fuel (.error ⟨.options fault, ⟨solver, x⟩⟩)
  | made (start : Vec α dom.dim) (sound : p.error? dom x.size = none)
      (usable : solver.options.fault? = none) (same : start.toArray = x) :
      Starts solver p dom x fuel
        (.ok ((solver.state.resize dom.dim).minimize solver.options dom.box start fuel))

/-- **What the checks can do.** The minimizer is changed only when all of them have passed. -/
theorem Solver.solve_starts (solver : Solver α S) (p : Problem α) (dom : Domain α) (x : Array α)
    (fuel : Nat) : solver.Starts p dom x fuel (solver.solve p dom x fuel) := by
  unfold solve prepare
  cases checked : p.error? dom x.size with
  | some error =>
      simp only [Checked.run_get, Problem.start?_error checked, Except.mapError, Checked.run_error]
      exact .problem error checked
  | none =>
      obtain ⟨start, rfl⟩ : ∃ start : Vec α dom.dim, start.toArray = x :=
        ⟨⟨x, Problem.dim_eq_of_error?_eq_none checked⟩, rfl⟩
      simp only [Checked.run_get, Problem.start?_ok checked, Except.mapError, Checked.run_ok]
      cases faulty : solver.options.fault? with
      | some fault =>
          simp only [Options.checked?_error faulty, Checked.run_error]
          exact .options fault checked faulty
      | none =>
          simp only [Options.checked?_ok faulty, Checked.run_ok]
          exact .made start checked faulty rfl

/-! ## Whole minimizations -/

section Runs

/-- A checked minimization has usable options and starts where it was told to. -/
theorem Solver.solve_ok {solver : Solver α S} {p : Problem α} {dom : Domain α} {x : Array α}
    {fuel : Nat} {d : SolverDialogue α dom.dim (Minimum α S dom.dim)}
    (made : solver.solve p dom x fuel = .ok d) : solver.options.fault? = none ∧
      ∃ start : Vec α dom.dim, start.toArray = x ∧
        d = (solver.state.resize dom.dim).minimize solver.options dom.box start fuel := by
  have starts := solver.solve_starts p dom x fuel
  rw [made] at starts
  cases starts with
  | made start sound usable same => exact ⟨usable, start, same, rfl⟩

/-- A refusal hands back what was lent. -/
theorem Solver.solve_refused {solver : Solver α S} {p : Problem α} {dom : Domain α} {x : Array α}
    {fuel : Nat} {refused : Refused (Loan α S)}
    (refusal : solver.solve p dom x fuel = .error refused) : refused.left = ⟨solver, x⟩ := by
  have starts := solver.solve_starts p dom x fuel
  rw [refusal] at starts
  cases starts with
  | problem error wrong => rfl
  | options fault sound wrong => rfl

/-- What passes the checks is minimized. -/
theorem Solver.solve_eq (solver : Solver α S) (p : Problem α) (dom : Domain α) (start : Vec α dom.dim)
    (fuel : Nat) (sound : p.error? dom start.toArray.size = none)
    (usable : solver.options.fault? = none) : solver.solve p dom start.toArray fuel =
      .ok ((solver.state.resize dom.dim).minimize solver.options dom.box start fuel) := by
  have starts := solver.solve_starts p dom start.toArray fuel
  generalize solver.solve p dom start.toArray fuel = result at starts ⊢
  cases starts with
  | problem error wrong => cases sound.symm.trans wrong
  | options fault _ wrong => cases usable.symm.trans wrong
  | made start' _ _ same => rw [Vector.toArray_inj.1 same]

/-- What a minimization keeps from every start of the right dimension, a checked one keeps. -/
theorem Solver.solve_keeps {solver : Solver α S} {p : Problem α} {dom : Domain α} {x : Array α}
    {fuel : Nat} {c : Contract (Query α dom.dim) Query.Reply σ}
    {post : Minimum α S dom.dim → σ → Prop} {s : σ}
    {d : SolverDialogue α dom.dim (Minimum α S dom.dim)}
    (kept : ∀ start : Vec α dom.dim, start.toArray = x →
      ((solver.state.resize dom.dim).minimize solver.options dom.box start fuel).Keeps c post s)
    (made : solver.solve p dom x fuel = .ok d) : d.Keeps c post s := by
  obtain ⟨-, start, same, rfl⟩ := solve_ok made
  exact kept start same

/-- A run that ends is the run of a checked minimization. -/
theorem Solver.run_ok {ω : Type} {solver : Solver α S} {p : Problem α} {dom : Domain α} {x : Array α}
    {observer : Observer α ω} {clock : Clock ω} {fuel : Nat} {w : ω}
    {solution : Solution α S ω dom.dim}
    (ran : solver.run p dom x observer clock fuel w = .ok (.ok solution)) :
    ∃ d found, solver.solve p dom x fuel = .ok d ∧
      d.run (p.objective.answer observer clock) w {} =
        .ok (found, solution.world, solution.transcript) ∧
      found.x.toArray = solution.x ∧ found.report = solution.report ∧
      solution.solver = ⟨solver.options, dom.dim, found.state⟩ := by
  unfold run at ran
  split at ran
  · cases ran
  · rename_i d made
    cases went : d.run (p.objective.answer observer clock) w {} with
    | error stop => simp [went, bind, Except.bind] at ran
    | ok result =>
        simp only [went, bind, Except.bind] at ran
        cases ran
        exact ⟨d, _, made, went, rfl, rfl, rfl⟩

/-- **A run of a checked minimization.** What the minimization keeps holds of the questions that were
asked and of the solution, in every world that answers as relied on. -/
theorem Solver.run_keeps {ω : Type} {solver : Solver α S} {p : Problem α} {dom : Domain α}
    {x : Array α} {observer : Observer α ω} {clock : Clock ω} {fuel : Nat} {w : ω}
    {solution : Solution α S ω dom.dim} {c : Contract (Query α dom.dim) Query.Reply σ}
    {post : Minimum α S dom.dim → σ → Prop} (related : σ → ω → Prop) {s : σ}
    (kept : ∀ d, solver.solve p dom x fuel = .ok d → d.Keeps c post s)
    (relied : ∀ q s w a w', related s w → p.objective.answer observer clock q w = .ok (a, w') →
      c.relies s q a ∧ related (c.next s q a) w')
    (start : related s w)
    (ran : solver.run p dom x observer clock fuel w = .ok (.ok solution)) :
    (∀ q ∈ solution.transcript.asked, ∃ s, c.promises s q) ∧
      ∃ found s', related s' solution.world ∧ post found s' ∧ found.x.toArray = solution.x ∧
        found.report = solution.report ∧
        solution.solver = ⟨solver.options, dom.dim, found.state⟩ := by
  obtain ⟨d, found, made, went, same, report, after⟩ := run_ok ran
  obtain ⟨asked, s', relates, last⟩ :=
    (kept d made).run related relied start (fun q none => by simp at none) went
  exact ⟨asked, found, s', relates, last, same, report, after⟩

/-- A run in a world whose answers do not change comes to what the minimization comes to. -/
theorem Solver.run_of_eval {ω : Type} {solver : Solver α S} {p : Problem α} {dom : Domain α}
    {x : Array α} {observer : Observer α ω} {clock : Clock ω} {fuel : Nat}
    {answer : (q : Query α dom.dim) → q.Reply}
    (answers : ∀ q w, p.objective.answer observer clock q w = .ok (answer q, w))
    {d : SolverDialogue α dom.dim (Minimum α S dom.dim)} (made : solver.solve p dom x fuel = .ok d)
    {found : Minimum α S dom.dim} (ended : d.eval answer = some found) (w : ω) :
    ∃ transcript, solver.run p dom x observer clock fuel w =
      .ok (.ok ⟨⟨solver.options, dom.dim, found.state⟩, found.x.toArray, found.report, w,
        transcript⟩) := by
  obtain ⟨transcript, went⟩ := Dialogue.run_of_eval answers ended w {}
  refine ⟨transcript, ?_⟩
  simp only [run, made, went, bind, Except.bind]
  rfl

/-- A question for the value at a point. -/
def Query.AsksValueAt (q : Query α n) (x : Vec α n) : Prop :=
  q = .value x ∨ ∃ out, q = .valueGradient x out

/-- A minimization first asks for the value at the projected start. -/
theorem SolverState.minimize_first? (state : SolverState α S n) (options : Options α) (box : Box α n)
    (start : Vec α n) (fuel : Nat) : ∃ q, (state.minimize options box start fuel).first? = some q ∧
      q.AsksValueAt (box.project start) := by
  have asks : ∃ q, (askStart options (box.project start) state.buffers.gradient).first? = some q ∧
      q.AsksValueAt (box.project start) := by
    unfold askStart
    split
    · exact ⟨_, rfl, .inr ⟨_, rfl⟩⟩
    · exact ⟨_, rfl, .inl rfl⟩
  obtain ⟨q, first, here⟩ := asks
  refine ⟨q, Dialogue.first?_bind ?_ _, here⟩
  unfold begin
  cases decide (box.Moves start) with
  | false => exact Dialogue.first?_bind first _
  | true => exact Dialogue.first?_bind first _

/-- A run asks for the value at its projected starting point before anything else. -/
theorem Solver.run_starts {ω : Type} {solver : Solver α S} {p : Problem α} {dom : Domain α}
    {x : Array α} {observer : Observer α ω} {clock : Clock ω} {fuel : Nat} {w : ω}
    {solution : Solution α S ω dom.dim}
    (ran : solver.run p dom x observer clock fuel w = .ok (.ok solution)) :
    ∃ (start : Vec α dom.dim) (q : Query α dom.dim) (later : List (Query α dom.dim)),
      start.toArray = x ∧ solution.transcript.asked.toList = q :: later ∧
        q.AsksValueAt (dom.box.project start) := by
  obtain ⟨d, found, made, went, -, -, -⟩ := run_ok ran
  obtain ⟨-, start, same, rfl⟩ := solve_ok made
  obtain ⟨q, first, here⟩ := SolverState.minimize_first? (solver.state.resize dom.dim) solver.options
    dom.box start fuel
  obtain ⟨later, asked⟩ := Dialogue.run_first? first went
  exact ⟨start, q, later, same, asked, here⟩

/-- What passes a check among the solutions of a run is its solution. -/
theorem exists_solution_of_any {A E : Type} {ran : Except Dialogue.Stop (Except E A)}
    {check : A → Bool} (passes : (ran.toOption.bind Except.toOption).any check = true) :
    ∃ solution, ran = .ok (.ok solution) ∧ check solution = true := by
  match ran with
  | .error _ => cases passes
  | .ok (.error _) => cases passes
  | .ok (.ok solution) => exact ⟨solution, rfl, passes⟩

end Runs

end BoxNewton
