import Mathlib
import BoxNewton.Proofs.Chronicle
import BoxNewton.Proofs.EvaluationLog

/-!
# Budgets

The limits on iterations and on evaluations of the objective are tested between two iterations, so a
minimization that starts an iteration has room for it, and one iteration makes one evaluation. This holds
as long as the observer does not take back a reason to stop (`Query.stopping`): an observer that sets the
status to "unknown" again sends a minimization into another iteration, whatever its budget.

The invariant of a run has the chronicle beside the counters (`Setting.Keeping`): so many iterations, one
evaluation more than iterations, one call of the observer more than iterations, and as many inner
iterations as there were in all refinements. An iteration that ends because no decrease is predicted is
not counted as an iteration, but its trial evaluation and its refinement are (`Turn.isRefused`).
-/

set_option autoImplicit false

namespace BoxNewton

open Dialogue (Contract)

variable {α : Type} [Scalar α] {S : Subsolver α} {n : Nat}

/-! ## What is counted -/

section Counts

omit [Scalar α]

/-- Whether an iteration ended because no decrease was predicted. -/
def Turn.isRefused : Turn α S n → Bool
  | .halted p => decide (p.status = .noPredictedDecrease)
  | .judged _ _ => false

/-- Whether the last iteration ended because no decrease was predicted. -/
def endsRefused (episodes : List (Episode α S n)) : Bool :=
  episodes.getLast?.any fun e => e.turn.isRefused

/-- A report is within the budgets and counts the episodes that led to it and the calls of the
observer. -/
structure Report.KeepsBudgets (report : Report α) (o : Options α) (episodes : List (Episode α S n))
    (calls : Nat) : Prop where
  iterations : report.iteration ≤ o.maxIterations
  evaluations : 0 ≤ o.maxEvaluations →
    (report.evaluations.objective : Int) ≤ o.maxEvaluations + 1
  observed : calls = report.iteration + 1
  accepted : report.acceptedSteps ≤ report.iteration
  evaluated : report.evaluations.objective = report.iteration + 1 + (endsRefused episodes).toNat
  inner : report.innerIterations = (episodes.map Episode.innerIterations).sum

/-- Neither budget is used up. -/
structure Progress.HasRoom (p : Progress α S n) (o : Options α) : Prop where
  iterations : p.iteration < o.maxIterations
  evaluations : 0 ≤ o.maxEvaluations → (p.evaluations.objective : Int) ≤ o.maxEvaluations

theorem endsRefused_append (episodes : List (Episode α S n)) (e : Episode α S n) :
    endsRefused (episodes ++ [e]) = e.turn.isRefused := by
  rw [endsRefused, List.getLast?_concat, Option.any_some]

theorem sum_innerIterations_append (episodes : List (Episode α S n)) (e : Episode α S n) :
    ((episodes ++ [e]).map Episode.innerIterations).sum =
      (episodes.map Episode.innerIterations).sum + e.innerIterations := by
  rw [List.map_append, List.sum_append, List.map_singleton, List.sum_singleton]

/-- Whether a question is one to the observer. -/
def Query.isObserve : Query α n → Bool
  | observe _ _ _ => true
  | _ => false

/-- The number of calls of the observer after a question. -/
def Query.countObserver (calls : Nat) (q : Query α n) : Nat := calls + q.isObserve.toNat

theorem foldl_countObserver (asked : List (Query α n)) (calls : Nat) :
    asked.foldl Query.countObserver calls = calls + asked.countP Query.isObserve := by
  induction asked generalizing calls with
  | nil => rfl
  | cons q asked ih =>
      rw [List.foldl_cons, ih, List.countP_cons, Query.countObserver]
      cases q.isObserve with
      | true => exact Nat.add_right_comm calls 1 _
      | false => rfl

/-- The contract with an observer that does not take back a reason to stop. Recorded is how often it was
called. -/
def Query.stopping : Contract (Query α n) Query.Reply Nat where
  promises _ _ := True
  relies _ q a := match q, a with
    | .observe _ _ report, seen => seen.status = .unknown → report.status = .unknown
    | _, _ => True
  next calls q _ := q.countObserver calls

theorem Query.permits_stopping (calls : Nat) (x : Vec α n) (trial : Vec α n → Prop) :
    PermitsIteration Query.stopping calls x trial where
  product _ _ := ⟨trivial, fun _ _ => rfl⟩
  value _ _ := ⟨trivial, fun _ _ => rfl⟩
  gradient _ _ _ := ⟨trivial, fun _ _ => rfl⟩
  valueGradient _ _ _ := ⟨trivial, fun _ _ => rfl⟩

theorem Query.clock_stopping (calls : Nat) (limit : Float) :
    (Query.stopping : Contract (Query α n) Query.Reply Nat).Allows calls (.outOfTime limit) :=
  ⟨trivial, fun _ _ => rfl⟩

/-! ## One iteration -/

/-- One evaluation for an iteration, whatever else it asks for. -/
theorem Evaluations.after_iteration (e : Evaluations) (combined : Bool) (products gradients : Nat) :
    (e.after (iterationCalls combined products gradients)).objective = e.objective + 1 := by
  rw [iterationCalls, after_append, after_products, ← List.singleton_append, after_append,
    after_value, after_gradients]

/-- The counters after an iteration that halts. -/
theorem Turn.Logged.counts_of_halted {combined : Bool} {p p' : Progress α S n} {log log' : List (Event α)}
    (logged : Turn.Logged combined p log (.halted p') log') :
    p'.iteration = p.iteration ∧ p'.acceptedSteps = p.acceptedSteps ∧
      p'.evaluations.objective =
        p.evaluations.objective + (Turn.halted p').isRefused.toNat := by
  cases logged with
  | underflow products _ _ source status made =>
      refine ⟨made.iteration, made.steps, ?_⟩
      rw [made.counted, Evaluations.after_products, Turn.isRefused, status]
      rfl
  | flat products _ _ source status made =>
      refine ⟨made.iteration, made.steps, ?_⟩
      rw [made.counted, Evaluations.after_iteration, Turn.isRefused, status]
      rfl

/-- The counters after an iteration whose step was judged. -/
theorem Turn.Logged.counts_of_judged {combined : Bool} {p p' : Progress α S n} {ratio : α}
    {log log' : List (Event α)} (logged : Turn.Logged combined p log (.judged p' ratio) log') :
    p'.iteration = p.iteration ∧ p'.acceptedSteps ≤ p.acceptedSteps + 1 ∧
      p'.evaluations.objective = p.evaluations.objective + 1 := by
  cases logged with
  | judged products gradients accepted _ _ _ source most fetched made =>
      refine ⟨made.iteration, ?_, ?_⟩
      · rw [made.steps]
        exact Nat.add_le_add_left accepted.toNat_le _
      · rw [made.counted, Evaluations.after_iteration]

end Counts

/-! ## The invariant of a run -/

/-- The counters are those of the episodes so far, and a minimization that goes on has room for another
iteration. -/
structure Setting.Keeping (st : Setting α n) (episodes : List (Episode α S n)) (p : Progress α S n)
    (calls : Nat) : Prop where
  budgets : p.report.KeepsBudgets st.options episodes calls
  room : p.status = .unknown → p.HasRoom st.options
  going : p.status = .unknown → endsRefused episodes = false

namespace Setting

variable {st : Setting α n} {p : Progress α S n} {episodes : List (Episode α S n)} {calls : Nat}

/-- Without a reason to stop there is room for another iteration. -/
theorem verdict_room {σ : Type} {c : Contract (Query α n) Query.Reply σ} {s : σ}
    (clock : ∀ limit, c.Allows s (.outOfTime limit)) :
    (st.verdict p).Keeps c
      (fun status s' => s' = s ∧ (status = .unknown → p.HasRoom st.options)) s := by
  refine (verdict_gives clock).mono ?_
  rintro status s' ⟨same, verdict⟩
  refine ⟨same, ?_⟩
  rintro rfl
  cases verdict with
  | unknown iterations evaluations => exact ⟨iterations, evaluations⟩

/-- The observer is called once. What it hands back goes on only if what it was shown did. -/
theorem checkpoint_keeping (budgets : p.report.KeepsBudgets st.options episodes (calls + 1))
    (room : p.status = .unknown → p.HasRoom st.options) (judged : endsRefused episodes = false) :
    (st.checkpoint p).Keeps Query.stopping (st.Keeping episodes) calls := by
  refine ⟨trivial, ?_⟩
  intro seen stops
  refine ⟨⟨budgets.iterations, budgets.evaluations, budgets.observed, budgets.accepted,
    budgets.evaluated, budgets.inner⟩, ?_, fun _ => judged⟩
  intro going
  have room := room (stops going)
  exact ⟨room.iterations, room.evaluations⟩

/-- An episode with its calls. -/
theorem iterateRecorded_logs (st : Setting α n) (p : Progress α S n) :
    (st.iterateRecorded p).Keeps .free (fun e _ =>
      ∃ log, e.turn.Logged st.options.combinedEvaluation p [] log) () := by
  have logs : (st.iterate p).Keeps (Query.logging true true)
      (fun turn log => turn.Logged st.options.combinedEvaluation p [] log) [] := iterate_logs st p
  rw [← iterateRecorded_turn, Dialogue.keeps_map] at logs
  exact logs.forget fun _ _ _ => trivial

section Iterations

variable {combined : Bool} {log log' : List (Event α)} {e : Episode α S n} {p' : Progress α S n}
  {ratio : α}

/-- Between two iterations there is one evaluation more than there are iterations. -/
theorem Keeping.evaluated (here : st.Keeping episodes p calls) (going : p.status = .unknown) :
    p.evaluations.objective = p.iteration + 1 := by
  have counted := here.budgets.evaluated
  rw [here.going going] at counted
  exact counted

/-- The inner iterations of one more episode. -/
theorem Keeping.inner (here : st.Keeping episodes p calls)
    (counted : p'.innerIterations = p.innerIterations + e.innerIterations) :
    p'.innerIterations = ((episodes ++ [e]).map Episode.innerIterations).sum := by
  have before : p.innerIterations = (episodes.map Episode.innerIterations).sum := here.budgets.inner
  rw [sum_innerIterations_append, ← before, counted]

/-- A minimization that ends within an iteration has kept the budgets. -/
theorem Keeping.halted (here : st.Keeping episodes p calls) (going : p.status = .unknown)
    (turn : e.turn = .halted p') (ended : p'.status ≠ .unknown)
    (logged : Turn.Logged combined p log (.halted p') log')
    (counted : p'.innerIterations = p.innerIterations + e.innerIterations) :
    st.Keeping (episodes ++ [e]) p' calls := by
  obtain ⟨iteration, steps, objective⟩ := logged.counts_of_halted
  have room := here.room going
  have evaluated := here.evaluated going
  refine ⟨⟨?_, ?_, ?_, ?_, ?_, here.inner counted⟩, fun still => absurd still ended,
    fun still => absurd still ended⟩
  · exact iteration.trans_le room.iterations.le
  · intro limited
    have within := room.evaluations limited
    have one := (Turn.halted p').isRefused.toNat_le
    simp only [Progress.report, objective]
    omega
  · exact here.budgets.observed.trans (congrArg (· + 1) iteration.symm)
  · simp only [Progress.report, iteration, steps]
    exact here.budgets.accepted
  · rw [endsRefused_append, turn]
    simp only [Progress.report, iteration, objective, evaluated]

/-- After a step was judged, the verdict is on the counters of the iteration that is over. -/
theorem Keeping.judged (here : st.Keeping episodes p calls) (going : p.status = .unknown)
    (turn : e.turn = .judged p' ratio) (logged : Turn.Logged combined p log (.judged p' ratio) log')
    (counted : p'.innerIterations = p.innerIterations + e.innerIterations) :
    (st.conclude p' ratio).Keeps Query.stopping (st.Keeping (episodes ++ [e])) calls := by
  obtain ⟨iteration, steps, objective⟩ := logged.counts_of_judged
  have room := here.room going
  have evaluated := here.evaluated going
  have observed : calls = p.iteration + 1 := here.budgets.observed
  have accepted : p.acceptedSteps ≤ p.iteration := here.budgets.accepted
  have last : endsRefused (episodes ++ [e]) = false := by
    rw [endsRefused_append, turn]
    rfl
  unfold conclude
  refine (verdict_room (Query.clock_stopping calls)).bind ?_
  rintro status calls' ⟨same, further⟩
  subst same
  simp only [Dialogue.keeps_bind, Dialogue.keeps_remarkWhen]
  refine checkpoint_keeping ⟨?_, ?_, ?_, ?_, ?_, here.inner counted⟩ ?_ last
  · simp only [Progress.report, iteration]
    exact room.iterations
  · intro limited
    have within := room.evaluations limited
    simp only [Progress.report, objective]
    omega
  · simp only [Progress.report, iteration, observed]
  · simp only [Progress.report, iteration]
    omega
  · rw [last]
    simp only [Progress.report, iteration, objective, evaluated, Bool.toNat_false]
  · intro still
    exact ⟨(further still).iterations, (further still).evaluations⟩

end Iterations

/-- **Every iteration keeps the budgets.** -/
theorem iterateRecorded_keeping (here : st.Keeping episodes p calls) (going : p.status = .unknown) :
    (st.iterateRecorded p).Keeps Query.stopping (fun e calls' =>
      (∀ p', e.turn = .halted p' → st.Keeping (episodes ++ [e]) p' calls') ∧
      ∀ p' ratio, e.turn = .judged p' ratio →
        (st.conclude p' ratio).Keeps Query.stopping (st.Keeping (episodes ++ [e])) calls')
      calls := by
  have recorded := iterateRecorded_keeps (Query.permits_stopping calls p.x _) (st.lands_anywhere S)
  refine ((recorded.and_free (st.iterateRecorded_logs p)).and_free
    (st.iterateRecorded_halts p)).mono ?_
  rintro ⟨start, assessment, turn⟩ calls' ⟨⟨⟨⟨same, -⟩, records⟩, log, logged⟩, halts⟩
  subst same
  constructor
  · rintro p' rfl
    exact here.halted going rfl (halts p' rfl) logged records.inner
  · rintro p' ratio rfl
    exact here.judged going rfl logged records.inner

end Setting

/-! ## Whole minimizations -/

/-- After the initial evaluation, the observer has been called once. -/
theorem SolverState.begin_keeping (state : SolverState α S n) (options : Options α) (box : Box α n)
    (start : Vec α n) (fuel : Nat) :
    (state.begin options box start fuel).Keeps Query.stopping
      (fun out calls => out.1.options = options ∧ out.1.Keeping [] out.2 calls) 0 := by
  unfold begin
  simp only [Dialogue.keeps_bind, Dialogue.keeps_remarkWhen, Dialogue.keeps_remark,
    Dialogue.keeps_pure]
  have permits := Query.permits_stopping 0 (box.project start) fun _ => True
  refine (askStart_keeps (permits.value _ trivial) (fun out => permits.gradient _ out trivial)
    (fun out => permits.valueGradient _ out trivial) _).mono ?_
  rintro found calls ⟨same, -, -⟩
  subst same
  refine (Setting.verdict_room (Query.clock_stopping 0)).mono ?_
  rintro status calls ⟨same, room⟩
  subst same
  have none : endsRefused ([] : List (Episode α S n)) = false := rfl
  refine (Setting.checkpoint_keeping ⟨Nat.zero_le _, ?_, rfl, le_rfl, rfl, rfl⟩ ?_ none).mono ?_
  · intro limited
    exact Int.le_add_of_nonneg_left limited
  · intro still
    exact ⟨(room still).iterations, (room still).evaluations⟩
  · exact fun p calls keeping => ⟨trivial, keeping⟩

theorem SolverState.minimizeRecorded_keepsBudgets (state : SolverState α S n) (options : Options α)
    (box : Box α n) (start : Vec α n) (fuel : Nat) :
    (state.minimizeRecorded options box start fuel).Keeps Query.stopping
      (fun out calls => out.2.report.KeepsBudgets options out.1 calls) 0 := by
  refine minimizeRecorded_keeps ((begin_keeping state options box start fuel).mono ?_)
  rintro ⟨st, p⟩ calls ⟨rfl, keeping⟩
  refine (Setting.opening_rule (fun episodes p calls => st.Keeping episodes p calls) ?_ fuel [] p
    calls keeping).mono ?_
  · intro before p calls here going
    exact Setting.iterateRecorded_keeping here going
  · intro out calls' ends _
    exact ends.budgets

/-- An observer that never sets a status back to "unknown". -/
def Observer.LeavesStops {α ω : Type} (observer : Observer α ω) : Prop :=
  ∀ x g report w, (observer.observe x g report w).1.2.2 = .unknown → report.status = .unknown

omit [Scalar α] in
/-- Such an observer answers as relied on. -/
theorem Observer.LeavesStops.relied {ω : Type} {o : Objective α} {observer : Observer α ω}
    {clock : Clock ω} (leaves : observer.LeavesStops) (calls : Nat) (q : Query α n) (w : ω)
    (a : q.Reply) (w' : ω) (answered : o.answer observer clock q w = .ok (a, w')) :
    Query.stopping.relies calls q a := by
  cases q with
  | observe x g report =>
      intro going
      apply leaves x.toArray g.toArray report w
      obtain ⟨y, g', status⟩ := a
      simp only at going
      subst going
      generalize observed : observer.observe x.toArray g.toArray report w = seen at answered ⊢
      obtain ⟨⟨xs, gs, status⟩, w''⟩ := seen
      simp only [Objective.answer, observed, bind, Except.bind] at answered
      split at answered
      · cases answered
      · split at answered
        · cases answered
        · cases answered
          rfl
  | value | gradient | valueGradient | product | outOfTime => trivial

/-- **Budgets.** A minimization whose observer never takes back a reason to stop makes at most as many
iterations as allowed and at most one evaluation of the objective more than allowed. It calls the observer
once more than it makes iterations, accepts at most as many steps, evaluates the objective once more, and
twice more if it ends because no decrease is predicted; and it counts the iterations of all refinements,
the last one included. This holds on every path that the answers can take and hence in every run. -/
theorem Solver.solve_keepsBudgets (solver : Solver α S) (p : Problem α) (dom : Domain α) (x : Array α)
    (fuel : Nat) :
    (∀ start : Vec α dom.dim,
      ((solver.state.resize dom.dim).minimizeRecorded solver.options dom.box start fuel).Keeps
        Query.stopping
        (fun out calls => out.2.report.KeepsBudgets solver.options out.1 calls) 0) ∧
    ∀ {ω : Type} (observer : Observer α ω) (clock : Clock ω) (w : ω)
      (solution : Solution α S ω dom.dim), observer.LeavesStops →
      solver.run p dom x observer clock fuel w = .ok (.ok solution) →
        ∃ episodes, solver.HasChronicle p dom x observer clock fuel w solution episodes ∧
          solution.report.KeepsBudgets solver.options episodes
            (solution.transcript.asked.toList.countP Query.isObserve) := by
  have kept := fun start : Vec α dom.dim => SolverState.minimizeRecorded_keepsBudgets
    (solver.state.resize dom.dim) solver.options dom.box start fuel
  refine ⟨kept, ?_⟩
  intro ω observer clock w solution leaves ran
  obtain ⟨episodes, start, found, atStart, went, sameX, sameReport, sameSolver⟩ :=
    exists_chronicle ran
  refine ⟨episodes, ⟨start, found, atStart, went, sameX, sameReport, sameSolver⟩, ?_⟩
  have counts : ∀ calls (q : Query α dom.dim) a,
      Query.stopping.next calls q a = Query.countObserver calls q := fun _ _ _ => rfl
  obtain ⟨asked, listed, -, ends⟩ := (kept start).run_record
    (fun calls q w a w' answered => leaves.relied calls q w a w' answered) counts went
  rw [foldl_countObserver, Nat.zero_add, ← List.nil_append asked] at ends
  rw [← sameReport, listed]
  exact ends

/-- The run of the sphere on a box: one iteration, whose step is accepted. -/
theorem solve_keepsBudgets_cappedSphere :
    ∃ solution, cappedSphereSolver.run cappedSphere cappedSphere.domain #[5] .silent
        .stopped 9 () = .ok (.ok solution) ∧ solution.report.iteration = 1 ∧
      ∃ episodes, cappedSphereSolver.HasChronicle cappedSphere cappedSphere.domain #[5] .silent
          .stopped 9 () solution episodes ∧
        solution.report.KeepsBudgets Options.standard episodes
          (solution.transcript.asked.toList.countP Query.isObserve) := by
  have budgets := cappedSphereSolver.solve_keepsBudgets cappedSphere cappedSphere.domain #[5] 9
  have ends : ((cappedSphereSolver.run cappedSphere cappedSphere.domain #[5] .silent
      .stopped 9 ()).toOption.bind Except.toOption).any (fun solution =>
        decide (solution.report.iteration = 1)) := by
    decide +kernel
  obtain ⟨solution, ran, once⟩ := exists_solution_of_any ends
  exact ⟨solution, ran, of_decide_eq_true once,
    budgets.2 .silent _ _ solution (fun _ _ _ _ same => same) ran⟩

end BoxNewton
