import Mathlib
import BoxNewton.Minimizer
import BoxNewton.Proofs.Budgets
import BoxNewton.Proofs.CurrentPoint
import BoxNewton.Proofs.Projection

/-!
# Stopping criteria

A criterion is asked by an observer that turns a "yes" into the status `user` and changes nothing else.
It may keep a state, so how often it was asked shows in the state of the world in the end (`Consultation`).
The clock is a part of the same world, and what it tells may change from one reading to the next.
Recorded along a minimization are the reports that the observer is shown and the statuses that it hands
back (`Query.consulting`). A minimization goes on only while the status handed back is "unknown", the
verdicts before never give the status `user`, and neither do the two ways of halting. So all but the last
answer are "no", there is one answer more than there are iterations, and the status at the end is `user`
if and only if the last answer is "yes" (`Report.Closes`).

A minimizer is made with a projected point, and every run ends at one. So the next run moves nothing
before it asks for the objective there, and the value in the last report is the one at the current point
(`Minimizer.Rests`), over any sequence of calls (`Minimizer.Reachable`). A call that is refused hands the
minimizer back as it was (`Minimizer.runUntil_error`).
-/

set_option autoImplicit false

namespace BoxNewton

open Dialogue (Contract)

variable {α : Type} {S : Subsolver α} {n : Nat}

/-! ## Consulting a criterion -/

section Consulting

variable {ω : Type}

/-- The criterion was asked about some reports, one after the other, and gave these answers. The clock may
have been read in between. -/
inductive Consultation (stop : Report α → ω → Bool × ω) (clock : Clock ω) (w : ω) :
    List (Report α × Bool) → ω → Prop where
  | unasked : Consultation stop clock w [] w
  | read {answers : List (Report α × Bool)} {w₁ w₂ : ω} {limit : Float} {late : Bool}
      (before : Consultation stop clock w answers w₁) (tells : clock.outOfTime limit w₁ = (late, w₂)) :
      Consultation stop clock w answers w₂
  | asked {answers : List (Report α × Bool)} {w₁ w₂ : ω} {report : Report α} {answer : Bool}
      (before : Consultation stop clock w answers w₁) (gives : stop report w₁ = (answer, w₂)) :
      Consultation stop clock w (answers ++ [(report, answer)]) w₂

/-- A criterion that always says "no" has said so each time. -/
theorem Consultation.no {stop : Report α → ω → Bool × ω} {clock : Clock ω} {w w' : ω}
    {answers : List (Report α × Bool)} (consulted : Consultation stop clock w answers w')
    (never : ∀ report w, (stop report w).1 = false) : ∀ answer ∈ answers, answer.2 = false := by
  induction consulted with
  | unasked => simp
  | read _ _ ih => exact ih
  | asked _ gives ih =>
      rename_i w₁ _ report answer _
      intro given member
      rcases List.mem_append.1 member with earlier | here
      · exact ih given earlier
      · have told := never report w₁
        rw [gives] at told
        rw [List.mem_singleton.1 here]
        exact told

/-- What the observer hands back for an answer of the criterion. -/
def handedBack (asked : Report α × Bool) : Report α × Status :=
  (asked.1, if asked.2 then .user else asked.1.status)

/-- The contract without promises, with the record of the reports that the observer was shown and of the
statuses that it handed back. -/
def Query.consulting : Contract (Query α n) Query.Reply (List (Report α × Status)) where
  promises _ _ := True
  relies _ _ _ := True
  next record q a := match q, a with
    | .observe _ _ report, seen => record ++ [(report, seen.status)]
    | _, _ => record

theorem Query.permits_consulting (record : List (Report α × Status)) (x : Vec α n)
    (trial : Vec α n → Prop) : PermitsIteration Query.consulting record x trial where
  product _ _ := ⟨trivial, fun _ _ => rfl⟩
  value _ _ := ⟨trivial, fun _ _ => rfl⟩
  gradient _ _ _ := ⟨trivial, fun _ _ => rfl⟩
  valueGradient _ _ _ := ⟨trivial, fun _ _ => rfl⟩

theorem Query.clock_consulting (record : List (Report α × Status)) (limit : Float) :
    (Query.consulting : Contract (Query α n) Query.Reply _).Allows record (.outOfTime limit) :=
  ⟨trivial, fun _ _ => rfl⟩

/-- The report comes after these exchanges with the observer: all but the last one left the minimization
going, and the last one decided on the status `user`. -/
structure Report.Closes (report : Report α) (before : List (Report α × Status))
    (last : Report α × Status) : Prop where
  length : before.length = report.iteration
  silent : ∀ exchange ∈ before, exchange.2 = .unknown
  shown : last.1.status ≠ .user
  user : report.status = .user ↔ last.2 = .user
  going : report.status = .unknown → last.2 = .unknown

/-- The record of a minimization that has reached this report. -/
def Report.Recorded (report : Report α) (record : List (Report α × Status)) : Prop :=
  ∃ before last, record = before ++ [last] ∧ report.Closes before last

/-- Where a minimization goes on, the observer has left it going each time. -/
theorem Report.Recorded.going {report : Report α} {record : List (Report α × Status)}
    (recorded : report.Recorded record) (unknown : report.status = .unknown) :
    record.length = report.iteration + 1 ∧ ∀ exchange ∈ record, exchange.2 = .unknown := by
  obtain ⟨before, last, rfl, closes⟩ := recorded
  refine ⟨?_, ?_⟩
  · rw [List.length_append, closes.length, List.length_singleton]
  · intro exchange member
    rcases List.mem_append.1 member with earlier | here
    · exact closes.silent exchange earlier
    · rw [List.mem_singleton.1 here]
      exact closes.going unknown

/-- Halting consults nobody, so the record of a minimization that went on is the one that it halts with. -/
theorem Report.Recorded.halts {report report' : Report α} {record : List (Report α × Status)}
    (recorded : report.Recorded record) (unknown : report.status = .unknown)
    (same : report'.iteration = report.iteration) (known : report'.status ≠ .unknown)
    (alone : report'.status ≠ .user) : report'.Recorded record := by
  obtain ⟨before, last, split, closes⟩ := recorded
  have handed : last.2 ≠ .user := by
    rw [closes.going unknown]
    nofun
  exact ⟨before, last, split, closes.length.trans same.symm, closes.silent, closes.shown,
    iff_of_false alone handed, fun unknown => absurd unknown known⟩

end Consulting

variable [Scalar α]

namespace Setting

variable {st : Setting α n} {p : Progress α S n} {record : List (Report α × Status)}

theorem Verdict.ne_user {status : Status} (verdict : st.Verdict p status) : status ≠ .user := by
  cases verdict <;> nofun

/-- The observer decides on the status to go on with. -/
theorem checkpoint_recorded (length : record.length = p.iteration)
    (silent : ∀ exchange ∈ record, exchange.2 = .unknown) (shown : p.status ≠ .user) :
    (st.checkpoint p).Keeps Query.consulting (fun p' record' => p'.report.Recorded record') record :=
  ⟨trivial, fun seen _ => ⟨record, (p.report, seen.status), rfl, length, silent, shown, Iff.rfl, id⟩⟩

theorem conclude_recorded (length : record.length = p.iteration + 1)
    (silent : ∀ exchange ∈ record, exchange.2 = .unknown) (ratio : α) :
    (st.conclude p ratio).Keeps Query.consulting (fun p' record' => p'.report.Recorded record')
      record := by
  unfold conclude
  refine (verdict_gives (Query.clock_consulting record)).bind ?_
  rintro status record' ⟨same, verdict⟩
  subst same
  simp only [Dialogue.keeps_bind, Dialogue.keeps_remarkWhen]
  exact checkpoint_recorded length silent verdict.ne_user

/-- **Every iteration goes on with the record.** An iteration that halts consults nobody. -/
theorem iterateRecorded_recorded (here : p.report.Recorded record) (going : p.status = .unknown) :
    (st.iterateRecorded p).Keeps Query.consulting (fun e record' =>
      (∀ p', e.turn = .halted p' → p'.report.Recorded record') ∧
      ∀ p' ratio, e.turn = .judged p' ratio →
        (st.conclude p' ratio).Keeps Query.consulting
          (fun p'' record'' => p''.report.Recorded record'') record') record := by
  have recorded := iterateRecorded_keeps (Query.permits_consulting record p.x _) (st.lands_anywhere S)
  obtain ⟨length, silent⟩ := here.going going
  refine (recorded.and_free (st.iterateRecorded_logs p)).mono ?_
  rintro ⟨start, assessment, turn⟩ record' ⟨⟨⟨same, iterates⟩, -⟩, log, logged⟩
  subst same
  constructor
  · rintro p' rfl
    obtain ⟨iteration, -, -⟩ := logged.counts_of_halted
    have halts : p'.status ≠ .unknown ∧ p'.status ≠ .user := by
      cases iterates.outcome with
      | halted _ _ status => rcases status with small | flat <;> simp [*]
    exact here.halts going iteration halts.1 halts.2
  · rintro p' ratio rfl
    obtain ⟨iteration, -, -⟩ := logged.counts_of_judged
    exact conclude_recorded (length.trans (congrArg (· + 1) iteration.symm)) silent ratio

end Setting

/-! ## Whole minimizations -/

namespace SolverState

variable (state : SolverState α S n) (options : Options α) (box : Box α n) (start : Vec α n) (fuel : Nat)

theorem begin_recorded :
    (state.begin options box start fuel).Keeps Query.consulting
      (fun out record => out.2.report.Recorded record) [] := by
  unfold begin
  simp only [Dialogue.keeps_bind, Dialogue.keeps_remarkWhen, Dialogue.keeps_remark,
    Dialogue.keeps_pure]
  have permits := Query.permits_consulting [] (box.project start) fun _ => True
  refine (askStart_keeps (permits.value _ trivial) (fun out => permits.gradient _ out trivial)
    (fun out => permits.valueGradient _ out trivial) _).mono ?_
  rintro found record ⟨same, -, -⟩
  subst same
  refine (Setting.verdict_gives (Query.clock_consulting [])).mono ?_
  rintro status record ⟨same, verdict⟩
  subst same
  exact Setting.checkpoint_recorded rfl (by simp) verdict.ne_user

/-- **From one iteration to a whole minimization.** -/
theorem minimize_recorded :
    (state.minimize options box start fuel).Keeps Query.consulting
      (fun found record => found.report.Recorded record) [] := by
  rw [← minimizeRecorded_found, Dialogue.keeps_map]
  refine minimizeRecorded_keeps ((begin_recorded state options box start fuel).mono ?_)
  rintro ⟨st, p⟩ record recorded
  refine (Setting.opening_rule (fun _ p record => p.report.Recorded record) ?_ fuel [] p record
    recorded).mono ?_
  · intro _ p record here going
    exact Setting.iterateRecorded_recorded here going
  · intro out record' ends _
    exact ends

end SolverState

/-- **Who decides on the status `user`.** Whatever is answered, and whatever status the observer hands back
each time. -/
theorem Solver.solve_recorded {solver : Solver α S} {p : Problem α} {dom : Domain α} {x : Array α}
    {fuel : Nat} {d : SolverDialogue α dom.dim (Minimum α S dom.dim)}
    (made : solver.solve p dom x fuel = .ok d) :
    d.Keeps Query.consulting (fun found record => found.report.Recorded record) [] :=
  solve_keeps (fun start _ => SolverState.minimize_recorded _ _ _ start fuel) made

section Runs

variable {ω : Type} {stop : Report α → ω → Bool × ω} {o : Objective α} {clock : Clock ω}

omit [Scalar α] in
/-- The record goes along with the answers of the criterion. -/
theorem Consultation.next {w w₁ w₂ : ω} {answers : List (Report α × Bool)}
    (before : Consultation stop clock w answers w₁) {q : Query α n} {a : q.Reply}
    (answered : o.answer (.until stop) clock q w₁ = .ok (a, w₂)) :
    ∃ answers', Consultation stop clock w answers' w₂ ∧
      Query.consulting.next (answers.map handedBack) q a = answers'.map handedBack := by
  cases q with
  | value | gradient | valueGradient | product =>
      have untouched : w₂ = w₁ := by
        simp only [Objective.answer, bind, Except.bind] at answered
        repeat' split at answered
        all_goals cases answered
        rfl
      exact ⟨answers, untouched ▸ before, rfl⟩
  | outOfTime limit =>
      simp only [Objective.answer, pure, Except.pure, Except.ok.injEq] at answered
      exact ⟨answers, before.read answered, rfl⟩
  | observe x g report =>
      obtain ⟨⟨answer, w'⟩, gives⟩ : ∃ given, stop report w₁ = given := ⟨_, rfl⟩
      simp only [Objective.answer, Observer.until, gives, Dialogue.liftM_ok, bind, Except.bind,
        Vec.ofArray?_toArray] at answered
      cases answered
      exact ⟨answers ++ [(report, answer)], before.asked gives, by simp [Query.consulting, handedBack]⟩

/-- The criterion was asked once for the start and once for each iteration of the report. It did not ask
for the end but in its last answer, and then, and only then, the report has the status `user`. -/
structure Report.EndsConsultation (report : Report α) (stop : Report α → ω → Bool × ω) (clock : Clock ω)
    (w w' : ω) (before : List (Report α × Bool)) (last : Report α × Bool) : Prop where
  consulted : Consultation stop clock w (before ++ [last]) w'
  length : before.length = report.iteration
  silent : ∀ answer ∈ before, answer.2 = false
  user : report.status = .user ↔ last.2 = true

omit [Scalar α] in
/-- A record that closes with a report, and is the one of a criterion, tells the answers. -/
theorem Report.Recorded.endsConsultation {report : Report α} {w w' : ω}
    {answers : List (Report α × Bool)} (consulted : Consultation stop clock w answers w')
    (recorded : report.Recorded (answers.map handedBack)) :
    ∃ before last, report.EndsConsultation stop clock w w' before last := by
  obtain ⟨exchanges, exchange, split, closes⟩ := recorded
  obtain ⟨before, rest, rfl, rfl, single⟩ := List.map_eq_append_iff.1 split
  obtain ⟨last, rfl, rfl⟩ := List.map_eq_singleton_iff.1 single
  refine ⟨before, last, consulted, ?_, ?_, ?_⟩
  · rw [← closes.length, List.length_map]
  · rintro ⟨shown, answer⟩ member
    have unknown := closes.silent _ (List.mem_map_of_mem member)
    cases answer with
    | false => rfl
    | true => cases unknown
  · rw [closes.user]
    obtain ⟨shown, answer⟩ := last
    cases answer with
    | false => exact iff_of_false closes.shown Bool.false_ne_true
    | true => exact iff_of_true rfl rfl

/-- **A run and its criterion.** -/
theorem Solver.run_consults {solver : Solver α S} {p : Problem α} {dom : Domain α} {x : Array α}
    {fuel : Nat} {w : ω} {solution : Solution α S ω dom.dim}
    (ran : solver.run p dom x (.until stop) clock fuel w = .ok (.ok solution)) :
    ∃ before last, solution.report.EndsConsultation stop clock w solution.world before last := by
  have relied : ∀ (q : Query α dom.dim) record w₁ a w₂,
      (∃ answers, Consultation stop clock w answers w₁ ∧ record = answers.map handedBack) →
        p.objective.answer (.until stop) clock q w₁ = .ok (a, w₂) →
          Query.consulting.relies record q a ∧ ∃ answers', Consultation stop clock w answers' w₂ ∧
            Query.consulting.next record q a = answers'.map handedBack := by
    rintro q record w₁ a w₂ ⟨answers, before, rfl⟩ answered
    exact ⟨trivial, before.next answered⟩
  obtain ⟨-, found, record, ⟨answers, consulted, same⟩, recorded, -, report, -⟩ :=
    run_keeps _ (fun _ made => solve_recorded made) relied ⟨[], .unasked, rfl⟩ ran
  rw [report, same] at recorded
  exact recorded.endsConsultation consulted

variable [Scalar.LawfulOrder α] {observer : Observer α ω} {solver : Solver α S} {p : Problem α}
  {dom : Domain α} {x : Array α} {fuel : Nat} {w : ω} {solution : Solution α S ω dom.dim}

/-- A run ends at a point that a projection does not move. -/
theorem Solver.run_holds (ran : solver.run p dom x observer clock fuel w = .ok (.ok solution))
    {y : Vec α dom.dim} (here : y.toArray = solution.x) : dom.box.Holds y := by
  have kept : ∀ d, solver.solve p dom x fuel = .ok d →
      d.Keeps dom.box.askedWithin (fun found _ => dom.box.Holds found.x) () := fun d made =>
    solve_keeps (fun start _ => SolverState.minimize_within _ _ _ start _) made
  obtain ⟨-, found, -, -, held, same, -, -⟩ := run_keeps (fun _ _ => True) kept
    (fun _ _ _ _ _ _ _ => ⟨trivial, trivial⟩) trivial ran
  obtain rfl := Vector.toArray_inj.1 (same.trans here.symm)
  exact held

/-- A run reports the value at the point that it ends at, if nobody moves the point. -/
theorem Solver.run_value {f : Vec α dom.dim → α} {f' : Vec α dom.dim → Vec α dom.dim}
    (computes : p.objective.Computes f f') (keeps : observer.KeepsPoint)
    (ran : solver.run p dom x observer clock fuel w = .ok (.ok solution)) :
    ∃ y : Vec α dom.dim, y.toArray = solution.x ∧ solution.report.objective = f y := by
  obtain ⟨d, -, made, -⟩ := run_ok ran
  obtain ⟨-, start, atStart, -⟩ := solve_ok made
  have kept : ∀ d, solver.solve p dom x fuel = .ok d → d.Keeps (dom.box.describing f f')
      (fun found quiet => found.Describes solver.options dom.box f f' start quiet) true := by
    refine fun d made => solve_keeps (fun start' same => ?_) made
    cases Vector.toArray_inj.1 (same.trans atStart.symm)
    exact SolverState.minimize_describes _ _ _ f f' _ _ true
  obtain ⟨-, found, quiet, -, describes, same, sameReport, -⟩ :=
    run_keeps (fun quiet _ => observer.KeepsStatus → quiet = true) kept
      (fun q quiet w a w' silent answered =>
        computes.relied keeps clock dom.box q quiet w a w' silent answered)
      (fun _ => rfl) ran
  exact ⟨found.x, same, sameReport ▸ describes.report.objective⟩

end Runs

/-! ## Sequences of calls -/

namespace Minimizer

variable {problem : Problem α} {settings : Settings α} {m m' : Minimizer α S}

/-- The minimizers for a problem, after any sequence of calls. A call hands a minimizer back whether it is
refused or not. -/
inductive Reachable (problem : Problem α) (settings : Settings α) : Minimizer α S → Prop where
  | built {m : Minimizer α S} (made : build? problem settings S = .ok m) : Reachable problem settings m
  | called {m m' : Minimizer α S} (before : Reachable problem settings m) {ω : Type}
      (stop : Report α → ω → Bool × ω) (clock : Clock ω) (fuel : Nat) (w : ω) {w' : ω}
      (found : m.runUntil stop clock fuel w = .ok (.ok (m', w'))) : Reachable problem settings m'
  | refused {m : Minimizer α S} (before : Reachable problem settings m) {ω : Type}
      (stop : Report α → ω → Bool × ω) (clock : Clock ω) (fuel : Nat) (w : ω)
      {refused : Refused (Minimizer α S)} (refusal : m.runUntil stop clock fuel w = .ok (.error refused)) :
      Reachable problem settings refused.left

/-- The current point is one that a projection does not move, and the last report tells the value there. -/
structure Rests (m : Minimizer α S) : Prop where
  held : ∀ x : Vec α m.problem.domain.dim, x.toArray = m.x → m.problem.domain.box.Holds x
  value : ∀ f f', m.problem.objective.Computes f f' → ∀ report ∈ m.report,
    ∃ x : Vec α m.problem.domain.dim, x.toArray = m.x ∧ report.objective = f x

/-- A call that is not refused is a run of the solver from the current point. -/
theorem runUntil_ok {ω : Type} {stop : Report α → ω → Bool × ω} {clock : Clock ω} {fuel : Nat}
    {w w' : ω} (ran : m.runUntil stop clock fuel w = .ok (.ok (m', w'))) :
    ∃ solution, m.solver.run m.problem m.problem.domain m.x (.until stop) clock fuel w =
        .ok (.ok solution) ∧ w' = solution.world ∧
      m' = { m with solver := solution.solver, x := solution.x, report := some solution.report } := by
  cases went : m.solver.run m.problem m.problem.domain m.x (.until stop) clock fuel w with
  | error reason => simp [runUntil, went, bind, Except.bind] at ran
  | ok result =>
      cases result with
      | error e => simp [runUntil, went, bind, Except.bind, pure, Except.pure] at ran
      | ok solution =>
          simp only [runUntil, went, bind, Except.bind, pure, Except.pure, Except.ok.injEq,
            Prod.mk.injEq] at ran
          exact ⟨solution, rfl, ran.2.symm, ran.1.symm⟩

/-- A call is refused with what is wrong before anything is asked, and hands the minimizer back as it was. -/
theorem runUntil_error {ω : Type} {stop : Report α → ω → Bool × ω} {clock : Clock ω}
    {fuel : Nat} {w : ω} {refused : Refused (Minimizer α S)} :
    m.runUntil stop clock fuel w = .ok (.error refused) ↔ refused.left = m ∧
      m.solver.solve m.problem m.problem.domain m.x fuel = .error ⟨refused.error, ⟨m.solver, m.x⟩⟩ := by
  unfold runUntil Solver.run
  cases made : m.solver.solve m.problem m.problem.domain m.x fuel with
  | error refusal =>
      obtain ⟨error, left⟩ := refusal
      cases Solver.solve_refused made
      obtain ⟨error', left'⟩ := refused
      simp only [bind, Except.bind, pure, Except.pure, Except.ok.injEq, Except.error.injEq,
        Refused.mk.injEq]
      constructor
      · rintro ⟨rfl, rfl⟩
        exact ⟨rfl, rfl, trivial⟩
      · rintro ⟨rfl, rfl, -⟩
        exact ⟨rfl, rfl⟩
  | ok d =>
      simp only [bind, Except.bind, reduceCtorEq, and_false, iff_false]
      cases d.run (m.problem.objective.answer (.until stop) clock) w {} with
      | error reason => nofun
      | ok found => nofun

/-- A run without a criterion is a call with one that always says "no". -/
theorem runUntil_of_run {clock : Clock Nat} {fuel : Nat}
    {result : Except (Refused (Minimizer α S)) (Minimizer α S)} (ended : m.run clock fuel = .ok result) :
    ∃ called, m.runUntil (fun _ asked => (false, asked)) clock fuel 0 = .ok called ∧
      called.map Prod.fst = result := by
  cases ran : m.runUntil (fun _ asked => (false, asked)) clock fuel 0 with
  | error reason => simp [run, ran, bind, Except.bind] at ended
  | ok called =>
      refine ⟨called, rfl, ?_⟩
      cases called with
      | error refused =>
          simp only [run, ran, bind, Except.bind, pure, Except.pure, Except.ok.injEq] at ended
          exact ended
      | ok after =>
          simp only [run, ran, bind, Except.bind, pure, Except.pure, Except.ok.injEq] at ended
          exact ended

/-- A minimizer starts at the given point, projected if it fits. -/
theorem build?_ok (made : build? problem settings S = .ok m) :
    ∃ solver x, m = { problem, solver, report := none
                      x := if x.size = problem.domain.dim then problem.domain.projectArray x else x } := by
  have stored : problem.domain? = .error .tooLarge ∨ problem.domain? = .ok problem.domain := by
    unfold Problem.domain? Domain.stored?
    split
    · exact .inr rfl
    · exact .inl rfl
  rcases stored with large | stored
  · simp [build?, large, Except.mapError, bind, Except.bind] at made
  · simp only [build?, stored, Except.mapError, bind, Except.bind] at made
    cases memory : settings.memory with
    | none =>
        rw [memory] at made
        cases made
        exact ⟨_, _, rfl⟩
    | some capacity =>
        rw [memory] at made
        cases learning : (Solver.new S settings.options problem.domain.dim).usingSecantMemory? capacity with
        | error fault => simp [learning] at made
        | ok solver =>
            simp only [learning] at made
            cases made
            exact ⟨_, _, rfl⟩

variable [Scalar.LawfulOrder α]

theorem build?_rests (made : build? problem settings S = .ok m) : m.Rests := by
  obtain ⟨solver, x, rfl⟩ := build?_ok made
  refine ⟨fun y here => ?_, nofun⟩
  by_cases fits : x.size = problem.domain.dim
  · obtain ⟨start, rfl⟩ : ∃ start : Vec α problem.domain.dim, start.toArray = x := ⟨⟨x, fits⟩, rfl⟩
    simp only [if_pos fits, Domain.projectArray_toArray] at here
    obtain rfl := Vector.toArray_inj.1 here
    exact Box.holds_project _ _
  · simp only [if_neg fits] at here
    exact absurd (here ▸ y.size_toArray) fits

/-- A run ends at a point that a projection does not move, and reports the value there. -/
theorem rests_of_run {ω : Type} {stop : Report α → ω → Bool × ω} {clock : Clock ω}
    {fuel : Nat} {w : ω} {solution : Solution α S ω m.problem.domain.dim}
    (ran : m.solver.run m.problem m.problem.domain m.x (.until stop) clock fuel w =
      .ok (.ok solution)) :
    ({ m with solver := solution.solver, x := solution.x, report := some solution.report } :
      Minimizer α S).Rests where
  held _ here := Solver.run_holds ran here
  value f f' computes report here := by
    cases here
    exact Solver.run_value computes (fun _ _ _ _ => ⟨_, _, rfl⟩) ran

/-- **The minimizer rests after every sequence of calls.** -/
theorem Reachable.rests (reachable : Reachable problem settings m) : m.Rests := by
  induction reachable with
  | built made => exact build?_rests made
  | called _ stop clock fuel w found _ =>
      obtain ⟨solution, went, -, rfl⟩ := runUntil_ok found
      exact rests_of_run went
  | refused _ stop clock fuel w refusal rests =>
      rw [(runUntil_error.1 refusal).1]
      exact rests

/-- A call with a criterion that came to this solution, and what it has left. -/
structure Finds {ω : Type} (m : Minimizer α S) (stop : Report α → ω → Bool × ω)
    (clock : Clock ω) (fuel : Nat) (w : ω) (m' : Minimizer α S) (w' : ω)
    (solution : Solution α S ω m.problem.domain.dim) : Prop where
  ran : m.solver.run m.problem m.problem.domain m.x (.until stop) clock fuel w = .ok (.ok solution)
  /-- The first question is for the value at the current point. -/
  starts : ∃ (x : Vec α m.problem.domain.dim) (q : Query α m.problem.domain.dim)
    (later : List (Query α m.problem.domain.dim)), x.toArray = m.x ∧
      solution.transcript.asked.toList = q :: later ∧ q.AsksValueAt x
  /-- The criterion is asked once for the start and once after each iteration, and never after a "yes",
  which ends the run with the status `user`. -/
  consults : ∃ before last, solution.report.EndsConsultation stop clock w w' before last
  problem : m'.problem = m.problem
  x : m'.x = solution.x
  report : m'.report = some solution.report
  value : m'.value? = some solution.report.objective
  /-- The value is the one of the objective at the point that the minimizer is left with. -/
  objective : ∀ f f', m.problem.objective.Computes f f' →
    ∃ x : Vec α m.problem.domain.dim, x.toArray = m'.x ∧ solution.report.objective = f x

theorem Reachable.exists_finds (reachable : Reachable problem settings m) {ω : Type}
    {stop : Report α → ω → Bool × ω} {clock : Clock ω} {fuel : Nat} {w w' : ω}
    (found : m.runUntil stop clock fuel w = .ok (.ok (m', w'))) :
    ∃ solution, m.Finds stop clock fuel w m' w' solution := by
  obtain ⟨solution, ran, rfl, rfl⟩ := runUntil_ok found
  obtain ⟨start, q, later, atStart, asked, value⟩ := Solver.run_starts ran
  rw [Box.project_of_holds (reachable.rests.held start atStart)] at value
  exact ⟨solution, ran, ⟨start, q, later, atStart, asked, value⟩, Solver.run_consults ran, rfl, rfl, rfl,
    rfl, fun f f' computes => (rests_of_run ran).value f f' computes _ rfl⟩

/-- **Stopping criteria.** Take a minimizer that was made with any settings and has answered any calls. A
call with a criterion that is not refused starts at the point that the call before left; it asks the
criterion once more than it makes iterations, and not again after a "yes"; its status is `user` if and only
if the last answer is "yes"; and the value in its report, which the minimizer then gives out, is the one of
the objective at the point that the minimizer then has. A run without a criterion is one with a criterion
that always says "no". A call that is refused hands back the minimizer as it was, and is refused in this way
whatever the criterion and the clock are, so neither is asked. Whatever is answered, and whoever hands back a
status in place of the criterion, the observer is asked once more than there are iterations, and decides on
the status `user`. -/
theorem Reachable.calls (reachable : Reachable problem settings m) :
    (∀ {ω : Type} (stop : Report α → ω → Bool × ω) (clock : Clock ω) (fuel : Nat) (w : ω)
      (m' : Minimizer α S) (w' : ω), m.runUntil stop clock fuel w = .ok (.ok (m', w')) →
        ∃ solution, m.Finds stop clock fuel w m' w' solution) ∧
    (∀ (clock : Clock Nat) (fuel : Nat) (m' : Minimizer α S), m.run clock fuel = .ok (.ok m') →
      Reachable problem settings m' ∧
        ∃ w' solution, m.Finds (fun _ asked => (false, asked)) clock fuel 0 m' w' solution ∧
          solution.report.status ≠ .user) ∧
    (∀ {ω : Type} (stop : Report α → ω → Bool × ω) (clock : Clock ω) (fuel : Nat) (w : ω)
      (refused : Refused (Minimizer α S)), m.runUntil stop clock fuel w = .ok (.error refused) →
        refused.left = m ∧
        ∀ {ω' : Type} (stop' : Report α → ω' → Bool × ω') (clock' : Clock ω') (w' : ω'),
          m.runUntil stop' clock' fuel w' = .ok (.error refused)) ∧
    (∀ (clock : Clock Nat) (fuel : Nat) (refused : Refused (Minimizer α S)),
      m.run clock fuel = .ok (.error refused) → refused.left = m) ∧
    ∀ fuel d, m.solver.solve m.problem m.problem.domain m.x fuel = .ok d →
      d.Keeps Query.consulting (fun found record => found.report.Recorded record) [] := by
  refine ⟨fun _ _ _ _ _ _ found => reachable.exists_finds found, ?_, ?_, ?_, ?_⟩
  · intro clock fuel m' ended
    obtain ⟨called, found, same⟩ := runUntil_of_run ended
    cases called with
    | error refused => cases same
    | ok after =>
        obtain ⟨_, w'⟩ := after
        cases same
        obtain ⟨solution, finds⟩ := reachable.exists_finds found
        refine ⟨.called reachable _ clock fuel 0 found, w', solution, finds, ?_⟩
        obtain ⟨before, last, ends⟩ := finds.consults
        rw [ne_eq, ends.user, ends.consulted.no (fun _ _ => rfl) last (by simp)]
        exact Bool.false_ne_true
  · intro ω stop clock fuel w refused refusal
    have refusal := runUntil_error.1 refusal
    exact ⟨refusal.1, fun stop' clock' w' => runUntil_error.2 refusal⟩
  · intro clock fuel refused ended
    obtain ⟨called, refusal, same⟩ := runUntil_of_run ended
    cases called with
    | ok after => cases same
    | error refused' =>
        cases same
        exact (runUntil_error.1 refusal).1
  · exact fun fuel d made => Solver.solve_recorded made

/-! ### A call that the criterion ends -/

/-- The sphere between one and two, from a point outside. -/
def cappedSettings : Settings Float := ⟨some #[5], .standard, none⟩

/-- The minimizer before the first call. -/
def cappedMinimizer : Minimizer Float ConjugateGradient.subsolver :=
  ⟨cappedSphere, cappedSphereSolver, #[2], none⟩

/-- The criterion that lets one iteration pass, and counts how often it is asked. -/
def oneIteration (report : Report Float) (asked : Nat) : Bool × Nat :=
  (decide (1 ≤ report.iteration), asked + 1)

theorem cappedMinimizer_reachable : Reachable cappedSphere cappedSettings cappedMinimizer := by
  have made : build? cappedSphere cappedSettings ConjugateGradient.subsolver = .ok cappedMinimizer := by
    rfl
  exact .built made

/-- The minimization ends at a stationary point, and the criterion has it end with the status `user`. -/
theorem calls_oneIteration :
    Reachable cappedSphere cappedSettings cappedMinimizer ∧ ∃ m' solution,
      cappedMinimizer.runUntil oneIteration .stopped 9 0 = .ok (.ok (m', 2)) ∧
      cappedMinimizer.Finds oneIteration .stopped 9 0 m' 2 solution ∧
      solution.report.status = .user := by
  have ends : ((cappedMinimizer.runUntil oneIteration .stopped 9 0).toOption.bind
      Except.toOption).any (fun out => decide (out.2 = 2 ∧
        out.1.report.any fun report => report.status = .user)) := by
    decide +kernel
  obtain ⟨⟨m', w'⟩, found, checked⟩ := exists_solution_of_any ends
  obtain ⟨rfl, stopped⟩ := of_decide_eq_true checked
  obtain ⟨solution, finds⟩ := cappedMinimizer_reachable.calls.1 oneIteration _ _ _ _ _ found
  refine ⟨cappedMinimizer_reachable, m', solution, found, finds, ?_⟩
  simpa [finds.report] using stopped

end Minimizer

end BoxNewton
