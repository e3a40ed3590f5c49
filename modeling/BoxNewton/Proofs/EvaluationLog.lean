import Mathlib
import BoxNewton.Proofs.Feasibility

/-!
# The evaluations of a run

The numbers of evaluations are kept by hand: products are counted while they are handed on, values and
gradients where they are asked for, and both ways of halting add what was asked for up to there. They are
compared with the log of a run, which has every call on the objective and every report that the observer
is shown, in order (`Event`, `Query.event?`).

The log follows a fixed protocol (`Follows`). The starting point is evaluated first. Then every iteration
makes some products and one trial evaluation. Where values and gradients are not asked for together, the
gradient at the trial point is asked for at most once, and exactly once if the step is accepted. The
observer is shown a report after the start and after every iteration, and its numbers of evaluations are
those of the calls in the log up to there. A run ends after a report, or in the middle of an iteration:
after some products, when the length of the Cauchy step underflows, or after a trial evaluation, when no
decrease is predicted (`Closes`).

This is kept on every path of a minimization (`SolverState.minimize_logs`), whatever is answered, and
hence by every run (`Solver.solve_counts`).
-/

set_option autoImplicit false

namespace BoxNewton

open Dialogue (Contract keeps_free)

variable {α : Type} [Scalar α] {S : Subsolver α} {n : Nat}

/-! ## Logs -/

/-- A call on the objective. -/
inductive ObjectiveCall where
  | value
  | gradient
  | both
  | product
  deriving Repr, DecidableEq

/-- An entry of a log: a call on the objective, or a report that is shown to the observer. -/
inductive Event (α : Type) where
  | call (c : ObjectiveCall)
  | shown (report : Report α)

/-- The call that an entry of a log stands for. -/
def Event.call? {α : Type} : Event α → Option ObjectiveCall
  | call c => some c
  | shown _ => none

/-- The entry of a question. The clock leaves none. -/
def Query.event? {α : Type} {n : Nat} : Query α n → Option (Event α)
  | value _ => some (.call .value)
  | gradient _ _ => some (.call .gradient)
  | valueGradient _ _ => some (.call .both)
  | product _ _ _ => some (.call .product)
  | observe _ _ report => some (.shown report)
  | outOfTime _ => none

/-- The log after a question. -/
def Query.enter {α : Type} {n : Nat} (log : List (Event α)) (q : Query α n) : List (Event α) :=
  log ++ q.event?.toList

/-- The calls in a log. -/
def callsIn {α : Type} (log : List (Event α)) : List ObjectiveCall := log.filterMap Event.call?

/-- The numbers of evaluations after some more calls. -/
def Evaluations.after (e : Evaluations) (calls : List ObjectiveCall) : Evaluations where
  objective := e.objective + (calls.count .value + calls.count .both)
  gradient := e.gradient + (calls.count .gradient + calls.count .both)
  product := e.product + calls.count .product

/-- The call that an evaluation of the objective starts with. -/
def valueCall (combined : Bool) : ObjectiveCall := if combined then .both else .value

/-- Calls for the gradient by itself. There are none when it comes with the value. -/
def gradientCalls (combined : Bool) (k : Nat) : List ObjectiveCall :=
  if combined then [] else List.replicate k .gradient

/-- The calls of an iteration that comes to a trial evaluation. -/
def iterationCalls (combined : Bool) (products gradients : Nat) : List ObjectiveCall :=
  List.replicate products .product ++ valueCall combined :: gradientCalls combined gradients

section Counting

omit [Scalar α]

theorem callsIn_append (log log' : List (Event α)) :
    callsIn (log ++ log') = callsIn log ++ callsIn log' :=
  List.filterMap_append

@[simp] theorem callsIn_calls (calls : List ObjectiveCall) :
    callsIn (calls.map (.call : _ → Event α)) = calls := by
  induction calls with
  | nil => rfl
  | cons c calls ih => exact congrArg (c :: ·) ih

/-- Showing a report is not a call. -/
theorem callsIn_shown (log : List (Event α)) (report : Report α) :
    callsIn (log ++ [.shown report]) = callsIn log :=
  (callsIn_append log [.shown report]).trans (List.append_nil _)

namespace Evaluations

theorem after_nil (e : Evaluations) : e.after [] = e := rfl

theorem after_append (e : Evaluations) (calls calls' : List ObjectiveCall) :
    e.after (calls ++ calls') = (e.after calls).after calls' := by
  simp only [after, List.count_append]
  congr 1 <;> omega

theorem after_products (e : Evaluations) (k : Nat) :
    e.after (List.replicate k .product) = { e with product := e.product + k } := by
  simp [after, List.count_replicate]

theorem after_value (e : Evaluations) (combined : Bool) :
    e.after [valueCall combined] =
      { e with objective := e.objective + 1, gradient := e.gradient + combined.toNat } := by
  cases combined <;> simp [after, valueCall]

theorem after_gradients (e : Evaluations) (combined : Bool) (k : Nat) :
    e.after (gradientCalls combined k) =
      { e with gradient := e.gradient + (gradientCalls combined k).length } := by
  cases combined <;> simp [after, gradientCalls, List.count_replicate]

end Evaluations

theorem gradientCalls_zero (combined : Bool) : gradientCalls combined 0 = [] := by
  cases combined <;> rfl

theorem gradientCalls_add (combined : Bool) (k l : Nat) :
    gradientCalls combined (k + l) = gradientCalls combined k ++ gradientCalls combined l := by
  cases combined with
  | true => rfl
  | false => exact List.replicate_append_replicate.symm

end Counting

/-! ## The protocol -/

/-- Holds of the log up to a report. Its parts, the start and the iterations, end with a report each. -/
inductive Follows {α : Type} (combined exact : Bool) : List (Event α) → Report α → Prop where
  | start (report : Report α) (iteration : report.iteration = 0)
      (steps : report.acceptedSteps = 0) :
      Follows combined exact
        ((valueCall combined :: gradientCalls combined 1).map .call ++ [.shown report]) report
  | turn {log : List (Event α)} {last : Report α} (before : Follows combined exact log last)
      (products gradients : Nat) (accepted : Bool) (report : Report α)
      (source : exact = true ∨ products = 0) (most : gradients ≤ 1)
      (fetched : accepted = true → gradients = 1)
      (iteration : report.iteration = last.iteration + 1)
      (steps : report.acceptedSteps = last.acceptedSteps + accepted.toNat) :
      Follows combined exact
        (log ++ (iterationCalls combined products gradients).map .call ++ [.shown report]) report

/-- Holds of the whole log of a minimization that ends with a report. -/
inductive Closes {α : Type} (combined exact : Bool) : List (Event α) → Report α → Prop where
  | between {log : List (Event α)} {last : Report α} (before : Follows combined exact log last)
      (report : Report α) (iteration : report.iteration = last.iteration)
      (steps : report.acceptedSteps = last.acceptedSteps) : Closes combined exact log report
  | underflow {log : List (Event α)} {last : Report α} (before : Follows combined exact log last)
      (products : Nat) (report : Report α) (source : exact = true ∨ products = 0)
      (status : report.status = .smallStep) (iteration : report.iteration = last.iteration)
      (steps : report.acceptedSteps = last.acceptedSteps) :
      Closes combined exact (log ++ (List.replicate products .product).map .call) report
  | flat {log : List (Event α)} {last : Report α} (before : Follows combined exact log last)
      (products : Nat) (report : Report α) (source : exact = true ∨ products = 0)
      (status : report.status = .noPredictedDecrease) (iteration : report.iteration = last.iteration)
      (steps : report.acceptedSteps = last.acceptedSteps) :
      Closes combined exact (log ++ (iterationCalls combined products 0).map .call) report

/-- A report counts the calls in a log. Without the exact Hessian it counts no products. -/
structure Report.Counts {α : Type} (report : Report α) (exact : Bool) (log : List (Event α)) :
    Prop where
  evaluations : report.evaluations = Evaluations.zero.after (callsIn log)
  secant : exact = false → report.evaluations.product = 0

/-- The contract to show reports that follow the protocol and count the calls so far. Recorded is the
log. -/
def Query.logging (combined exact : Bool) :
    Contract (Query α n) Query.Reply (List (Event α)) where
  promises log q := match q with
    | .observe _ _ report => Follows combined exact (log ++ [.shown report]) report ∧
        report.Counts exact log
    | _ => True
  relies _ _ _ := True
  next log q _ := Query.enter log q

/-- Holds when neither the start nor an iteration makes such a call. -/
structure ObjectiveCall.Unused (combined exact : Bool) (call : ObjectiveCall) : Prop where
  start : call ∉ valueCall combined :: gradientCalls combined 1
  turn : ∀ products gradients, exact = true ∨ products = 0 →
    call ∉ iterationCalls combined products gradients

section Unused

omit [Scalar α]

variable {combined exact : Bool} {call : ObjectiveCall} {log : List (Event α)} {report : Report α}

theorem ObjectiveCall.unused_product (combined : Bool) : Unused combined false .product where
  start := by cases combined <;> decide
  turn := by
    rintro products gradients (none | rfl)
    · cases none
    · cases combined <;> simp [iterationCalls, valueCall, gradientCalls]

theorem ObjectiveCall.unused_value (exact : Bool) : Unused true exact .value where
  start := by decide
  turn products gradients _ := by simp [iterationCalls, valueCall, gradientCalls]

theorem ObjectiveCall.unused_gradient (exact : Bool) : Unused true exact .gradient where
  start := by decide
  turn products gradients _ := by simp [iterationCalls, valueCall, gradientCalls]

/-- A call that no part of the protocol makes is not in the log. -/
theorem Follows.not_mem (follows : Follows combined exact log report)
    (unused : call.Unused combined exact) : call ∉ callsIn log := by
  induction follows with
  | start =>
      rw [callsIn_shown, callsIn_calls]
      exact unused.start
  | turn before products gradients accepted report source _ _ _ _ ih =>
      rw [callsIn_shown, callsIn_append, callsIn_calls]
      exact List.not_mem_append ih (unused.turn products gradients source)

theorem Closes.not_mem (closes : Closes combined exact log report)
    (unused : call.Unused combined exact) : call ∉ callsIn log := by
  cases closes with
  | between before => exact before.not_mem unused
  | underflow before products _ source =>
      rw [callsIn_append, callsIn_calls]
      refine List.not_mem_append (before.not_mem unused) fun here => ?_
      exact unused.turn products 0 source (List.mem_append_left _ here)
  | flat before products _ source =>
      rw [callsIn_append, callsIn_calls]
      exact List.not_mem_append (before.not_mem unused) (unused.turn products 0 source)

/-- A report whose evaluations are those of a log. -/
theorem Report.counts (counted : report.evaluations = Evaluations.zero.after (callsIn log))
    (none : exact = false → .product ∉ callsIn log) : report.Counts exact log := by
  refine ⟨counted, fun secant => ?_⟩
  rw [counted, Evaluations.after, List.count_eq_zero.2 (none secant)]
  rfl

/-- Where every gradient comes with a value, there are as many of both. -/
theorem Report.Counts.together (counts : report.Counts exact log) (value : .value ∉ callsIn log)
    (gradient : .gradient ∉ callsIn log) :
    report.evaluations.gradient = report.evaluations.objective := by
  rw [counts.evaluations, Evaluations.after, List.count_eq_zero.2 value,
    List.count_eq_zero.2 gradient]
  rfl

end Unused

omit [Scalar α] in
/-- A report that may be shown has as many gradients as values, where they are asked for together. -/
theorem Query.logging_together {exact : Bool} {log : List (Event α)} {y g : Vec α n}
    {report : Report α} (promised : (Query.logging true exact).promises log (.observe y g report)) :
    report.evaluations.gradient = report.evaluations.objective := by
  obtain ⟨follows, counts⟩ := promised
  have same := callsIn_shown log report
  exact counts.together (same ▸ follows.not_mem (ObjectiveCall.unused_value exact))
    (same ▸ follows.not_mem (ObjectiveCall.unused_gradient exact))

/-! ## The parts of an iteration -/

/-- The room in the memory that second-order information comes from, if it does not come from the
objective. -/
def HessianModel.capacity? {α : Type} {n : Nat} : HessianModel α n → Option Nat
  | exact => none
  | secant memory => some memory.capacity

/-- Whether second-order information comes from the objective. -/
def HessianModel.isExact {α : Type} {n : Nat} (model : HessianModel α n) : Bool :=
  model.capacity?.isNone

/-- Learning changes nothing about the room. -/
theorem SecantMemory.push_capacity (memory : SecantMemory α n) (pair : SecantPair α n) :
    (memory.push pair).2.capacity = memory.capacity := by
  unfold push
  split <;> rfl

/-- From one state and log to another with some calls and accepted steps in between, within one
iteration. -/
structure Progress.Advances (p : Progress α S n) (log : List (Event α)) (calls : List ObjectiveCall)
    (steps : Nat) (p' : Progress α S n) (log' : List (Event α)) : Prop where
  logged : log' = log ++ calls.map .call
  counted : p'.evaluations = p.evaluations.after calls
  steps : p'.acceptedSteps = p.acceptedSteps + steps
  iteration : p'.iteration = p.iteration
  source : p'.state.model.capacity? = p.state.model.capacity?

omit [Scalar α] in
theorem Progress.Advances.trans {p p' p'' : Progress α S n} {log log' log'' : List (Event α)}
    {calls calls' : List ObjectiveCall} {steps steps' : Nat}
    (first : p.Advances log calls steps p' log')
    (second : p'.Advances log' calls' steps' p'' log'') :
    p.Advances log (calls ++ calls') (steps + steps') p'' log'' where
  logged := by rw [second.logged, first.logged, List.map_append, List.append_assoc]
  counted := by rw [second.counted, first.counted, Evaluations.after_append]
  steps := by rw [second.steps, first.steps, Nat.add_assoc]
  iteration := second.iteration.trans first.iteration
  source := second.source.trans first.source

/-- The contract that counts questions. -/
def Dialogue.Contract.counting {Question : Type} {Answer : Question → Type} :
    Contract Question Answer Nat where
  promises _ _ := True
  relies _ _ _ := True
  next asked _ _ := asked + 1

/-- A rating asks for the gradient at most once, and has it if it did. -/
theorem TrustRegion.rate_asks (o : RegionOptions α) (region : TrustRegion α) (t : Trial α)
    (step : Vec α n) :
    (region.rate o t step).Keeps .counting
      (fun rated asked => asked = (rated.bind Rating.gradient).toList.length) 0 := by
  unfold rate
  split
  · exact rfl
  · split
    · exact rfl
    · split
      · exact ⟨trivial, fun _ _ => rfl⟩
      · exact rfl

section Parts

variable {combined exact : Bool} {log : List (Event α)}

/-- Handing on the questions of a dialogue for products makes as many calls as are counted. -/
theorem HessianModel.through_logs {β : Type} (model : HessianModel α n) (x : Vec α n)
    (d : OperatorDialogue α n β) (asked : Nat) :
    (d.through (model.answer x) asked).Keeps (Query.logging combined exact)
      (fun out log' => ∃ products, out.2 = asked + products ∧
        (model.isExact = true ∨ products = 0) ∧
        log' = log ++ (List.replicate products .product).map .call) log := by
  refine (Dialogue.Keeps.through (fun _ k log' => ∃ products, k = asked + products ∧
      (model.isExact = true ∨ products = 0) ∧
      log' = log ++ (List.replicate products .product).map .call)
    ?_ (keeps_free d) ⟨0, rfl, .inr rfl, (List.append_nil log).symm⟩).mono ?_
  · rintro q _ k log' ⟨products, rfl, source, rfl⟩ _
    cases model with
    | exact =>
        refine ⟨trivial, fun hv _ => ⟨trivial, products + 1, rfl, .inl rfl, ?_⟩⟩
        rw [List.replicate_succ', List.map_append, ← List.append_assoc]
        rfl
    | secant memory => exact ⟨trivial, products, rfl, source, rfl⟩
  · rintro out log' ⟨_, here, -⟩
    exact here

theorem HessianModel.learn_logs (model : HessianModel α n) (pair : SecantPair α n) :
    (model.learn pair).Keeps (Query.logging combined exact)
      (fun learnt log' => learnt.capacity? = model.capacity? ∧ log' = log) log := by
  cases model with
  | exact => exact ⟨rfl, rfl⟩
  | secant memory =>
      simp only [learn, Dialogue.keeps_bind, Dialogue.keeps_remarkWhen]
      exact ⟨congrArg some (memory.push_capacity pair), rfl⟩

namespace Setting

variable {st : Setting α n} {p : Progress α S n}

theorem evaluate_logs (y : Vec α n) :
    (st.evaluate p y).Keeps (Query.logging combined exact)
      (fun out log' =>
        p.Advances log [valueCall st.options.combinedEvaluation] 0 out.2 log') log := by
  unfold evaluate
  cases together : st.options.combinedEvaluation with
  | true =>
      refine ⟨trivial, fun a _ => ⟨rfl, ?_, rfl, rfl, rfl⟩⟩
      rw [Evaluations.after_value]
      rfl
  | false =>
      refine ⟨trivial, fun a _ => ⟨rfl, ?_, rfl, rfl, rfl⟩⟩
      rw [Evaluations.after_value]
      rfl

/-- The gradients that a judgement asks for are counted. -/
theorem rate_logs (b : Buffers α n) (y step : Vec α n) (region : TrustRegion α) (t : Trial α)
    (asked : Nat) :
    ((region.rate st.options.region t step).through (st.gradientAtTrial b y) asked).Keeps
      (Query.logging combined exact)
      (fun out log' => ∃ gradients, gradients = (out.1.bind Rating.gradient).toList.length ∧
        out.2 = asked + (gradientCalls st.options.combinedEvaluation gradients).length ∧
        log' = log ++ (gradientCalls st.options.combinedEvaluation gradients).map .call) log := by
  refine (Dialogue.Keeps.through (fun gradients k log' =>
      k = asked + (gradientCalls st.options.combinedEvaluation gradients).length ∧
      log' = log ++ (gradientCalls st.options.combinedEvaluation gradients).map .call)
    ?_ (TrustRegion.rate_asks st.options.region region t step) ?_).mono ?_
  · rintro _ gradients k log' ⟨rfl, rfl⟩ _
    unfold gradientAtTrial
    cases together : st.options.combinedEvaluation with
    | true => exact ⟨trivial, rfl, rfl⟩
    | false =>
        refine ⟨trivial, fun g _ => ⟨trivial, ?_⟩⟩
        rw [Dialogue.Contract.counting, gradientCalls_add, List.map_append, ← List.append_assoc,
          List.length_append]
        exact ⟨rfl, rfl⟩
  · rw [gradientCalls_zero]
    exact ⟨rfl, (List.append_nil log).symm⟩
  · rintro out log' ⟨gradients, ⟨counted, logged⟩, same⟩
    exact ⟨gradients, same, counted, logged⟩

/-- An accepted point has its gradient from the judgement, or it is asked for. -/
theorem acceptedGradient_logs (y : Vec α n) (judged : Option (Vec α n)) :
    (st.acceptedGradient p y judged).Keeps (Query.logging combined exact)
      (fun out log' => p.Advances log
        (gradientCalls st.options.combinedEvaluation (1 - judged.toList.length)) 0 out.2 log')
      log := by
  unfold acceptedGradient
  cases judged with
  | some g =>
      rw [show 1 - (some g).toList.length = 0 from rfl, gradientCalls_zero]
      exact ⟨(List.append_nil log).symm, rfl, rfl, rfl, rfl⟩
  | none =>
      cases together : st.options.combinedEvaluation with
      | true => exact ⟨(List.append_nil log).symm, rfl, rfl, rfl, rfl⟩
      | false =>
          refine ⟨trivial, fun g _ => ⟨rfl, ?_, rfl, rfl, rfl⟩⟩
          rw [Evaluations.after_gradients]
          rfl

theorem accept_logs (t : TrialStep α n) (judged : Option (Vec α n)) :
    (st.accept p t judged).Keeps (Query.logging combined exact)
      (fun p' log' => p.Advances log
        (gradientCalls st.options.combinedEvaluation (1 - judged.toList.length)) 1 p' log')
      log := by
  unfold accept
  refine (acceptedGradient_logs t.point judged).bind ?_
  intro out log' fetched
  refine (HessianModel.learn_logs _ _).bind ?_
  rintro model log' ⟨source, rfl⟩
  exact ⟨fetched.logged, fetched.counted, congrArg (· + 1) fetched.steps, fetched.iteration,
    source.trans fetched.source⟩

end Setting

/-! ## Iterations -/

/-- The ways in which an iteration ends, with the calls that it made. -/
inductive Turn.Logged (combined : Bool) (p : Progress α S n) (log : List (Event α)) :
    Turn α S n → List (Event α) → Prop where
  | underflow (products : Nat) (p' : Progress α S n) (log' : List (Event α))
      (source : p.state.model.isExact = true ∨ products = 0) (status : p'.status = .smallStep)
      (made : p.Advances log (List.replicate products .product) 0 p' log') :
      Logged combined p log (.halted p') log'
  | flat (products : Nat) (p' : Progress α S n) (log' : List (Event α))
      (source : p.state.model.isExact = true ∨ products = 0)
      (status : p'.status = .noPredictedDecrease)
      (made : p.Advances log (iterationCalls combined products 0) 0 p' log') :
      Logged combined p log (.halted p') log'
  | judged (products gradients : Nat) (accepted : Bool) (p' : Progress α S n) (ratio : α)
      (log' : List (Event α)) (source : p.state.model.isExact = true ∨ products = 0)
      (most : gradients ≤ 1) (fetched : accepted = true → gradients = 1)
      (made : p.Advances log (iterationCalls combined products gradients) accepted.toNat p' log') :
      Logged combined p log (.judged p' ratio) log'

namespace Setting

variable {st : Setting α n} {p : Progress α S n}

/-- A judgement after products and an evaluation. An accepted step has the gradient from the judgement or asks
for it now: once in both cases. -/
theorem judge_logs {q : Progress α S n} {before : List (Event α)} {products : Nat}
    (source : q.state.model.isExact = true ∨ products = 0)
    (tried : q.Advances before
      (List.replicate products .product ++ [valueCall st.options.combinedEvaluation]) 0 p log)
    (t : TrialStep α n) :
    (st.judge p t).Keeps (Query.logging combined exact)
      (fun turn log' => turn.Logged st.options.combinedEvaluation q before log') log := by
  unfold judge
  refine (rate_logs _ _ _ _ _ _).bind ?_
  rintro ⟨rated, asked⟩ log' ⟨gradients, same, rfl, logged⟩
  have fetched : p.Advances log (gradientCalls st.options.combinedEvaluation gradients) 0
      { p with evaluations.gradient := p.evaluations.gradient +
        (gradientCalls st.options.combinedEvaluation gradients).length } log' :=
    ⟨logged, (Evaluations.after_gradients _ _ _).symm, rfl, rfl, rfl⟩
  cases rated with
  | none =>
      have none_asked : gradients = 0 := same
      subst none_asked
      have made := tried.trans fetched
      rw [List.append_assoc, List.singleton_append] at made
      exact .flat products _ log' source rfl
        ⟨made.logged, made.counted, made.steps, made.iteration, made.source⟩
  | some rating =>
      obtain ⟨region, gt⟩ := rating
      have count : gradients = gt.toList.length := same
      have most : gradients ≤ 1 := by
        cases gt with
        | none => exact count.trans_le (Nat.zero_le 1)
        | some g => exact count.le
      refine (updateRadius_keeps region _).bind ?_
      rintro revised log'' ⟨here, -⟩
      subst here
      split
      · rw [Dialogue.keeps_bind]
        refine (accept_logs t gt).mono ?_
        intro p' log' moved
        have made := tried.trans (fetched.trans ⟨moved.logged, moved.counted, moved.steps,
          moved.iteration, moved.source⟩)
        rw [← gradientCalls_add, count, Nat.add_sub_of_le (count ▸ most), List.append_assoc,
          List.singleton_append] at made
        exact .judged products 1 true p' _ log' source le_rfl (fun _ => rfl) made
      · have made := tried.trans fetched
        rw [List.append_assoc, List.singleton_append] at made
        exact .judged products gradients false _ _ _ source most nofun
          ⟨made.logged, made.counted, made.steps, made.iteration, made.source⟩

/-- An evaluation and a judgement after the products of the search for the Cauchy step and of the
refinement. -/
theorem assess_logs {q : Progress α S n} {before : List (Event α)} {products : Nat}
    (source : q.state.model.isExact = true ∨ products = 0) (same : q.Advances before [] 0 p before)
    (logged : log = before ++ (List.replicate products .product).map .call) (status : RefinementStatus)
    (refined : Refinement.State α n S.State) :
    (st.assess p ((status, refined), products)).Keeps (Query.logging combined exact)
      (fun a log' => (st.judge a.state a.step).Keeps (Query.logging combined exact)
        (fun turn log'' => turn.Logged st.options.combinedEvaluation q before log'') log') log := by
  unfold assess
  simp only [Dialogue.keeps_bind]
  refine Dialogue.keeps_addCount _ _ ?_
  simp only [Dialogue.keeps_remark]
  refine (evaluate_logs _).mono ?_
  intro out log'' evaluated
  have multiplied : q.Advances before (List.replicate products .product) 0
      { p with
        evaluations.product := p.evaluations.product + products
        innerIterations := p.innerIterations + refined.iterations
        state.subsolver := refined.subsolver
        state.buffers.image := refined.hs } log := by
    refine ⟨logged, ?_, same.steps, same.iteration, same.source⟩
    rw [Evaluations.after_products, same.counted, Evaluations.after_nil]
  exact judge_logs source (multiplied.trans evaluated) _

/-- **The calls of an iteration.** -/
theorem iterate_logs (st : Setting α n) (p : Progress α S n) :
    (st.iterate p).Keeps (Query.logging combined exact)
      (fun turn log' => turn.Logged st.options.combinedEvaluation p log log') log := by
  unfold iterate attempt
  simp only [Dialogue.keeps_bind]
  refine (HessianModel.through_logs _ _ _ _).mono ?_
  rintro ⟨found, _⟩ log' ⟨products, rfl, source, logged⟩
  cases found with
  | underflow length image =>
      refine .underflow (0 + products) _ log' ?_ rfl ⟨?_, ?_, rfl, rfl, rfl⟩
      · rwa [Nat.zero_add]
      · rwa [Nat.zero_add]
      · rw [Evaluations.after_products]
  | found length step image =>
      simp only [refineFrom, Dialogue.keeps_bind]
      refine (HessianModel.through_logs _ _ _ _).mono ?_
      rintro ⟨⟨status, refined⟩, _⟩ log'' ⟨more, rfl, furtherSource, further⟩
      have same : p.Advances log [] 0 { p with state.cauchyLength := length } log :=
        ⟨(List.append_nil log).symm, rfl, rfl, rfl, rfl⟩
      have madeBy : p.state.model.isExact = true ∨ 0 + products + more = 0 := by
        rcases source with objective | none
        · exact .inl objective
        · rw [none, Nat.zero_add]
          exact furtherSource
      refine assess_logs madeBy same ?_ status refined
      rw [further, logged, List.append_assoc, ← List.map_append, List.replicate_append_replicate,
        Nat.zero_add]

end Setting

end Parts

/-! ## Runs -/

/-- A state between two iterations, with the log and the last report in it. -/
structure Progress.Resumes (p : Progress α S n) (combined : Bool) (room : Option Nat)
    (log : List (Event α)) (last : Report α) : Prop where
  follows : Follows combined room.isNone log last
  iteration : p.iteration = last.iteration
  steps : p.acceptedSteps = last.acceptedSteps
  counted : p.evaluations = Evaluations.zero.after (callsIn log)
  source : p.state.model.capacity? = room

/-- The last report of a minimization, with the whole log. -/
structure Report.Ends {α : Type} (report : Report α) (combined exact : Bool) (log : List (Event α)) :
    Prop where
  closes : Closes combined exact log report
  counts : report.Counts exact log

omit [Scalar α] in
theorem Report.Ends.together {exact : Bool} {log : List (Event α)} {report : Report α}
    (ends : report.Ends true exact log) :
    report.evaluations.gradient = report.evaluations.objective :=
  ends.counts.together (ends.closes.not_mem (ObjectiveCall.unused_value exact))
    (ends.closes.not_mem (ObjectiveCall.unused_gradient exact))

omit [Scalar α] in
theorem Closes.ends {combined exact : Bool} {log : List (Event α)} {report : Report α}
    (closes : Closes combined exact log report)
    (counted : report.evaluations = Evaluations.zero.after (callsIn log)) :
    report.Ends combined exact log :=
  ⟨closes, Report.counts counted fun secant =>
    closes.not_mem (secant ▸ ObjectiveCall.unused_product combined)⟩

section Runs

variable {room : Option Nat} {log : List (Event α)}

omit [Scalar α] in
/-- The numbers of evaluations stay those of the log. -/
theorem Progress.Advances.counts {p p' : Progress α S n} {log' : List (Event α)}
    {calls : List ObjectiveCall} {steps : Nat} (made : p.Advances log calls steps p' log')
    (counted : p.evaluations = Evaluations.zero.after (callsIn log)) :
    p'.evaluations = Evaluations.zero.after (callsIn log') := by
  rw [made.counted, counted, made.logged, callsIn_append, callsIn_calls, Evaluations.after_append]

omit [Scalar α] in
/-- A minimization that is halted within an iteration ends there. -/
theorem Turn.Logged.ends {combined : Bool} {p p' : Progress α S n} {log' : List (Event α)}
    {last : Report α} (halted : Turn.Logged combined p log (.halted p') log')
    (here : p.Resumes combined room log last) :
    p'.report.Ends combined room.isNone log' ∧ p'.state.model.capacity? = room := by
  cases halted with
  | underflow products _ _ source status made =>
      rw [HessianModel.isExact, here.source] at source
      refine ⟨Closes.ends ?_ (made.counts here.counted), made.source.trans here.source⟩
      rw [made.logged]
      exact .underflow here.follows products _ source status (made.iteration.trans here.iteration)
        (made.steps.trans here.steps)
  | flat products _ _ source status made =>
      rw [HessianModel.isExact, here.source] at source
      refine ⟨Closes.ends ?_ (made.counts here.counted), made.source.trans here.source⟩
      rw [made.logged]
      exact .flat here.follows products _ source status (made.iteration.trans here.iteration)
        (made.steps.trans here.steps)

omit [Scalar α] in
theorem Query.logging_clock (combined exact : Bool) (log : List (Event α)) (limit : Float) :
    (Query.logging combined exact : Contract (Query α n) Query.Reply _).Allows log
      (.outOfTime limit) :=
  ⟨trivial, fun _ _ => List.append_nil log⟩

namespace Setting

variable {st : Setting α n} {p : Progress α S n}

/-- A report that follows the protocol and counts the calls so far may be shown. -/
theorem checkpoint_logs {combined : Bool}
    (follows : Follows combined room.isNone (log ++ [.shown p.report]) p.report)
    (counted : p.evaluations = Evaluations.zero.after (callsIn log))
    (source : p.state.model.capacity? = room) :
    (st.checkpoint p).Keeps (Query.logging combined room.isNone)
      (fun p' log' => ∃ last, p'.Resumes combined room log' last) log := by
  have same := callsIn_shown log p.report
  have none : room.isNone = false → .product ∉ callsIn log := fun secant =>
    same ▸ follows.not_mem (secant ▸ ObjectiveCall.unused_product combined)
  refine ⟨⟨follows, Report.counts counted none⟩, fun seen _ => ?_⟩
  exact ⟨p.report, follows, rfl, rfl, counted.trans (congrArg _ same.symm), source⟩

/-- After an iteration that was judged, a report is shown. -/
theorem conclude_logs {combined : Bool} {p' : Progress α S n} {log' : List (Event α)}
    {last : Report α} {products gradients : Nat} {accepted : Bool}
    (here : p.Resumes combined room log last)
    (source : p.state.model.isExact = true ∨ products = 0)
    (most : gradients ≤ 1) (fetched : accepted = true → gradients = 1)
    (made : p.Advances log (iterationCalls combined products gradients) accepted.toNat p' log')
    (ratio : α) :
    (st.conclude p' ratio).Keeps (Query.logging combined room.isNone)
      (fun p'' log'' => ∃ last, p''.Resumes combined room log'' last) log' := by
  rw [HessianModel.isExact, here.source] at source
  refine conclude_keeps (Query.logging_clock combined room.isNone log') ratio ?_
  intro status _
  refine checkpoint_logs ?_ (made.counts here.counted) (made.source.trans here.source)
  rw [made.logged]
  refine .turn here.follows products gradients accepted _ source most fetched ?_ ?_
  · exact congrArg (· + 1) (made.iteration.trans here.iteration)
  · exact made.steps.trans (congrArg (· + accepted.toNat) here.steps)

/-- **The log of a loop.** From a state between two iterations, every path follows the protocol to its
end. -/
theorem loop_logs (st : Setting α n) (fuel : Nat) (p : Progress α S n) (log : List (Event α))
    (here : ∃ last, p.Resumes st.options.combinedEvaluation room log last) :
    (st.loop fuel p).Keeps (Query.logging st.options.combinedEvaluation room.isNone)
      (fun p' log' => p'.report.Ends st.options.combinedEvaluation room.isNone log' ∧
        p'.state.model.capacity? = room) log := by
  have stops : ∀ {p : Progress α S n} {log : List (Event α)} {last : Report α},
      p.Resumes st.options.combinedEvaluation room log last →
        p.report.Ends st.options.combinedEvaluation room.isNone log ∧
          p.state.model.capacity? = room :=
    fun here => ⟨(Closes.between here.follows _ here.iteration here.steps).ends here.counted,
      here.source⟩
  induction fuel generalizing p log with
  | zero =>
      obtain ⟨last, here⟩ := here
      unfold loop
      split
      · exact stops here
      · trivial
  | succ fuel ih =>
      obtain ⟨last, here⟩ := here
      unfold loop
      split
      · exact stops here
      · refine (iterate_logs st p).bind ?_
        intro turn log' logged
        cases turn with
        | halted p' => exact logged.ends here
        | judged p' ratio =>
            cases logged with
            | judged products gradients accepted _ _ _ source most fetched made =>
                exact (conclude_logs here source most fetched made ratio).bind ih

end Setting

omit [Scalar α] in
theorem askStart_logs {combined exact : Bool} (options : Options α) (x out : Vec α n) :
    (askStart options x out).Keeps (Query.logging combined exact)
      (fun _ log => log = (valueCall options.combinedEvaluation ::
        gradientCalls options.combinedEvaluation 1).map .call) [] := by
  unfold askStart
  cases together : options.combinedEvaluation with
  | true => exact ⟨trivial, fun _ _ => rfl⟩
  | false => exact ⟨trivial, fun _ _ => ⟨trivial, fun _ _ => rfl⟩⟩

namespace SolverState

variable (state : SolverState α S n) (options : Options α) (box : Box α n) (start : Vec α n)
  (fuel : Nat)

/-- The start is evaluated and shown. -/
theorem begin_logs :
    (state.begin options box start fuel).Keeps
      (Query.logging options.combinedEvaluation state.model.isExact)
      (fun out log => out.1.options = options ∧
        ∃ last, out.2.Resumes options.combinedEvaluation state.model.capacity? log last) [] := by
  unfold begin
  simp only [Dialogue.keeps_bind, Dialogue.keeps_remarkWhen, Dialogue.keeps_remark,
    Dialogue.keeps_pure]
  refine (askStart_logs options _ _).mono ?_
  rintro found log logged
  refine (Setting.verdict_keeps fun limit => Query.logging_clock _ _ _ limit).mono ?_
  rintro status log' ⟨same, -⟩
  subst same logged
  refine (Setting.checkpoint_logs ?_ ?_ ?_).mono ?_
  · exact .start _ rfl rfl
  · rw [callsIn_calls]
    cases options.combinedEvaluation <;> rfl
  · exact rfl
  · exact fun _ _ resumes => ⟨trivial, resumes⟩

/-- **The log of a minimization.** Every path follows the protocol, and so does every report on it. The
room for secant pairs stays what it is. -/
theorem minimize_logs :
    (state.minimize options box start fuel).Keeps
      (Query.logging options.combinedEvaluation state.model.isExact)
      (fun found log =>
        found.report.Ends options.combinedEvaluation state.model.isExact log ∧
          found.state.model.capacity? = state.model.capacity?) [] := by
  unfold minimize
  refine (begin_logs state options box start fuel).bind ?_
  rintro ⟨st, p⟩ log ⟨rfl, resumes⟩
  exact (Setting.loop_logs st fuel p log resumes).bind fun _ _ ends => ends

end SolverState

end Runs

/-! ## Checked minimizations -/

omit [Scalar α] in
/-- The log after some more questions. -/
theorem foldl_events (asked : List (Query α n)) (log : List (Event α)) :
    asked.foldl Query.enter log = log ++ asked.filterMap Query.event? := by
  induction asked generalizing log with
  | nil => exact (List.append_nil log).symm
  | cons q asked ih =>
      rw [List.foldl_cons, ih, Query.enter, List.append_assoc]
      cases event : q.event? with
      | none => rw [List.filterMap_cons_none event, Option.toList_none, List.nil_append]
      | some e => rw [List.filterMap_cons_some event, Option.toList_some, List.singleton_append]

theorem SolverState.resize_capacity (state : SolverState α S n) (m : Nat) :
    (state.resize m).model.capacity? = state.model.capacity? := by
  unfold resize
  split
  · rename_i same
    subst same
    rfl
  · cases model : state.model <;> rfl

theorem Solver.solve_logs {solver : Solver α S} {p : Problem α} {dom : Domain α} {x : Array α}
    {fuel : Nat} {d : SolverDialogue α dom.dim (Minimum α S dom.dim)}
    (made : solver.solve p dom x fuel = .ok d) :
    d.Keeps (Query.logging solver.options.combinedEvaluation solver.state.model.isExact)
      (fun found log => found.report.Ends solver.options.combinedEvaluation
          solver.state.model.isExact log ∧
        found.state.model.capacity? = solver.state.model.capacity?) [] := by
  refine solve_keeps (fun start _ => ?_) made
  have logs := (solver.state.resize dom.dim).minimize_logs solver.options dom.box start fuel
  rwa [HessianModel.isExact, SolverState.resize_capacity] at logs

/-- **The evaluations of a minimization.** Every report that is shown counts the calls before it, and the
calls up to there follow the protocol; so does the last report, with all calls. This holds on every path
that the answers can take and hence in every run. -/
theorem Solver.solve_counts (solver : Solver α S) (p : Problem α) (dom : Domain α) (x : Array α)
    (fuel : Nat) :
    let combined := solver.options.combinedEvaluation
    let exact := solver.state.model.isExact
    (∀ d, solver.solve p dom x fuel = .ok d →
      d.Keeps (Query.logging combined exact) (fun found log => found.report.Ends combined exact log)
        []) ∧
    ∀ {ω : Type} (observer : Observer α ω) (clock : Clock ω) (w : ω)
      (solution : Solution α S ω dom.dim),
      solver.run p dom x observer clock fuel w = .ok (.ok solution) →
        (∀ before y g report after,
          solution.transcript.asked.toList = before ++ .observe y g report :: after →
            Follows combined exact (before.filterMap Query.event? ++ [.shown report]) report ∧
            report.Counts exact (before.filterMap Query.event?)) ∧
        solution.report.Ends combined exact
          (solution.transcript.asked.toList.filterMap Query.event?) := by
  intro combined exact
  have kept : ∀ d, solver.solve p dom x fuel = .ok d →
      d.Keeps (Query.logging combined exact) (fun found log => found.report.Ends combined exact log)
        [] := fun d made => (solve_logs made).mono fun _ _ ends => ends.1
  refine ⟨kept, ?_⟩
  intro ω observer clock w solution ran
  obtain ⟨d, found, made, went, -, report, -⟩ := run_ok ran
  have entered : ∀ log (q : Query α dom.dim) a,
      (Query.logging combined exact).next log q a = Query.enter log q :=
    fun _ _ _ => rfl
  obtain ⟨asked, listed, shown, ends⟩ :=
    (kept d made).run_record (fun _ _ _ _ _ _ => trivial) entered went
  have all : solution.transcript.asked.toList = asked := listed
  rw [all, ← report]
  constructor
  · intro before y g report after split
    have promised := shown before (.observe y g report) after split
    rw [foldl_events] at promised
    exact promised
  · rwa [foldl_events] at ends

/-- The run of the sphere on a box: the start, and one iteration whose step is accepted. The observer
sees the counts of both. -/
theorem solve_counts_cappedSphere :
    (∃ d, cappedSphereSolver.solve cappedSphere cappedSphere.domain #[5] 9 = .ok d ∧
      d.Keeps (Query.logging false true) (fun found log => found.report.Ends false true log) []) ∧
    ∃ solution, cappedSphereSolver.run cappedSphere cappedSphere.domain #[5] .silent
        .stopped 9 () = .ok (.ok solution) ∧
      callsIn (solution.transcript.asked.toList.filterMap Query.event?) =
        [.value, .gradient, .product, .product, .value, .gradient] ∧
      (∀ before y g report after,
        solution.transcript.asked.toList = before ++ .observe y g report :: after →
          Follows false true (before.filterMap Query.event? ++ [.shown report]) report ∧
          report.Counts true (before.filterMap Query.event?)) ∧
      solution.report.Ends false true
        (solution.transcript.asked.toList.filterMap Query.event?) := by
  have counts := cappedSphereSolver.solve_counts cappedSphere cappedSphere.domain #[5] 9
  obtain ⟨d, made⟩ : ∃ d, cappedSphereSolver.solve cappedSphere cappedSphere.domain #[5] 9 = .ok d :=
    ⟨_, rfl⟩
  refine ⟨⟨d, made, counts.1 d made⟩, ?_⟩
  have ends : ((cappedSphereSolver.run cappedSphere cappedSphere.domain #[5] .silent
      .stopped 9 ()).toOption.bind Except.toOption).any (fun solution =>
        callsIn (solution.transcript.asked.toList.filterMap Query.event?) =
          [.value, .gradient, .product, .product, .value, .gradient]) := by
    decide +kernel
  obtain ⟨solution, ran, calls⟩ := exists_solution_of_any ends
  exact ⟨solution, ran, of_decide_eq_true calls, counts.2 _ _ _ _ ran⟩

end BoxNewton
