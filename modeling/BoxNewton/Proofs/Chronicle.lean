import Mathlib
import BoxNewton.Proofs.Evaluation
import BoxNewton.Proofs.Run

/-!
# Chronicles

What a minimization did is more than what it returns. A chronicle has one episode for each iteration: the
state that the iteration started from, what its trial step was judged by, if it came to one, and how it
ended (`Episode`). It is kept by iterations that attempt and settle as they always do, and write down what
was attempted; forgetting what was written gives back the iteration (`Setting.iterateRecorded_turn`), the
loop (`Setting.loop_add`) and the minimization (`SolverState.minimizeRecorded_found`). So every run has a
chronicle (`Solver.exists_chronicle`), and what is shown of the chronicles on all paths is shown of every
run.

The first iterations of a loop have a chronicle too (`Setting.opening`), whether or not the loop comes to
an end. What every iteration adds to a description of the episodes so far holds after any number of them
(`Setting.opening_rule`). Some descriptions are of each judgement by itself (`SolverState.EachTurn`). What
is shown of a judgement from an invariant, with what the two inversions of an iteration know, holds of
every judgement after a start with the invariant (`Setting.eachTurn_rule`).

An episode holds together (`Setting.Records`): the trial step is the end of the refinement, the
iterations of the refinement have been counted, and an accepted step is what the model of the Hessian has
learnt from.
-/

set_option autoImplicit false

namespace BoxNewton

open Dialogue (Contract keeps_free)

variable {α : Type} [Scalar α] {S : Subsolver α} {n : Nat} {σ : Type}

/-! ## Episodes -/

/-- What an iteration went through. -/
structure Episode (α : Type) (S : Subsolver α) (n : Nat) where
  start : Progress α S n
  /-- What the trial step was judged by. There is none if the length of the Cauchy step underflowed. -/
  assessment : Option (Assessment α S n)
  turn : Turn α S n

/-- What a trial step is judged by, if an attempt came to one. -/
def Attempt.assessment {α : Type} {S : Subsolver α} {n : Nat} :
    Attempt α S n → Option (Assessment α S n)
  | .underflow _ => none
  | .tried a => some a

/-- Whether a step was accepted. -/
def Turn.accepts (o : RegionOptions α) : Turn α S n → Bool
  | .halted _ => false
  | .judged _ ratio => decide (o.acceptFrom ≤ ratio)

/-- An iteration whose step was accepted has moved. -/
theorem Setting.Outcome.moves {st : Setting α n} {c : Contract (Query α n) Query.Reply σ} {s : σ}
    {trial : Vec α n → Prop} {p : Progress α S n} {turn : Turn α S n}
    (outcome : st.Outcome c s trial p turn) (accepted : turn.accepts st.options.region = true) :
    st.Moves c s trial p turn.progress := by
  cases outcome with
  | halted p' stands status => cases accepted
  | rejected p' ratio stands low => exact absurd (of_decide_eq_true accepted) low
  | accepted p' ratio moves high => exact moves

/-- The number of subsolver iterations in the refinement of an episode, if there was one. -/
def Episode.innerIterations {α : Type} {S : Subsolver α} {n : Nat} (e : Episode α S n) : Nat :=
  (e.assessment.map fun a => a.refined.iterations).getD 0

/-- The model of the Hessian after an accepted step. -/
def HessianModel.learnt (model : HessianModel α n) (pair : SecantPair α n) : HessianModel α n :=
  match model with
  | exact => exact
  | secant memory => secant (memory.push pair).2

namespace Setting

/-- One iteration, written down. -/
def iterateRecorded (st : Setting α n) (p : Progress α S n) : SolverDialogue α n (Episode α S n) := do
  let tried ← st.attempt p
  return ⟨p, tried.assessment, ← st.settle tried⟩

/-- Writing an iteration down changes nothing about it. -/
theorem iterateRecorded_turn (st : Setting α n) (p : Progress α S n) :
    Episode.turn <$> st.iterateRecorded p = st.iterate p := by
  simp only [iterateRecorded, iterate, map_eq_pure_bind, bind_assoc, pure_bind, bind_pure]

end Setting

/-! ## How an episode holds together -/

theorem HessianModel.learn_learnt {c : Contract (Query α n) Query.Reply σ} {s : σ}
    (model : HessianModel α n) (pair : SecantPair α n) :
    (model.learn pair).Keeps c (fun m s' => s' = s ∧ m = model.learnt pair) s := by
  cases model with
  | exact => exact ⟨rfl, rfl⟩
  | secant memory =>
      simp only [learn, Dialogue.keeps_bind, Dialogue.keeps_remarkWhen]
      exact ⟨rfl, rfl⟩

/-- What a judgement takes over from the state and the step that it judges. -/
structure Turn.Carries (turn : Turn α S n) (o : RegionOptions α) (p : Progress α S n)
    (t : Setting.TrialStep α n) : Prop where
  length : turn.progress.state.cauchyLength = p.state.cauchyLength
  inner : turn.progress.innerIterations = p.innerIterations
  kept : turn.accepts o = false → p.Stands turn.progress
  moved : turn.accepts o = true → turn.progress.x = t.point
  value : turn.accepts o = true → turn.progress.value = t.value
  learnt : turn.accepts o = true →
    turn.progress.state.model = p.state.model.learnt ⟨t.step, turn.progress.g - p.g⟩

/-- An episode from a state whose parts belong together. -/
inductive Setting.Records (st : Setting α n) (p : Progress α S n) : Episode α S n → Prop where
  | underflow (p' : Progress α S n) (inner : p'.innerIterations = p.innerIterations)
      (stands : p.Stands p') : Records st p ⟨p, none, .halted p'⟩
  | assessed (a : Assessment α S n) (turn : Turn α S n) (stands : p.Stands a.state)
      (inner : a.state.innerIterations = p.innerIterations + a.refined.iterations)
      (point : a.step.point = a.refined.x) (step : a.step.step = a.refined.s)
      (model : a.step.model = ModelValue.ofImage p.g a.refined.s a.refined.hs)
      (carries : turn.Carries st.options.region a.state a.step) : Records st p ⟨p, some a, turn⟩

namespace Setting

variable {st : Setting α n} {p : Progress α S n}

theorem Records.start {e : Episode α S n} (records : st.Records p e) : e.start = p := by
  cases records <;> rfl

/-- What is judged is the step of the refinement. -/
theorem Records.step {e : Episode α S n} (records : st.Records p e) {a : Assessment α S n}
    (judged : a ∈ e.assessment) : a.step.step = a.refined.s := by
  cases records with
  | underflow p' inner stands => cases judged
  | assessed a' turn stands inner point step model carries =>
      cases judged
      exact step

/-- The iterations of the refinement have been counted. -/
theorem Records.inner {e : Episode α S n} (records : st.Records p e) :
    e.turn.progress.innerIterations = p.innerIterations + e.innerIterations := by
  cases records with
  | underflow p' inner stands => exact inner
  | assessed a turn stands inner point step model carries => exact carries.inner.trans inner

theorem Records.stands {e : Episode α S n} (records : st.Records p e)
    (kept : e.turn.accepts st.options.region = false) : p.Stands e.turn.progress := by
  cases records with
  | underflow p' inner stands => exact stands
  | assessed a turn stands inner point step model carries => exact stands.trans (carries.kept kept)

theorem acceptedGradient_carries (y : Vec α n) (judged : Option (Vec α n)) :
    (st.acceptedGradient p y judged).Keeps .free (fun out _ => out.2.state = p.state ∧
      out.2.g = p.g ∧ out.2.innerIterations = p.innerIterations) () := by
  unfold acceptedGradient
  cases judged with
  | some g => exact ⟨rfl, rfl, rfl⟩
  | none =>
      cases st.options.combinedEvaluation with
      | true => exact ⟨rfl, rfl, rfl⟩
      | false => exact ⟨trivial, fun g _ => ⟨rfl, rfl, rfl⟩⟩

theorem judge_carries (t : TrialStep α n) :
    (st.judge p t).Keeps .free (fun turn _ => turn.Carries st.options.region p t) () := by
  unfold judge
  refine (keeps_free _).bind ?_
  rintro ⟨rated, gradients⟩ _ _
  cases rated with
  | none => exact ⟨rfl, rfl, fun _ => ⟨rfl, rfl, rfl, rfl, rfl, rfl⟩, nofun, nofun, nofun⟩
  | some rating =>
      refine (updateRadius_keeps rating.region _).bind ?_
      rintro region _ ⟨-, revised⟩
      have ratio : region.ratio = rating.region.ratio := by rw [revised, TrustRegion.revised_ratio]
      split
      · rename_i accepts
        have high : st.options.region.acceptFrom ≤ rating.region.ratio := ratio ▸ accepts
        have accepted : decide (st.options.region.acceptFrom ≤ rating.region.ratio) ≠ false :=
          fun low => of_decide_eq_false low high
        simp only [accept, Dialogue.keeps_bind, Dialogue.keeps_remark, Dialogue.keeps_pure]
        refine (acceptedGradient_carries t.point rating.gradient).mono ?_
        rintro ⟨g, q⟩ _ ⟨state, before, inner⟩
        dsimp only at state before inner
        refine (HessianModel.learn_learnt q.state.model ⟨t.step, g - q.g⟩).mono ?_
        rintro model _ ⟨-, rfl⟩
        rw [state, before]
        exact ⟨rfl, inner, fun low => absurd low accepted, fun _ => rfl, fun _ => rfl, fun _ => rfl⟩
      · rename_i refuses
        have low : ¬ st.options.region.acceptFrom ≤ rating.region.ratio := ratio ▸ refuses
        have rejected : decide (st.options.region.acceptFrom ≤ rating.region.ratio) ≠ true :=
          fun high => low (of_decide_eq_true high)
        exact ⟨rfl, rfl, fun _ => ⟨rfl, rfl, rfl, rfl, rfl, rfl⟩, fun high => absurd high rejected,
          fun high => absurd high rejected, fun high => absurd high rejected⟩

theorem evaluate_carries (y : Vec α n) :
    (st.evaluate p y).Keeps .free (fun out _ => p.Stands out.2 ∧
      out.2.innerIterations = p.innerIterations) () := by
  unfold evaluate
  cases st.options.combinedEvaluation with
  | true => exact ⟨trivial, fun a _ => ⟨⟨rfl, rfl, rfl, rfl, rfl, rfl⟩, rfl⟩⟩
  | false => exact ⟨trivial, fun a _ => ⟨⟨rfl, rfl, rfl, rfl, rfl, rfl⟩, rfl⟩⟩

/-- **An episode holds together**, on every path of the iteration. -/
theorem iterateRecorded_records (st : Setting α n) (p : Progress α S n) :
    (st.iterateRecorded p).Keeps .free (fun e _ => st.Records p e) () := by
  unfold iterateRecorded attempt
  simp only [Dialogue.keeps_bind]
  refine (keeps_free _).mono ?_
  rintro ⟨found, products⟩ _ _
  cases found with
  | underflow length image => exact .underflow _ rfl ⟨rfl, rfl, rfl, rfl, rfl, rfl⟩
  | found length s image =>
      simp only [Dialogue.keeps_bind, Dialogue.keeps_pure]
      refine (keeps_free _).mono ?_
      rintro ⟨⟨status, refined⟩, products'⟩ _ _
      simp only [assess, Dialogue.keeps_bind]
      refine Dialogue.keeps_addCount _ _ ?_
      simp only [Dialogue.keeps_remark, Dialogue.keeps_pure]
      refine (evaluate_carries refined.x).mono ?_
      rintro ⟨fx, q⟩ _ ⟨stands, inner⟩
      refine (judge_carries _).mono ?_
      intro turn _ carries
      refine .assessed _ turn ⟨stands.x, stands.value, stands.g, stands.stationarity,
        stands.acceptedSteps, stands.model⟩ inner rfl rfl ?_ carries
      exact congrArg (fun g => ModelValue.ofImage g refined.s refined.hs) stands.g

variable {c : Contract (Query α n) Query.Reply σ} {s : σ} {trial : Vec α n → Prop}

/-- An episode holds together and ends as iterations end. -/
theorem iterateRecorded_keeps (permits : PermitsIteration c s p.x trial) (lands : st.Lands S trial) :
    (st.iterateRecorded p).Keeps c (fun e s' => (s' = s ∧ st.Iterates c s trial p e.turn) ∧
      st.Records p e) s := by
  have iterates := iterate_keeps (p := p) permits lands
  rw [← iterateRecorded_turn, Dialogue.keeps_map] at iterates
  exact iterates.and_free (st.iterateRecorded_records p)

/-- The trial step of an episode was made and judged as steps are. -/
theorem iterateRecorded_judges (permits : PermitsIteration c s p.x trial) (lands : st.Lands S trial) :
    (st.iterateRecorded p).Keeps c (fun e _ => ∀ a ∈ e.assessment,
      st.Tries c s trial p a.state a.step ∧ st.Judges c s a.state a.step e.turn) s := by
  refine (attempt_keeps permits lands).bind ?_
  rintro tried s' ⟨same, attempts⟩
  subst same
  cases attempts with
  | underflow p' stands region status => exact fun a none => nomatch none
  | tried a tries =>
      refine (judge_keeps (fun out => permits.gradient _ out tries.trial) tries.value tries.given).bind ?_
      rintro turn s'' ⟨-, judges⟩ a' member
      cases member
      exact ⟨tries, judges⟩

/-! ## The first iterations -/

/-- The next iterations, at most so many, with their chronicle. -/
def opening (st : Setting α n) :
    (k : Nat) → Progress α S n → SolverDialogue α n (List (Episode α S n) × Progress α S n)
  | 0, p => return ([], p)
  | k + 1, p =>
    if p.status ≠ .unknown then return ([], p)
    else do
      let e ← st.iterateRecorded p
      match e.turn with
      | .halted p => return ([e], p)
      | .judged p ratio =>
        let p ← st.conclude p ratio
        let (later, p) ← st.opening k p
        return (e :: later, p)

/-- A loop that is over does nothing. -/
theorem loop_of_ended (st : Setting α n) (m : Nat) (stopped : p.status ≠ .unknown) :
    st.loop m p = pure p := by
  unfold loop
  rw [if_pos stopped]

/-- An iteration that halts gives the reason. -/
theorem iterateRecorded_halts (st : Setting α n) (p : Progress α S n) :
    (st.iterateRecorded p).Keeps .free
      (fun e _ => ∀ p', e.turn = .halted p' → p'.status ≠ .unknown) () := by
  refine (iterateRecorded_keeps (permits_free p.x _) (st.lands_anywhere S)).mono ?_
  rintro e _ ⟨⟨-, iterates⟩, -⟩ p' halted
  rw [halted] at iterates
  cases iterates.outcome with
  | halted _ _ status => rcases status with small | flat <;> simp [*]

/-- **A loop begins with its first iterations** and goes on from there. -/
theorem loop_add (st : Setting α n) (k m : Nat) (p : Progress α S n) :
    st.loop (k + m) p = st.opening k p >>= fun out => st.loop m out.2 := by
  induction k generalizing p with
  | zero =>
      rw [Nat.zero_add]
      rfl
  | succ k ih =>
      by_cases stopped : p.status ≠ .unknown
      · rw [loop_of_ended st _ stopped, opening, if_pos stopped, pure_bind, loop_of_ended st m stopped]
      · rw [Nat.succ_add, loop, if_neg stopped, opening, if_neg stopped, ← iterateRecorded_turn,
          map_eq_pure_bind, bind_assoc, bind_assoc]
        refine (st.iterateRecorded_halts p).bind_congr ?_
        rintro ⟨_, _, turn⟩ ends
        cases turn with
        | halted q =>
            have stopped : q.status ≠ .unknown := ends q rfl
            simp only [pure_bind]
            exact (loop_of_ended st m stopped).symm
        | judged q ratio => simp only [pure_bind, bind_assoc, ih]

/-- **From one iteration to the first iterations.** A description of the episodes so far that every
iteration keeps holds after any number of iterations. -/
theorem opening_rule (invariant : List (Episode α S n) → Progress α S n → σ → Prop)
    (goes : ∀ before p s, invariant before p s → p.status = .unknown →
      (st.iterateRecorded p).Keeps c (fun e s' =>
        (∀ p', e.turn = .halted p' → invariant (before ++ [e]) p' s') ∧
        ∀ p' ratio, e.turn = .judged p' ratio →
          (st.conclude p' ratio).Keeps c (invariant (before ++ [e])) s') s) :
    ∀ (k : Nat) (before : List (Episode α S n)) (p : Progress α S n) (s : σ), invariant before p s →
      (st.opening k p).Keeps c (fun out s' => invariant (before ++ out.1) out.2 s') s := by
  intro k
  induction k with
  | zero =>
      intro before p s here
      rw [← List.append_nil before] at here
      exact here
  | succ k ih =>
      intro before p s here
      unfold opening
      split
      · rw [← List.append_nil before] at here
        exact here
      · rename_i going
        refine (goes before p s here (not_not.1 going)).bind ?_
        rintro ⟨start, assessment, turn⟩ s' ⟨halts, shown⟩
        cases turn with
        | halted q => exact halts q rfl
        | judged q ratio =>
            refine (shown q ratio rfl).bind ?_
            intro q' s'' here
            refine (ih _ q' s'' here).bind ?_
            rintro ⟨later, last⟩ s''' ends
            rw [List.append_assoc, List.singleton_append] at ends
            exact ends

end Setting

/-- The trial step of an episode, if it came to one, is as described: a description relates the state
before the iteration, the step and what became of it. -/
def Episode.IsDescribed (describes : Progress α S n → Setting.TrialStep α n → Turn α S n → Prop)
    (e : Episode α S n) : Prop :=
  ∀ a ∈ e.assessment, describes e.start a.step e.turn

namespace Setting

variable {st : Setting α n} {c : Contract (Query α n) Query.Reply σ} {trial : Vec α n → Prop}

/-- **From one judgement to every judgement of a run.** -/
theorem eachTurn_rule {describes : Progress α S n → TrialStep α n → Turn α S n → Prop}
    (invariant : Progress α S n → σ → Prop)
    (permits : ∀ p s, invariant p s → PermitsIteration c s p.x trial) (lands : st.Lands S trial)
    (clock : ∀ s limit, c.Allows s (.outOfTime limit))
    (described : ∀ p p' t turn s, invariant p s → st.Tries c s trial p p' t →
      st.Judges c s p' t turn → describes p t turn)
    (shown : ∀ p p' ratio s status, invariant p s → st.Iterates c s trial p (.judged p' ratio) →
      (status = .firstOrder → p'.stationarity ≤ st.tolerance) →
        (st.checkpoint { p' with iteration := p'.iteration + 1, status }).Keeps c invariant s)
    (k : Nat) (p : Progress α S n) (s : σ) (here : invariant p s) :
    (st.opening k p).Keeps c (fun out _ => ∀ e ∈ out.1, e.IsDescribed describes) s := by
  refine (opening_rule (fun before p s => (∀ e ∈ before, e.IsDescribed describes) ∧
    (p.status = .unknown → invariant p s)) ?_ k [] p s ⟨by simp, fun _ => here⟩).mono
      fun out s ends => ends.1
  rintro before p s ⟨told, goes⟩ going
  have here := goes going
  refine ((iterateRecorded_keeps (permits p s here) lands).and
    (iterateRecorded_judges (permits p s here) lands)).mono ?_
  rintro e s' ⟨⟨⟨same, iterates⟩, records⟩, judged⟩
  subst same
  have tells : ∀ e' ∈ before ++ [e], e'.IsDescribed describes := by
    intro e' member
    rcases List.mem_append.1 member with earlier | last
    · exact told e' earlier
    · obtain rfl := List.mem_singleton.1 last
      intro a member
      obtain ⟨tries, judges⟩ := judged a member
      exact records.start ▸ described p a.state a.step e'.turn s' here tries judges
  refine ⟨?_, ?_⟩
  · intro p' halted
    refine ⟨tells, fun unknown => ?_⟩
    rw [halted] at iterates
    cases iterates.outcome with
    | halted _ stands status => rcases status with small | flat <;> simp_all
  · intro p' ratio judged
    rw [judged] at iterates
    exact (conclude_keeps (clock s') ratio fun status reached =>
      shown p p' ratio s' status here iterates reached).mono fun q s'' holds => ⟨tells, fun _ => holds⟩

theorem exists_eval_verdict (answer : (q : Query α n) → q.Reply) (st : Setting α n)
    (p : Progress α S n) : ∃ status, (st.verdict p).eval answer = some status := by
  unfold verdict
  split
  · exact ⟨_, rfl⟩
  · split
    · exact ⟨_, rfl⟩
    · split
      · exact ⟨_, rfl⟩
      · simp only [Query.askTime, Dialogue.eval_bind, Dialogue.eval_question, Option.bind_some]
        split
        · exact ⟨_, rfl⟩
        · split <;> exact ⟨_, rfl⟩

/-- What comes between two iterations comes to an end. -/
theorem exists_eval_conclude (answer : (q : Query α n) → q.Reply) (st : Setting α n)
    (p : Progress α S n) (ratio : α) : ∃ q, (st.conclude p ratio).eval answer = some q := by
  obtain ⟨status, decided⟩ := exists_eval_verdict answer st { p with iteration := p.iteration + 1 }
  simp only [conclude, checkpoint, Query.askObserver, Dialogue.eval_bind, decided, Option.bind_some,
    Dialogue.eval_remarkWhen, Dialogue.eval_question, Dialogue.eval_pure]
  exact ⟨_, rfl⟩

end Setting

/-! ## Whole minimizations -/

/-- A minimization, written down. -/
def SolverState.minimizeRecorded (st : SolverState α S n) (options : Options α) (box : Box α n)
    (start : Vec α n) (fuel : Nat) :
    SolverDialogue α n (List (Episode α S n) × Minimum α S n) := do
  let (setting, p) ← st.begin options box start fuel
  let (episodes, p) ← setting.opening fuel p
  let p ← setting.loop 0 p
  Dialogue.remark (.finished p.iteration p.status)
  return (episodes, { x := p.x, report := p.report, state := { p.state with buffers.gradient := p.g } })

/-- Writing a minimization down changes nothing about it. -/
theorem SolverState.minimizeRecorded_found (st : SolverState α S n) (options : Options α)
    (box : Box α n) (start : Vec α n) (fuel : Nat) :
    Prod.snd <$> st.minimizeRecorded options box start fuel =
      st.minimize options box start fuel := by
  unfold minimizeRecorded minimize
  rw [map_eq_pure_bind, bind_assoc]
  refine congrArg _ (funext fun out => ?_)
  obtain ⟨setting, p⟩ := out
  have loop := setting.loop_add fuel 0 p
  rw [Nat.add_zero] at loop
  simp only [loop, bind_assoc, pure_bind]

/-- What holds after any number of first iterations holds at the end. -/
theorem SolverState.minimizeRecorded_keeps {st : SolverState α S n} {options : Options α}
    {box : Box α n} {start : Vec α n} {fuel : Nat} {c : Contract (Query α n) Query.Reply σ} {s : σ}
    {post : List (Episode α S n) × Minimum α S n → σ → Prop}
    (kept : (st.begin options box start fuel).Keeps c (fun out s =>
      (out.1.opening fuel out.2).Keeps c (fun ended s => ended.2.status ≠ .unknown →
        post (ended.1, ⟨ended.2.x, ended.2.report,
          { ended.2.state with buffers.gradient := ended.2.g }⟩) s) s) s) :
    (st.minimizeRecorded options box start fuel).Keeps c post s := by
  unfold minimizeRecorded
  refine kept.bind ?_
  rintro ⟨setting, p⟩ s' opened
  refine opened.bind ?_
  rintro ⟨episodes, last⟩ s'' ended
  dsimp only at ended ⊢
  by_cases stopped : last.status ≠ .unknown
  · rw [setting.loop_of_ended 0 stopped]
    exact ended stopped
  · rw [Setting.loop, if_neg stopped]
    trivial

/-- Holds when the first iterations of a minimization, however many, are as described, whether or not the
minimization comes to an end. -/
def SolverState.Throughout (state : SolverState α S n) (options : Options α) (box : Box α n)
    (start : Vec α n) (fuel : Nat) (c : Contract (Query α n) Query.Reply σ)
    (describes : List (Episode α S n) → Progress α S n → Prop) (s : σ) : Prop :=
  (state.begin options box start fuel).Keeps c (fun out s => ∀ k,
    (out.1.opening k out.2).Keeps c (fun ended _ => describes ended.1 ended.2) s) s

/-- What holds throughout a minimization holds at its end. -/
theorem SolverState.Throughout.minimizeRecorded {state : SolverState α S n} {options : Options α}
    {box : Box α n} {start : Vec α n} {fuel : Nat} {c : Contract (Query α n) Query.Reply σ}
    {describes : List (Episode α S n) → Progress α S n → Prop} {s : σ}
    (throughout : state.Throughout options box start fuel c describes s) :
    (state.minimizeRecorded options box start fuel).Keeps c (fun out _ => ∃ last,
      describes out.1 last ∧ out.2 = ⟨last.x, last.report,
        { last.state with buffers.gradient := last.g }⟩) s := by
  refine minimizeRecorded_keeps (Dialogue.Keeps.mono throughout ?_)
  intro out s' described
  exact (described fuel).mono fun ended _ here _ => ⟨ended.2, here, rfl⟩

/-- Holds when every judgement of a minimization is as described, whether or not the minimization comes to an
end. -/
def SolverState.EachTurn (state : SolverState α S n) (options : Options α) (box : Box α n)
    (start : Vec α n) (fuel : Nat) (c : Contract (Query α n) Query.Reply σ)
    (describes : Progress α S n → Setting.TrialStep α n → Turn α S n → Prop) (s : σ) : Prop :=
  state.Throughout options box start fuel c (fun episodes _ => ∀ e ∈ episodes, e.IsDescribed describes) s

/-- What holds of every judgement holds of the first one, for answers that are as relied on. -/
theorem SolverState.EachTurn.first {state : SolverState α S n} {options : Options α} {box : Box α n}
    {start : Vec α n} {fuel : Nat} {c : Contract (Query α n) Query.Reply σ}
    {describes : Progress α S n → Setting.TrialStep α n → Turn α S n → Prop} {s : σ}
    (each : state.EachTurn options box start fuel c describes s)
    {answer : (q : Query α n) → q.Reply} (relied : ∀ s q, c.relies s q (answer q))
    {st : Setting α n} {p : Progress α S n} {a : Assessment α S n} {turn : Turn α S n}
    (began : (state.begin options box start fuel).eval answer = some (st, p))
    (going : p.status = .unknown) (tried : (st.attempt p).eval answer = some (.tried a))
    (judged : (st.judge a.state a.step).eval answer = some turn) : describes p a.step turn := by
  obtain ⟨s₁, described⟩ := Dialogue.Keeps.eval relied each began
  have opened : ∃ last, (st.opening 1 p).eval answer = some ([⟨p, some a, turn⟩], last) := by
    rw [Setting.opening, if_neg (not_not.2 going), Setting.iterateRecorded]
    simp only [Dialogue.eval_bind, tried, Option.bind_some, Attempt.assessment, Setting.settle, judged,
      Dialogue.eval_pure]
    cases turn with
    | halted q => exact ⟨q, rfl⟩
    | judged q ratio =>
        obtain ⟨last, concluded⟩ := Setting.exists_eval_conclude answer st q ratio
        refine ⟨last, ?_⟩
        simp only [Dialogue.eval_bind, concluded, Option.bind_some]
        rfl
  obtain ⟨last, opened⟩ := opened
  obtain ⟨s₂, each⟩ := (described 1).eval relied opened
  exact each _ List.mem_cons_self a rfl

/-- The episodes are those of a run that has ended with a solution. -/
def Solver.HasChronicle {ω : Type} (solver : Solver α S) (p : Problem α) (dom : Domain α)
    (x : Array α) (observer : Observer α ω) (clock : Clock ω) (fuel : Nat) (w : ω)
    (solution : Solution α S ω dom.dim) (episodes : List (Episode α S dom.dim)) : Prop :=
  ∃ (start : Vec α dom.dim) (found : Minimum α S dom.dim), start.toArray = x ∧
    ((solver.state.resize dom.dim).minimizeRecorded solver.options dom.box start fuel).run
      (p.objective.answer observer clock) w {} =
        .ok ((episodes, found), solution.world, solution.transcript) ∧
    found.x.toArray = solution.x ∧ found.report = solution.report ∧
    solution.solver = ⟨solver.options, dom.dim, found.state⟩

/-- **Every run has a chronicle.** -/
theorem Solver.exists_chronicle {ω : Type} {solver : Solver α S} {p : Problem α} {dom : Domain α}
    {x : Array α} {observer : Observer α ω} {clock : Clock ω} {fuel : Nat} {w : ω}
    {solution : Solution α S ω dom.dim}
    (ran : solver.run p dom x observer clock fuel w = .ok (.ok solution)) :
    ∃ episodes, solver.HasChronicle p dom x observer clock fuel w solution episodes := by
  obtain ⟨d, found, made, went, same, report, after⟩ := run_ok ran
  obtain ⟨-, start, at_start, rfl⟩ := solve_ok made
  rw [← SolverState.minimizeRecorded_found] at went
  obtain ⟨⟨episodes, found'⟩, here, recorded⟩ := Dialogue.exists_run_of_map went
  subst here
  exact ⟨episodes, start, found', at_start, recorded, same, report, after⟩

/-- A run has one chronicle only. -/
theorem Solver.HasChronicle.unique {ω : Type} {solver : Solver α S} {p : Problem α} {dom : Domain α}
    {x : Array α} {observer : Observer α ω} {clock : Clock ω} {fuel : Nat} {w : ω}
    {solution : Solution α S ω dom.dim} {episodes episodes' : List (Episode α S dom.dim)}
    (chronicle : solver.HasChronicle p dom x observer clock fuel w solution episodes)
    (chronicle' : solver.HasChronicle p dom x observer clock fuel w solution episodes') :
    episodes = episodes' := by
  obtain ⟨start, found, rfl, went, -⟩ := chronicle
  obtain ⟨start', found', same, went', -⟩ := chronicle'
  obtain rfl := Vector.toArray_inj.1 same
  rw [went] at went'
  cases went'
  rfl

/-- A minimization that comes to something in a world whose answers do not change is a run there, with the
episodes that were written down. -/
theorem Solver.exists_hasChronicle {ω : Type} {solver : Solver α S} {p : Problem α} {dom : Domain α}
    {start : Vec α dom.dim} {observer : Observer α ω} {clock : Clock ω} {fuel : Nat}
    {answer : (q : Query α dom.dim) → q.Reply}
    (answers : ∀ q w, p.objective.answer observer clock q w = .ok (answer q, w))
    (made : solver.solve p dom start.toArray fuel =
      .ok ((solver.state.resize dom.dim).minimize solver.options dom.box start fuel))
    {episodes : List (Episode α S dom.dim)} {found : Minimum α S dom.dim}
    (ended : ((solver.state.resize dom.dim).minimizeRecorded solver.options dom.box start fuel).eval
      answer = some (episodes, found)) (w : ω) :
    ∃ solution, solver.run p dom start.toArray observer clock fuel w = .ok (.ok solution) ∧
      solver.HasChronicle p dom start.toArray observer clock fuel w solution episodes := by
  obtain ⟨transcript, recorded⟩ := Dialogue.run_of_eval answers ended w {}
  have plain : ((solver.state.resize dom.dim).minimize solver.options dom.box start fuel).eval answer =
      some found := by
    rw [← SolverState.minimizeRecorded_found, map_eq_pure_bind, Dialogue.eval_bind, ended]
    rfl
  obtain ⟨transcript', ran⟩ := Solver.run_of_eval answers made plain w
  refine ⟨_, ran, ?_⟩
  obtain ⟨episodes', start', found', atStart, again, x, report, after⟩ := Solver.exists_chronicle ran
  obtain rfl := Vector.toArray_inj.1 atStart
  rw [recorded] at again
  cases again
  exact ⟨start', found, rfl, recorded, x, report, after⟩

/-- What holds throughout a minimization holds of its runs, in every world that answers as relied on. -/
theorem Solver.HasChronicle.described {ω : Type} {solver : Solver α S} {p : Problem α} {dom : Domain α}
    {start : Vec α dom.dim} {observer : Observer α ω} {clock : Clock ω} {fuel : Nat} {w : ω}
    {solution : Solution α S ω dom.dim} {episodes : List (Episode α S dom.dim)}
    (chronicle : solver.HasChronicle p dom start.toArray observer clock fuel w solution episodes)
    {c : Contract (Query α dom.dim) Query.Reply Unit}
    {describes : List (Episode α S dom.dim) → Progress α S dom.dim → Prop}
    (relied : ∀ q w a w', p.objective.answer observer clock q w = .ok (a, w') → c.relies () q a)
    (throughout :
      (solver.state.resize dom.dim).Throughout solver.options dom.box start fuel c describes ()) :
    ∃ last, describes episodes last ∧ solution.x = last.x.toArray ∧ solution.report = last.report ∧
      solution.solver =
        ⟨solver.options, dom.dim, { last.state with buffers.gradient := last.g }⟩ := by
  obtain ⟨start', found, atStart, went, sameX, sameReport, sameSolver⟩ := chronicle
  obtain rfl := Vector.toArray_inj.1 atStart
  obtain ⟨-, _, -, last, described, rfl⟩ := throughout.minimizeRecorded.run
    (fun _ _ => True) (fun q _ w a w' _ answered => ⟨relied q w a w' answered, trivial⟩) trivial
    (fun q none => by simp at none) went
  exact ⟨last, described, sameX.symm, sameReport.symm, sameSolver⟩

end BoxNewton
