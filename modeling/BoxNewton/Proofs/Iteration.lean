import Mathlib
import BoxNewton.Proofs.Judgement

/-!
# What an iteration can do

An iteration asks for products at the current point and then for the objective at one trial point
(`Setting.attempt`); it ends with a judgement of the trial step, which may ask for the gradient there
(`Setting.settle`). So there are two inversions. An attempt leaves everything as it was and comes with a
trial step (`Setting.Tries`), unless the Cauchy step underflows. A judgement halts the minimization,
rejects the step or accepts it, and says how the step was rated and what became of the region
(`Setting.Judges`). Both hold for every contract that allows the questions (`Setting.iterate_keeps`). The
contract enters through what it relies on in the answers: the value and the gradient of an accepted step
are relied on, whichever question they came from (`ValueAt`, `GradientAt`).

Most of what is said about runs does not mention the region. For this an iteration has three outcomes
(`Setting.Outcome`): it halts, rejects or accepts. In the first two the point, the value, the gradient,
the stationarity, the model of the Hessian and the number of accepted steps are those that the iteration
started from (`Progress.Stands`). An accepted step moves to the trial point, with the value and the
gradient that were answered there.
-/

set_option autoImplicit false

namespace BoxNewton

open Dialogue (Contract keeps_free)

variable {α : Type} [Scalar α] {S : Subsolver α} {n : Nat} {σ : Type}

/-! ## Questions that a contract allows -/

/-- Holds when a question may be asked and, whatever the answer, leaves the record alone. -/
def Dialogue.Contract.Allows {Question : Type} {Answer : Question → Type}
    (c : Contract Question Answer σ) (s : σ) (q : Question) : Prop :=
  c.promises s q ∧ ∀ a, c.relies s q a → c.next s q a = s

/-- The contract allows the questions of an iteration from `x` with a trial point of some kind. -/
structure PermitsIteration (c : Contract (Query α n) Query.Reply σ) (s : σ) (x : Vec α n)
    (trial : Vec α n → Prop) : Prop where
  product : ∀ v out, c.Allows s (.product x v out)
  value : ∀ y, trial y → c.Allows s (.value y)
  gradient : ∀ y out, trial y → c.Allows s (.gradient y out)
  valueGradient : ∀ y out, trial y → c.Allows s (.valueGradient y out)

omit [Scalar α] in
theorem permits_free (x : Vec α n) (trial : Vec α n → Prop) :
    PermitsIteration (.free : Contract (Query α n) Query.Reply Unit) () x trial where
  product _ _ := ⟨trivial, fun _ _ => rfl⟩
  value _ _ := ⟨trivial, fun _ _ => rfl⟩
  gradient _ _ _ := ⟨trivial, fun _ _ => rfl⟩
  valueGradient _ _ _ := ⟨trivial, fun _ _ => rfl⟩

omit [Scalar α] in
theorem permits_relying (known : (q : Query α n) → q.Reply → Prop) (x : Vec α n)
    (trial : Vec α n → Prop) : PermitsIteration (.relying known) () x trial where
  product _ _ := ⟨trivial, fun _ _ => rfl⟩
  value _ _ := ⟨trivial, fun _ _ => rfl⟩
  gradient _ _ _ := ⟨trivial, fun _ _ => rfl⟩
  valueGradient _ _ _ := ⟨trivial, fun _ _ => rfl⟩

omit [Scalar α] in
theorem clock_relying (known : (q : Query α n) → q.Reply → Prop) (limit : Float) :
    (Contract.relying known).Allows () (.outOfTime limit) := ⟨trivial, fun _ _ => rfl⟩

/-- The contract relies on this value at a point. -/
def ValueAt (c : Contract (Query α n) Query.Reply σ) (s : σ) (y : Vec α n) (fy : α) : Prop :=
  c.relies s (.value y) fy ∨ ∃ out g, c.relies s (.valueGradient y out) (fy, g)

/-- The contract relies on this gradient at a point. -/
def GradientAt (c : Contract (Query α n) Query.Reply σ) (s : σ) (y g : Vec α n) : Prop :=
  (∃ out, c.relies s (.gradient y out) g) ∨ ∃ out fy, c.relies s (.valueGradient y out) (fy, g)

/-! ## Steps that are taken, and steps that are not -/

/-- What a step that is not taken leaves as it was. The region, the length of the Cauchy step, the
counters, the status, the vectors that answers are written into and the state of the subsolver are not
among it. -/
structure Progress.Stands (p p' : Progress α S n) : Prop where
  x : p'.x = p.x
  value : p'.value = p.value
  g : p'.g = p.g
  stationarity : p'.stationarity = p.stationarity
  acceptedSteps : p'.acceptedSteps = p.acceptedSteps
  model : p'.state.model = p.state.model

/-- What an accepted step leads to. -/
structure Setting.Moves (st : Setting α n) (c : Contract (Query α n) Query.Reply σ) (s : σ)
    (trial : Vec α n → Prop) (p p' : Progress α S n) : Prop where
  trial : trial p'.x
  value : ValueAt c s p'.x p'.value
  g : GradientAt c s p'.x p'.g
  stationarity : p'.stationarity = stationarityAt st.box p'.x p'.g
  acceptedSteps : p'.acceptedSteps = p.acceptedSteps + 1

omit [Scalar α] in
theorem Progress.Stands.refl (p : Progress α S n) : p.Stands p := ⟨rfl, rfl, rfl, rfl, rfl, rfl⟩

omit [Scalar α] in
theorem Progress.Stands.trans {p p' p'' : Progress α S n} (first : p.Stands p')
    (second : p'.Stands p'') : p.Stands p'' where
  x := second.x.trans first.x
  value := second.value.trans first.value
  g := second.g.trans first.g
  stationarity := second.stationarity.trans first.stationarity
  acceptedSteps := second.acceptedSteps.trans first.acceptedSteps
  model := second.model.trans first.model

/-! ## The parts of an iteration -/

section Parts

variable {c : Contract (Query α n) Query.Reply σ} {s : σ}

theorem HessianModel.answer_keeps (model : HessianModel α n) {x : Vec α n}
    (product : ∀ v out, c.Allows s (.product x v out)) (q : Product α n) (asked : Nat) :
    (model.answer x q asked).Keeps c (fun _ s' => s' = s) s := by
  cases model with
  | exact =>
      obtain ⟨promised, unmoved⟩ := product q.direction q.out
      exact ⟨promised, fun hv relied => unmoved hv relied⟩
  | secant memory => rfl

/-- Handing on the questions of a dialogue for products, whatever it does with the answers. -/
theorem HessianModel.through_keeps {β : Type} {post : β → Unit → Prop} (model : HessianModel α n)
    {x : Vec α n} (product : ∀ v out, c.Allows s (.product x v out))
    {d : OperatorDialogue α n β} (kept : d.Keeps .free post ()) (asked : Nat) :
    (d.through (model.answer x) asked).Keeps c (fun out s' => s' = s ∧ post out.1 ()) s := by
  refine (Dialogue.Keeps.through (fun _ _ s' => s' = s) (fun q _ r s' here _ => ?_) kept rfl).mono ?_
  · subst here
    exact (model.answer_keeps product q r).mono fun _ _ same => ⟨trivial, same⟩
  · rintro out s' ⟨_, here, holds⟩
    exact ⟨here, holds⟩

theorem HessianModel.learn_keeps (model : HessianModel α n) (pair : SecantPair α n) :
    (model.learn pair).Keeps c (fun _ s' => s' = s) s := by
  cases model with
  | exact => rfl
  | secant memory =>
      simp only [learn, Dialogue.keeps_bind, Dialogue.keeps_remarkWhen]
      rfl

namespace Setting

variable {st : Setting α n} {p : Progress α S n}

/-- The value at the trial point is answered there, and so is the gradient that comes with it. -/
theorem evaluate_keeps {y : Vec α n} (value : c.Allows s (.value y))
    (both : ∀ out, c.Allows s (.valueGradient y out)) :
    (st.evaluate p y).Keeps c (fun out s' => s' = s ∧ ValueAt c s y out.1 ∧
      (st.options.combinedEvaluation → GradientAt c s y out.2.state.buffers.combined) ∧
      p.Stands out.2 ∧ out.2.state.region = p.state.region) s := by
  unfold evaluate
  by_cases combined : st.options.combinedEvaluation = true
  · simp only [combined, if_true]
    refine ⟨(both _).1, fun a relied => ⟨(both _).2 a relied, ?_, fun _ => ?_, ?_, rfl⟩⟩
    · exact .inr ⟨_, _, relied⟩
    · exact .inr ⟨_, _, relied⟩
    · exact ⟨rfl, rfl, rfl, rfl, rfl, rfl⟩
  · simp only [combined]
    refine ⟨value.1, fun a relied => ⟨value.2 a relied, .inl relied, fun h => ?_, ?_, rfl⟩⟩
    · exact absurd h Bool.false_ne_true
    · exact ⟨rfl, rfl, rfl, rfl, rfl, rfl⟩

theorem gradientAtTrial_keeps {y : Vec α n} (gradient : ∀ out, c.Allows s (.gradient y out))
    (b : Buffers α n) (given : st.options.combinedEvaluation → GradientAt c s y b.combined)
    (asked : Nat) :
    (st.gradientAtTrial b y () asked).Keeps c (fun out s' => s' = s ∧ GradientAt c s y out.1) s := by
  unfold gradientAtTrial
  by_cases combined : st.options.combinedEvaluation = true
  · simp only [combined, if_true]
    exact ⟨rfl, given combined⟩
  · simp only [combined]
    exact ⟨(gradient _).1, fun a relied => ⟨(gradient _).2 a relied, .inl ⟨_, relied⟩⟩⟩

theorem acceptedGradient_keeps {y : Vec α n} (gradient : ∀ out, c.Allows s (.gradient y out))
    (given : st.options.combinedEvaluation → GradientAt c s y p.state.buffers.combined)
    {judged : Option (Vec α n)} (known : ∀ g ∈ judged, GradientAt c s y g) :
    (st.acceptedGradient p y judged).Keeps c (fun out s' => s' = s ∧ GradientAt c s y out.1 ∧
      p.Stands out.2 ∧ out.2.state.region = p.state.region) s := by
  unfold acceptedGradient
  cases judged with
  | some g => exact ⟨rfl, known g rfl, .refl p, rfl⟩
  | none =>
      by_cases combined : st.options.combinedEvaluation = true
      · simp only [combined, if_true]
        exact ⟨rfl, given combined, .refl p, rfl⟩
      · simp only [combined]
        refine ⟨(gradient _).1, fun a relied => ⟨(gradient _).2 a relied, .inl ⟨_, relied⟩, ?_⟩⟩
        exact ⟨⟨rfl, rfl, rfl, rfl, rfl, rfl⟩, rfl⟩

/-- An accepted step moves to the trial point. -/
theorem accept_keeps {t : TrialStep α n} (value : ValueAt c s t.point t.value)
    (gradient : ∀ out, c.Allows s (.gradient t.point out))
    (given : st.options.combinedEvaluation → GradientAt c s t.point p.state.buffers.combined)
    {judged : Option (Vec α n)} (known : ∀ g ∈ judged, GradientAt c s t.point g) :
    (st.accept p t judged).Keeps c (fun p' s' => s' = s ∧
      p'.state.region = p.state.region ∧ st.Moves c s (fun x => x = t.point) p p') s := by
  unfold accept
  refine (acceptedGradient_keeps gradient given known).bind ?_
  rintro out s' ⟨same, answered, stands, region⟩
  subst same
  refine (HessianModel.learn_keeps _ _).bind ?_
  intro model s' same
  subst same
  exact ⟨rfl, region, rfl, value, answered, rfl, congrArg (· + 1) stands.acceptedSteps⟩

theorem updateRadius_keeps (region : TrustRegion α) (norm : α) :
    (st.updateRadius p region norm).Keeps c (fun updated s' => s' = s ∧
      updated = region.revised st.options.region (p.acceptedSteps == 0) norm) s := by
  unfold updateRadius
  simp only [Dialogue.keeps_bind, Dialogue.keeps_remarkWhen, Dialogue.keeps_remark,
    Dialogue.keeps_pure, true_and]
  rfl

end Setting

end Parts

/-! ## An attempt -/

namespace Setting

/-- From a projected point, every refinement ends at a point of this kind. -/
def Lands (st : Setting α n) (S : Subsolver α) (trial : Vec α n → Prop) : Prop :=
  ∀ (p : Progress α S n) (start : Refinement.State α n S.State) (y : Vec α n),
    start.x = st.box.project y →
      ((st.refinement p).run S st.fuel start).Keeps .free (fun out _ => trial out.2.x) ()

theorem lands_anywhere (st : Setting α n) (S : Subsolver α) : st.Lands S fun _ => True :=
  fun _ _ _ _ => keeps_free _

/-- A trial step has been made. Nothing of what it was made from has changed. -/
structure Tries (st : Setting α n) (c : Contract (Query α n) Query.Reply σ) (s : σ)
    (trial : Vec α n → Prop) (p p' : Progress α S n) (t : TrialStep α n) : Prop where
  stands : p.Stands p'
  region : p'.state.region = p.state.region
  trial : trial t.point
  value : ValueAt c s t.point t.value
  given : st.options.combinedEvaluation → GradientAt c s t.point p'.state.buffers.combined
  model : ∃ image, t.model = ModelValue.ofImage p.g t.step image

/-- The ways in which an attempt ends. -/
inductive Attempts (st : Setting α n) (c : Contract (Query α n) Query.Reply σ) (s : σ)
    (trial : Vec α n → Prop) (p : Progress α S n) : Attempt α S n → Prop where
  | underflow (p' : Progress α S n) (stands : p.Stands p') (region : p'.state.region = p.state.region)
      (status : p'.status = .smallStep) : Attempts st c s trial p (.underflow p')
  | tried (a : Assessment α S n) (tries : st.Tries c s trial p a.state a.step) :
      Attempts st c s trial p (.tried a)

section Attempt

variable {c : Contract (Query α n) Query.Reply σ} {s : σ} {trial : Vec α n → Prop}
  {st : Setting α n} {p : Progress α S n}

/-- What is assessed is the end of the refinement. -/
theorem assess_keeps {out : (RefinementStatus × Refinement.State α n S.State) × Nat}
    (permits : PermitsIteration c s p.x trial) (here : trial out.1.2.x) :
    (st.assess p out).Keeps c (fun a s' => s' = s ∧ st.Tries c s trial p a.state a.step) s := by
  obtain ⟨⟨status, refined⟩, products⟩ := out
  unfold assess
  simp only [Dialogue.keeps_bind]
  refine Dialogue.keeps_addCount _ _ ?_
  simp only [Dialogue.keeps_remark]
  refine (evaluate_keeps (permits.value _ here)
    fun out => permits.valueGradient _ out here).mono ?_
  rintro evaluated s' ⟨same, value, given, stands, region⟩
  refine ⟨same, ⟨stands.x, stands.value, stands.g, stands.stationarity, stands.acceptedSteps,
    stands.model⟩, region, here, value, given, refined.hs, ?_⟩
  exact congrArg (fun g => ModelValue.ofImage g refined.s refined.hs) stands.g

/-- **What an attempt can do.** Every path of an attempt ends with a trial step or with an underflow. -/
theorem attempt_keeps (permits : PermitsIteration c s p.x trial) (lands : st.Lands S trial) :
    (st.attempt p).Keeps c (fun tried s' => s' = s ∧ st.Attempts c s trial p tried) s := by
  unfold attempt
  refine (HessianModel.through_keeps p.state.model permits.product (keeps_free _) 0).bind ?_
  rintro ⟨found, products⟩ s' ⟨same, -⟩
  subst same
  cases found with
  | underflow length image => exact ⟨rfl, .underflow _ ⟨rfl, rfl, rfl, rfl, rfl, rfl⟩ rfl rfl⟩
  | found length step image =>
      simp only [refineFrom, Dialogue.keeps_bind]
      refine (HessianModel.through_keeps p.state.model permits.product (lands _ _ _ rfl) products).mono ?_
      rintro out s' ⟨same, here⟩
      subst same
      refine (assess_keeps (p := { p with state.cauchyLength := length }) permits here).mono ?_
      rintro a s' ⟨same, tries⟩
      have starts : p.Stands { p with state.cauchyLength := length } :=
        ⟨rfl, rfl, rfl, rfl, rfl, rfl⟩
      exact ⟨same, .tried a { tries with stands := starts.trans tries.stands }⟩

end Attempt

end Setting

/-! ## A judgement -/

/-- The state that an iteration has led to. -/
def Turn.progress : Turn α S n → Progress α S n
  | .halted p => p
  | .judged p _ => p

/-- What is known of a trial step from a state of the minimization. -/
def Setting.TrialStep.rated (t : Setting.TrialStep α n) (p : Progress α S n) : Trial α where
  before := p.value
  after := t.value
  model := t.model.value
  slope := t.model.slope

namespace Setting

/-- The rating of a judged step, and the region after it. -/
structure Rated (st : Setting α n) (c : Contract (Query α n) Query.Reply σ) (s : σ)
    (p p' : Progress α S n) (t : TrialStep α n) (rating : Rating α n) : Prop where
  rates : TrustRegion.Rates st.options.region p.state.region (t.rated p) t.step
    (GradientAt c s t.point) (some rating)
  region : p'.state.region =
    rating.region.revised st.options.region (p.acceptedSteps == 0) t.step.norm

/-- The ways in which a trial step is judged. -/
inductive Judges (st : Setting α n) (c : Contract (Query α n) Query.Reply σ) (s : σ)
    (p : Progress α S n) (t : TrialStep α n) : Turn α S n → Prop where
  | halted (p' : Progress α S n) (flat : ¬ (t.rated p).predicted < 0) (stands : p.Stands p')
      (region : p'.state.region = p.state.region) (status : p'.status = .noPredictedDecrease) :
      Judges st c s p t (.halted p')
  | rejected (p' : Progress α S n) (rating : Rating α n) (rated : st.Rated c s p p' t rating)
      (stands : p.Stands p') (low : ¬ st.options.region.acceptFrom ≤ rating.region.ratio) :
      Judges st c s p t (.judged p' rating.region.ratio)
  | accepted (p' : Progress α S n) (rating : Rating α n) (rated : st.Rated c s p p' t rating)
      (moves : st.Moves c s (fun x => x = t.point) p p')
      (high : st.options.region.acceptFrom ≤ rating.region.ratio) :
      Judges st c s p t (.judged p' rating.region.ratio)

variable {c : Contract (Query α n) Query.Reply σ} {s : σ} {trial : Vec α n → Prop}
  {st : Setting α n} {p : Progress α S n}

/-- **What a judgement can do.** Every path of a judgement halts, rejects the step or accepts it. -/
theorem judge_keeps {t : TrialStep α n} (gradient : ∀ out, c.Allows s (.gradient t.point out))
    (value : ValueAt c s t.point t.value)
    (given : st.options.combinedEvaluation → GradientAt c s t.point p.state.buffers.combined) :
    (st.judge p t).Keeps c (fun turn s' => s' = s ∧ st.Judges c s p t turn) s := by
  unfold judge
  have rated := TrustRegion.rate_keeps st.options.region p.state.region (t.rated p) t.step
    (GradientAt c s t.point)
  refine (Dialogue.Keeps.through (fun _ _ s' => s' = s) ?_ rated rfl).bind ?_
  · intro _ _ asked s' same _
    subst same
    exact (gradientAtTrial_keeps gradient p.state.buffers given asked).mono
      fun out s' kept => ⟨kept.2, kept.1⟩
  · rintro ⟨judgement, gradients⟩ s' ⟨_, same, rates⟩
    subst same
    cases judgement with
    | none =>
        cases rates with
        | refused flat => exact ⟨rfl, .halted _ flat ⟨rfl, rfl, rfl, rfl, rfl, rfl⟩ rfl rfl⟩
    | some rating =>
        refine (updateRadius_keeps rating.region _).bind ?_
        rintro region s' ⟨same, revised⟩
        subst same
        split
        · rename_i accepts
          rw [TrustRegion.Accepts, revised, TrustRegion.revised_ratio] at accepts
          simp only [Dialogue.keeps_bind, Dialogue.keeps_pure]
          refine Dialogue.Keeps.mono
            (accept_keeps value gradient (fun combined => ?_) rates.gradient) ?_
          · exact given combined
          · rintro p' s' ⟨same, kept, moves⟩
            exact ⟨same, .accepted p' rating ⟨rates, kept.trans revised⟩
              ⟨moves.trial, moves.value, moves.g, moves.stationarity, moves.acceptedSteps⟩ accepts⟩
        · rename_i accepts
          rw [TrustRegion.Accepts, revised, TrustRegion.revised_ratio] at accepts
          exact ⟨rfl, .rejected _ rating ⟨rates, revised⟩ ⟨rfl, rfl, rfl, rfl, rfl, rfl⟩ accepts⟩

/-! ## One iteration -/

/-- The ways in which an iteration ends, with the trial step that it made. -/
inductive Iterates (st : Setting α n) (c : Contract (Query α n) Query.Reply σ) (s : σ)
    (trial : Vec α n → Prop) (p : Progress α S n) : Turn α S n → Prop where
  | underflow (p' : Progress α S n) (stands : p.Stands p')
      (region : p'.state.region = p.state.region) (status : p'.status = .smallStep) :
      Iterates st c s trial p (.halted p')
  | settled (p' : Progress α S n) (t : TrialStep α n) (turn : Turn α S n)
      (tries : st.Tries c s trial p p' t) (judges : st.Judges c s p' t turn) :
      Iterates st c s trial p turn

/-- What holds of the region, and of the region revised after any rating of it, holds after an
iteration. -/
theorem Iterates.region {turn : Turn α S n} {holds : TrustRegion α → Prop}
    (iterates : st.Iterates c s trial p turn) (before : holds p.state.region)
    (revised : ∀ (t : Trial α) (step : Vec α n) known (rating : Rating α n) first norm,
      TrustRegion.Rates st.options.region p.state.region t step known (some rating) →
        holds (rating.region.revised st.options.region first norm)) :
    holds turn.progress.state.region := by
  cases iterates with
  | underflow p' stands region status => exact region.symm ▸ before
  | settled q t turn tries judges =>
      rw [← tries.region] at before revised
      cases judges with
      | halted p' flat stands region status => exact region.symm ▸ before
      | rejected p' rating rated stands low =>
          exact rated.region.symm ▸ revised _ _ _ rating _ _ rated.rates
      | accepted p' rating rated moves high =>
          exact rated.region.symm ▸ revised _ _ _ rating _ _ rated.rates

theorem settle_keeps {tried : Attempt α S n} (permits : PermitsIteration c s p.x trial)
    (attempts : st.Attempts c s trial p tried) :
    (st.settle tried).Keeps c (fun turn s' => s' = s ∧ st.Iterates c s trial p turn) s := by
  cases attempts with
  | underflow p' stands region status => exact ⟨rfl, .underflow p' stands region status⟩
  | tried a tries =>
      refine (judge_keeps (fun out => permits.gradient _ out tries.trial) tries.value
        tries.given).mono ?_
      exact fun turn s' kept => ⟨kept.1, .settled a.state a.step turn tries kept.2⟩

/-- **What an iteration can do.** Every path of an iteration underflows or comes to a judgement of its
trial step. -/
theorem iterate_keeps (permits : PermitsIteration c s p.x trial) (lands : st.Lands S trial) :
    (st.iterate p).Keeps c (fun turn s' => s' = s ∧ st.Iterates c s trial p turn) s := by
  refine (attempt_keeps permits lands).bind ?_
  rintro tried s' ⟨same, attempts⟩
  subst same
  exact settle_keeps permits attempts

end Setting

/-! ## Outcomes -/

/-- The ways in which an iteration ends. -/
inductive Setting.Outcome (st : Setting α n) (c : Contract (Query α n) Query.Reply σ) (s : σ)
    (trial : Vec α n → Prop) (p : Progress α S n) : Turn α S n → Prop where
  | halted (p' : Progress α S n) (stands : p.Stands p')
      (status : p'.status = .smallStep ∨ p'.status = .noPredictedDecrease) :
      Outcome st c s trial p (.halted p')
  | rejected (p' : Progress α S n) (ratio : α) (stands : p.Stands p')
      (low : ¬ st.options.region.acceptFrom ≤ ratio) : Outcome st c s trial p (.judged p' ratio)
  | accepted (p' : Progress α S n) (ratio : α) (moves : st.Moves c s trial p p')
      (high : st.options.region.acceptFrom ≤ ratio) : Outcome st c s trial p (.judged p' ratio)

/-- What is left of the inversion of an iteration when the region and the trial step are forgotten. -/
theorem Setting.Iterates.outcome {st : Setting α n} {c : Contract (Query α n) Query.Reply σ} {s : σ}
    {trial : Vec α n → Prop} {p : Progress α S n} {turn : Turn α S n}
    (iterates : st.Iterates c s trial p turn) : st.Outcome c s trial p turn := by
  cases iterates with
  | underflow p' stands region status => exact .halted p' stands (.inl status)
  | settled q t turn tries judges =>
      cases judges with
      | halted p' flat stands region status =>
          exact .halted p' (tries.stands.trans stands) (.inr status)
      | rejected p' rating rated stands low =>
          exact .rejected p' _ (tries.stands.trans stands) low
      | accepted p' rating rated moves high =>
          have here : p'.x = t.point := moves.trial
          refine .accepted p' _ { moves with trial := here ▸ tries.trial, acceptedSteps := ?_ } high
          rw [moves.acceptedSteps, tries.stands.acceptedSteps]

end BoxNewton
