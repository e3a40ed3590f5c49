import BoxNewton.CauchyPoint
import BoxNewton.Solver.State

/-!
# One iteration of the minimizer

An iteration moves along the Cauchy step, refines it, asks for the objective at the trial point and
judges the step. A step that is not accepted leaves the point, the value, the gradient and the
secant memory as they were. Two things end the minimization at once, again without a trace in these:
the length of the Cauchy step underflows, or the model predicts no decrease.
-/

set_option autoImplicit false

namespace BoxNewton

variable {α : Type} [Scalar α] {S : Subsolver α} {n : Nat}

/-- The norm of the projected gradient, `‖P(x - g) - x‖`. -/
def stationarityAt (box : Box α n) (x g : Vec α n) : α :=
  (box.projectedStep x g (-1)).norm

/-- What stays the same during a minimization. -/
structure Setting (α : Type) [Scalar α] (n : Nat) where
  options : Options α
  box : Box α n
  /-- The norm of the projected gradient at which a point counts as stationary. -/
  tolerance : α
  /-- Values below this count as unbounded. -/
  floor : α
  /-- The limit on the passes of each loop. -/
  fuel : Nat

/-- A trial step. -/
structure Setting.TrialStep (α : Type) (n : Nat) where
  /-- The trial point. -/
  point : Vec α n
  /-- The objective at the trial point. -/
  value : α
  step : Vec α n
  model : ModelValue α n

/-- What a trial step is judged by. -/
structure Assessment (α : Type) (S : Subsolver α) (n : Nat) where
  /-- The end of the refinement. -/
  refined : Refinement.State α n S.State
  /-- The state of the minimization when the step is judged. -/
  state : Progress α S n
  /-- The trial step. -/
  step : Setting.TrialStep α n

/-- What an iteration has before it judges a step. -/
inductive Attempt (α : Type) (S : Subsolver α) (n : Nat) where
  /-- The length of the Cauchy step has underflowed. -/
  | underflow (progress : Progress α S n)
  /-- A trial step was made. -/
  | tried (assessment : Assessment α S n)

/-- How an iteration ended. -/
inductive Turn (α : Type) (S : Subsolver α) (n : Nat) where
  /-- The minimization ends here. -/
  | halted (progress : Progress α S n)
  /-- A step was judged by the given ratio. -/
  | judged (progress : Progress α S n) (ratio : α)

namespace Setting

/-- The search for the Cauchy point from the current point. -/
def cauchySearch (st : Setting α n) (p : Progress α S n) : CauchySearch α n :=
  .within st.options st.box p.x p.g p.state.region.radius

/-- The refinement of a step from the current point. -/
def refinement (st : Setting α n) (p : Progress α S n) : Refinement α n where
  box := st.box
  g := p.g
  radius := p.state.region.radius
  mu0 := st.options.mu0
  tolerance := st.options.innerTolerance
  limit := st.options.maxInnerIterations

/-- Asks for the objective at a trial point, and for the gradient with it if values and gradients
are asked for together. -/
def evaluate (st : Setting α n) (p : Progress α S n) (x : Vec α n) :
    SolverDialogue α n (α × Progress α S n) := do
  if st.options.combinedEvaluation then
    let (fx, gt) ← Query.askBoth x p.state.buffers.combined
    return (fx, { p with
      state.buffers.combined := gt
      evaluations.gradient := p.evaluations.gradient + 1
      evaluations.objective := p.evaluations.objective + 1 })
  else
    let fx ← Query.askValue x
    return (fx, { p with evaluations.objective := p.evaluations.objective + 1 })

/-- The gradient at the trial point for the judgement of the step: the one that came with the value,
if one did. The state is the number of gradients asked for. -/
def gradientAtTrial (st : Setting α n) (b : Buffers α n) (x : Vec α n) (_ : Unit) (asked : Nat) :
    SolverDialogue α n (Vec α n × Nat) := do
  if st.options.combinedEvaluation then return (b.combined, asked)
  else
    let gt ← Query.askGradient x b.judged
    return (gt, asked + 1)

/-- The gradient at an accepted point: the one from the judgement, or the one that came with the
value, or a new one. -/
def acceptedGradient (st : Setting α n) (p : Progress α S n) (x : Vec α n)
    (judged : Option (Vec α n)) : SolverDialogue α n (Vec α n × Progress α S n) := do
  match judged with
  | some gt => return (gt, p)
  | none =>
    if st.options.combinedEvaluation then return (p.state.buffers.combined, p)
    else
      let g ← Query.askGradient x p.state.buffers.accepted
      return (g, { p with evaluations.gradient := p.evaluations.gradient + 1 })

/-- Moves to the trial point. -/
def accept (st : Setting α n) (p : Progress α S n) (t : TrialStep α n)
    (judged : Option (Vec α n)) : SolverDialogue α n (Progress α S n) := do
  let (g, p) ← st.acceptedGradient p t.point judged
  let model ← p.state.model.learn ⟨t.step, g - p.g⟩
  let stationarity := stationarityAt st.box t.point g
  Dialogue.remark (.stepAccepted t.value stationarity)
  return { p with
    x := t.point
    value := t.value
    g
    stationarity
    acceptedSteps := p.acceptedSteps + 1
    state.model := model
    state.buffers.accepted := g }

/-- Updates the radius after a judged step. Until the first step is accepted, the radius is limited
by the step. -/
def updateRadius (st : Setting α n) (p : Progress α S n) (region : TrustRegion α) (norm : α) :
    SolverDialogue α n (TrustRegion α) := do
  let first := p.acceptedSteps == 0
  let limited := if first then region.limitBy norm else region
  Dialogue.remarkWhen (first && decide (0 < norm ∧ norm < region.radius))
    (.radiusShrunk region.radius norm)
  let updated := limited.update st.options.region norm
  Dialogue.remark (.radiusUpdated limited.radius updated.radius limited.ratio norm)
  return updated

/-- Judges a trial step, and accepts it or not. -/
def judge (st : Setting α n) (p : Progress α S n) (t : TrialStep α n) :
    SolverDialogue α n (Turn α S n) := do
  let trial : Trial α :=
    { before := p.value, after := t.value, model := t.model.value, slope := t.model.slope }
  let (rated, gradients) ←
    (p.state.region.rate st.options.region trial t.step).through
      (st.gradientAtTrial p.state.buffers t.point) p.evaluations.gradient
  let p := { p with evaluations.gradient := gradients }
  match rated with
  | none =>
    Dialogue.remark (.noDecreasePredicted t.model.value)
    return .halted { p with status := .noPredictedDecrease }
  | some ⟨region, gt⟩ =>
    let ratio := region.ratio
    let region ← st.updateRadius p region t.step.norm
    let p := { p with
      state.region := region
      state.buffers.judged := gt.getD p.state.buffers.judged }
    if region.Accepts st.options.region then
      return .judged (← st.accept p t gt) ratio
    else
      Dialogue.remark (.stepRejected ratio)
      return .judged p ratio

/-- Refines a Cauchy step. The state is the number of products asked for. -/
def refineFrom (st : Setting α n) (p : Progress α S n) (products : Nat) (cauchy image : Vec α n) :
    SolverDialogue α n ((RefinementStatus × Refinement.State α n S.State) × Nat) :=
  ((st.refinement p).run S st.fuel
    { x := st.box.project (p.x + cauchy), s := cauchy, hs := image, iterations := 0
      subsolver := p.state.subsolver }).through (p.state.model.answer p.x) products

/-- Asks for the objective at the end of a refinement. -/
def assess (st : Setting α n) (p : Progress α S n)
    (out : (RefinementStatus × Refinement.State α n S.State) × Nat) :
    SolverDialogue α n (Assessment α S n) := do
  let ((status, refined), products) := out
  let innerIterations ← Dialogue.addCount p.innerIterations refined.iterations
  Dialogue.remark (.refinementEnded status refined.iterations)
  let p := { p with
    evaluations.product := p.evaluations.product + products
    innerIterations
    state.subsolver := refined.subsolver
    state.buffers.image := refined.hs }
  let (fx, p) ← st.evaluate p refined.x
  return { refined, state := p
           step := { point := refined.x, value := fx, step := refined.s
                     model := ModelValue.ofImage p.g refined.s refined.hs } }

/-- Moves along the Cauchy step and refines it, for a trial step. -/
def attempt (st : Setting α n) (p : Progress α S n) : SolverDialogue α n (Attempt α S n) := do
  let (cauchy, products) ←
    ((st.cauchySearch p).find st.fuel p.state.cauchyLength p.state.buffers.image).through
      (p.state.model.answer p.x) 0
  match cauchy with
  | .underflow length image =>
    Dialogue.remark (.cauchyFailed length)
    return .underflow { p with
      status := .smallStep
      evaluations.product := p.evaluations.product + products
      state.cauchyLength := length
      state.buffers.image := image }
  | .found length s image =>
    let p := { p with state.cauchyLength := length }
    return .tried (← st.assess p (← st.refineFrom p products s image))

/-- Judges the trial step, if one was made. -/
def settle (st : Setting α n) : Attempt α S n → SolverDialogue α n (Turn α S n)
  | .underflow p => return .halted p
  | .tried a => st.judge a.state a.step

/-- One iteration. -/
def iterate (st : Setting α n) (p : Progress α S n) : SolverDialogue α n (Turn α S n) :=
  st.attempt p >>= st.settle

end Setting

end BoxNewton
