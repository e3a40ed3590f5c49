import Mathlib
import BoxNewton.Proofs.CauchyStep
import BoxNewton.Proofs.Chronicle
import BoxNewton.Proofs.CurrentPoint
import BoxNewton.Proofs.Products
import BoxNewton.Proofs.RefinementPass
import BoxNewton.Subproblem.ConjugateGradient

/-!
# How the objective changes

In exact arithmetic, an accepted step whose reduction was measured decreases the objective. The reduction
is estimated from the slopes at both ends of the step when it is dominated by round-off, in one of two
senses. If the measured reduction is small relative to the objective, the objective rises by no more than
that. If the model is small, nothing bounds the objective at the trial point: all that is known is that
the mean of the two slopes is negative (`TrustRegion.Rates.falls`). This holds of every judgement of a
minimization of a finite objective (`Solver.solve_descends`).

The second sense cannot be left out. An objective with a ledge at a distance that is far below the radius
rises by one at a step whose model is small (`ledge_rises`). It is followed through its first iteration;
what a start and an accepted step come to with fixed answers is the same for any objective
(`SolverState.eval_begin_standard`, `Setting.eval_judge`).
-/

set_option autoImplicit false

namespace BoxNewton

open Scalar

variable {S : Subsolver EReal} {n : Nat}

/-! ## Reductions of real objectives -/

namespace Trial

variable {t : Trial EReal} {a b : ℝ}

/-- The shift of the reductions of an objective that is real where the step starts. -/
noncomputable def realShift (b : ℝ) : ℝ := max |b| 1 * 2.220446049250313e-16 * 10.0

theorem realShift_nonneg (b : ℝ) : 0 ≤ realShift b := by
  unfold realShift
  positivity

theorem larger_abs_coe (b : ℝ) : larger (abs (b : EReal)) 1 = ((max |b| 1 : ℝ) : EReal) := by
  rw [abs_coe, larger_eq_max]
  norm_cast

theorem shift_coe (before : t.before = b) : t.shift = realShift b := by
  rw [shift, before, larger_abs_coe, epsilon_eq, ofScientific_eq, realShift]
  norm_cast

theorem actual_coe (before : t.before = b) (after : t.after = a) :
    t.actual = ((a - b + realShift b : ℝ) : EReal) := by
  rw [actual, shift_coe before, before, after]
  norm_cast

theorem roundoff_coe : (roundoff : EReal) = ((2.220446049250313e-16 * 1e4 : ℝ) : EReal) := by
  rw [roundoff, epsilon_eq, ofScientific_eq, EReal.coe_mul]

/-- The objective rises by less than round-off, relative to its size. -/
def StaysClose (t : Trial EReal) : Prop :=
  t.after ≤ t.before + roundoff * larger (abs t.before) 1

theorem staysClose_iff (before : t.before = b) (after : t.after = a) :
    t.StaysClose ↔ a ≤ b + 2.220446049250313e-16 * 1e4 * max |b| 1 := by
  rw [StaysClose, before, after, larger_abs_coe, roundoff_coe, ← EReal.coe_mul, ← EReal.coe_add,
    EReal.coe_le_coe_iff]

end Trial

/-! ## Accepted steps -/

namespace TrustRegion

variable {o : RegionOptions EReal} {region : TrustRegion EReal} {t : Trial EReal} {step : Vec EReal n}
  {known : Vec EReal n → Prop} {rating : Rating EReal n}

/-- Of a predicted decrease, only a decrease is a positive fraction. -/
theorem neg_of_div_pos {change predicted : EReal} (descends : predicted < 0)
    (positive : 0 < change / predicted) : change < 0 := by
  by_contra grows
  have fraction := EReal.div_nonpos_of_nonneg_of_nonpos (not_lt.1 grows) descends.le
  exact absurd positive (not_lt.2 fraction)

/-- A measured decrease is one, since the shift counts against the step. -/
theorem staysClose_of_actual_neg {b a : ℝ} (before : t.before = b) (after : t.after = a)
    (decrease : t.actual < 0) : t.StaysClose := by
  rw [Trial.actual_coe before after, EReal.coe_neg'] at decrease
  rw [Trial.staysClose_iff before after]
  have shift := Trial.realShift_nonneg b
  have margin : 0 ≤ 2.220446049250313e-16 * 1e4 * max |b| 1 := by positivity
  linarith

/-- A measured change that is small relative to the objective is bounded by round-off. -/
theorem staysClose_of_actual_small {b a : ℝ} (before : t.before = b) (after : t.after = a)
    (small : abs t.actual < Trial.roundoff * abs t.before) : t.StaysClose := by
  rw [Trial.actual_coe before after, before, abs_coe, abs_coe, Trial.roundoff_coe, ← EReal.coe_mul,
    EReal.coe_lt_coe_iff] at small
  rw [Trial.staysClose_iff before after]
  have shift := Trial.realShift_nonneg b
  have change := (le_abs_self _).trans small.le
  have larger : |b| ≤ max |b| 1 := le_max_left _ _
  linarith

/-- **Accepted steps and the objective.** An accepted step between real values keeps the objective close,
unless the model is small, and then the mean of the slopes is negative. -/
theorem Rates.falls {b a : ℝ} (before : t.before = b) (after : t.after = a)
    (rates : Rates o region t step known (some rating)) (threshold : 0 < o.acceptFrom)
    (high : o.acceptFrom ≤ rating.region.ratio) :
    t.StaysClose ∨
      abs t.model < Trial.roundoff ∧ ∃ g, known g ∧ t.estimated (g.dot step) < 0 := by
  have positive : 0 < rating.region.ratio := threshold.trans_le high
  cases rates with
  | infinite descends value => exact absurd (after ▸ isFinite_coe a) value
  | measured descends value far =>
      exact .inl (staysClose_of_actual_neg before after (neg_of_div_pos descends positive))
  | estimated descends value near g answered =>
      rcases near with small | small
      · exact .inr ⟨small, g, answered, neg_of_div_pos descends positive⟩
      · exact .inl (staysClose_of_actual_small before after small)

end TrustRegion

/-! ## Every judgement of a minimization -/

/-- Holds when the model at a trial step from `x` is below round-off, and the slopes of the objective at
both ends of the step have a negative mean. -/
def Setting.TrialStep.IsExcused (t : Setting.TrialStep EReal n) (f' : Vec EReal n → Vec EReal n)
    (x : Vec EReal n) : Prop :=
  abs t.model.value < Trial.roundoff ∧
    ((f' t.point).dot t.step + t.step.dot (f' x)) / (1 + 1) < 0

/-- Holds when a step that is accepted raises the objective by no more than round-off, unless it is
excused, and a step that is not accepted leaves everything as it was. -/
def Turn.Descends (o : RegionOptions EReal) (f : Vec EReal n → EReal) (excused : Prop)
    (p : Progress EReal S n) : Turn EReal S n → Prop
  | .halted p' => p.Stands p'
  | .judged p' ratio =>
    (o.acceptFrom ≤ ratio →
      excused ∨ f p'.x ≤ f p.x + Trial.roundoff * larger (abs (f p.x)) 1) ∧
    (¬ o.acceptFrom ≤ ratio → p.Stands p')

section Judgements

variable {st : Setting EReal n} {f : Vec EReal n → EReal} {f' : Vec EReal n → Vec EReal n}
  {p p' : Progress EReal S n} {t : Setting.TrialStep EReal n} {turn : Turn EReal S n} {quiet : Bool}

theorem Setting.Judges.descends (finite : ∀ x, IsFinite (f x)) (usable : st.options.region.Usable)
    (here : st.Describes f f' p quiet)
    (tries : st.Tries (st.box.describing f f') quiet st.box.Holds p p' t)
    (judges : st.Judges (st.box.describing f f') quiet p' t turn) :
    turn.Descends st.options.region f (t.IsExcused f' p.x) p := by
  cases judges with
  | halted q flat stands region => exact tries.stands.trans stands
  | rejected q rating rated stands low =>
      exact ⟨fun high => absurd high low, fun _ => tries.stands.trans stands⟩
  | accepted q rating rated moves high =>
      refine ⟨fun _ => ?_, fun low => absurd high low⟩
      have there : q.x = t.point := moves.trial
      have same : t.rated p' = t.rated p := by simp only [TrialStep.rated, tries.stands.value]
      have rates := rated.rates
      rw [same] at rates
      have before : (t.rated p).before = f p.x := here.report.objective
      have after : (t.rated p).after = f q.x := there ▸ tries.value.eq
      obtain ⟨b, real⟩ := exists_coe_of_isFinite (finite p.x)
      obtain ⟨a, real'⟩ := exists_coe_of_isFinite (finite q.x)
      rcases rates.falls (before.trans real) (after.trans real') usable.accept_pos high with
        close | ⟨small, g, answered, slopes⟩
      · rw [Trial.StaysClose, before, after] at close
        exact .inr close
      · obtain ⟨image, model⟩ := tries.model
        rw [here.report.gradient] at model
        have slope : (t.rated p).slope = t.step.dot (f' p.x) := congrArg ModelValue.slope model
        rw [Trial.estimated, answered.eq, slope] at slopes
        exact .inl ⟨small, slopes⟩

/-- **Any number of iterations.** From a point whose value and gradient are known, every judgement
descends. -/
theorem Setting.opening_descends (finite : ∀ x, IsFinite (f x)) (usable : st.options.region.Usable)
    (k : Nat) (here : st.Describes f f' p quiet) :
    (st.opening k p).Keeps (st.box.describing f f') (fun out _ => ∀ e ∈ out.1, e.IsDescribed fun p t turn =>
      turn.Descends st.options.region f (t.IsExcused f' p.x) p) quiet := by
  refine eachTurn_rule (fun p quiet => st.Describes f f' p quiet)
    (fun p _ _ => Box.permits_describing p.x st.box.Holds) (lands_within st S)
    (fun _ => Box.clock_describing) ?_ ?_ k p quiet here
  · intro p p' t turn quiet here tries judges
    exact judges.descends finite usable here tries
  · intro p p' ratio quiet status here iterates reached
    refine judged_describes here ?_ reached
    cases iterates.outcome with
    | rejected _ _ stands low => exact .inl stands
    | accepted _ _ moves high => exact .inr moves

end Judgements

/-- **The objective of a minimization.** If the objective is finite and answers by two functions, and the
observer changes nothing but the status, every accepted step raises the objective by no more than
round-off, unless the model of the step is below round-off and the slopes at its ends have a negative
mean. Every other step leaves everything as it was. -/
theorem Solver.solve_descends (solver : Solver EReal S) (dom : Domain EReal)
    (start : Vec EReal dom.dim) (fuel : Nat) (f : Vec EReal dom.dim → EReal)
    (f' : Vec EReal dom.dim → Vec EReal dom.dim) (finite : ∀ x, IsFinite (f x))
    (usable : solver.options.fault? = none) :
    (solver.state.resize dom.dim).EachTurn solver.options dom.box start fuel
      (dom.box.describing f f')
      (fun p t turn => turn.Descends solver.options.region f (t.IsExcused f' p.x) p) true := by
  have inRanges := Options.region_usable usable
  refine (SolverState.begin_describes _ _ dom.box f f' start fuel true).mono ?_
  rintro ⟨st, p⟩ quiet ⟨sameOptions, sameBox, here, -⟩ k
  have descends := Setting.opening_descends finite (sameOptions ▸ inRanges) k here
  rw [sameBox, sameOptions] at descends
  exact descends

/-! ## Starts with the standard options -/

/-- With a value that is not negative and a projected gradient that is not small, a minimization goes on
after its first evaluation. -/
theorem SolverState.eval_begin_standard {f : Vec EReal n → EReal} {f' : Vec EReal n → Vec EReal n}
    {H : Vec EReal n → Vec EReal n → Vec EReal n} (state : SolverState EReal S n) {box : Box EReal n}
    {start : Vec EReal n} (still : box.project start = start) {value stationarity : EReal}
    (atStart : f start = value) (nonneg : 0 ≤ value)
    (slope : stationarityAt box start (f' start) = stationarity)
    (away : ¬ stationarity ≤ sqrtEpsilon + sqrtEpsilon * stationarity) (fuel : Nat) :
    (state.begin .standard box start fuel).eval (plainAnswer f f' H) =
      some ({ options := .standard, box, fuel, tolerance := Options.standard.tolerance stationarity
              floor := smaller (-1) value / epsilon },
        { x := start, value, g := f' start, stationarity, status := .unknown, iteration := 0
          acceptedSteps := 0, innerIterations := 0, evaluations := ⟨1, 1, 0⟩
          state := { state with
            region := state.region.start .standard (startRadius stationarity), cauchyLength := 1 } }) := by
  have unbounded : ¬ value < smaller (-1) value / epsilon := by
    have below : smaller (-1) value ≤ (0 : EReal) := by simp
    have positive : (0 : EReal) ≤ epsilon := by
      rw [epsilon_eq, EReal.coe_nonneg]
      norm_num
    exact not_lt.2 ((EReal.div_nonpos_of_nonpos_of_nonneg below positive).trans nonneg)
  have slow : ¬ stationarity ≤ (Options.standard : Options EReal).absoluteTolerance +
    (Options.standard : Options EReal).relativeTolerance * stationarity := away
  have unlimited : ¬ (0 ≤ (Options.standard : Options EReal).maxEvaluations ∧
    (Options.standard : Options EReal).maxEvaluations < ((1 : Nat) : Int)) := by decide
  have begun : ¬ (Options.standard : Options EReal).maxIterations ≤ 0 := by decide
  have separate : (Options.standard : Options EReal).combinedEvaluation = false := rfl
  simp only [begin, askStart, separate, still, Setting.verdict, Query.askValue, Query.askGradient,
    Query.askTime, Dialogue.eval_bind, Dialogue.eval_remarkWhen, Dialogue.eval_remark,
    Dialogue.eval_question, Dialogue.eval_pure, Option.bind_some, Bool.false_eq_true, if_false,
    plainAnswer, atStart, slope]
  rw [if_neg slow, if_neg unbounded, if_neg unlimited]
  simp only [Setting.checkpoint, Query.askObserver, Dialogue.eval_bind, Dialogue.eval_question,
    Dialogue.eval_pure, Option.bind_some, plainAnswer, Bool.false_eq_true, if_false, if_neg begun,
    still]
  rfl

/-- With the standard options, a projected gradient of norm ten or less gives the radius one. -/
theorem startRadius_standard {stationarity : ℝ} (small : stationarity ≤ 10) :
    (TrustRegion.initial.start .standard (startRadius (stationarity : EReal))).radius = 1 := by
  have small : (stationarity : EReal) / 10.0 ≤ 1 := by
    rw [ofScientific_eq, ← EReal.coe_div, ← EReal.coe_one, EReal.coe_le_coe_iff,
      div_le_one (by norm_num)]
    exact small.trans (by norm_num)
  have middle : (1 : EReal) ≤ 100.0 := by
    rw [ofScientific_eq, ← EReal.coe_one, EReal.coe_le_coe_iff]
    norm_num
  have large : (1 : EReal) ≤ 1 / sqrtEpsilon := by
    rw [sqrtEpsilon_eq, ← EReal.coe_one, ← EReal.coe_div, EReal.coe_le_coe_iff]
    norm_num
  change smaller (smaller (larger ((stationarity : EReal) / 10.0) 1) 100.0) (1 / sqrtEpsilon) = 1
  rw [larger_eq_max, smaller_eq_min, smaller_eq_min, max_eq_right small, min_eq_left middle,
    min_eq_left large]

/-! ## Trial steps and accepted steps with fixed answers -/

section Evaluations

variable {answer : (q : Query EReal n) → q.Reply} {st : Setting EReal n} {p p' : Progress EReal S n}

/-- The trial point is where the refinement of the Cauchy step ends, and the objective is asked for its value
there. -/
theorem Setting.eval_attempt (st : Setting EReal n) (p : Progress EReal S n)
    (separate : st.options.combinedEvaluation = false) {length : EReal} {cauchy image : Vec EReal n}
    {products total : Nat} {status : RefinementStatus}
    {refined : Refinement.State EReal n S.State}
    (searched : (((st.cauchySearch p).find st.fuel p.state.cauchyLength p.state.buffers.image).through
      (p.state.model.answer p.x) 0).eval answer = some (.found length cauchy image, products))
    (went : (st.refineFrom { p with state.cauchyLength := length } products cauchy image).eval answer =
      some ((status, refined), total))
    (counted : Storage.FitsWord (p.innerIterations + refined.iterations)) :
    ∃ a, (st.attempt p).eval answer = some (.tried a) ∧ p.Stands a.state ∧
      a.step = ⟨refined.x, answer (.value refined.x), refined.s,
        ModelValue.ofImage p.g refined.s refined.hs⟩ := by
  rw [attempt, Dialogue.eval_bind, searched, Option.bind_some]
  simp only [Dialogue.eval_bind, went, Option.bind_some, assess, Dialogue.eval_addCount counted,
    Dialogue.eval_remark, evaluate, separate, Bool.false_eq_true, if_false, Query.askValue,
    Dialogue.eval_question, Dialogue.eval_pure]
  exact ⟨_, rfl, ⟨rfl, rfl, rfl, rfl, rfl, rfl⟩, rfl⟩

theorem Setting.eval_updateRadius (st : Setting EReal n) (p : Progress EReal S n) (region : TrustRegion EReal) (norm : EReal) :
    (st.updateRadius p region norm).eval answer =
      some (region.revised st.options.region (p.acceptedSteps == 0) norm) := by
  simp only [updateRadius, Dialogue.eval_bind, Dialogue.eval_remarkWhen, Dialogue.eval_remark,
    Option.bind_some, Dialogue.eval_pure]
  rfl

/-- Learning asks nothing. -/
theorem HessianModel.eval_learn (model : HessianModel EReal n) (pair : SecantPair EReal n) :
    (model.learn pair).eval answer = some (model.learnt pair) := by
  cases model with
  | exact => rfl
  | secant memory =>
      simp only [learn, Dialogue.eval_bind, Dialogue.eval_remarkWhen, Option.bind_some]
      rfl

/-- The gradient at the trial point determines what accepting the step comes to. -/
theorem Setting.eval_accept {t : TrialStep EReal n} {judged : Option (Vec EReal n)} {g : Vec EReal n}
    (found : (st.acceptedGradient p t.point judged).eval answer = some (g, p')) :
    (st.accept p t judged).eval answer = some { p' with
      x := t.point
      value := t.value
      g
      stationarity := stationarityAt st.box t.point g
      acceptedSteps := p'.acceptedSteps + 1
      state.model := p'.state.model.learnt ⟨t.step, g - p'.g⟩
      state.buffers.accepted := g } := by
  simp only [accept, Dialogue.eval_bind, found, Option.bind_some, HessianModel.eval_learn,
    Dialogue.eval_remark, Dialogue.eval_pure]

/-- A step with a high ratio is accepted: the minimization moves to the trial point, with the gradient that
was found there. -/
theorem Setting.eval_judge {t : TrialStep EReal n} {rating : Rating EReal n} {gradients : Nat}
    {g : Vec EReal n}
    (rated : ((p.state.region.rate st.options.region (t.rated p) t.step).through
      (st.gradientAtTrial p.state.buffers t.point) p.evaluations.gradient).eval answer =
        some (some rating, gradients))
    (high : st.options.region.acceptFrom ≤ rating.region.ratio)
    (found : ∀ q : Progress EReal S n, ∃ q',
      (st.acceptedGradient q t.point rating.gradient).eval answer = some (g, q')) :
    ∃ q, (st.judge p t).eval answer = some (.judged q rating.region.ratio) ∧ q.x = t.point ∧
      q.stationarity = stationarityAt st.box t.point g := by
  have known : (⟨p.value, t.value, t.model.value, t.model.slope⟩ : Trial EReal) = t.rated p := rfl
  obtain ⟨q, found⟩ := found { p with
    evaluations.gradient := gradients
    state.region := rating.region.revised st.options.region (p.acceptedSteps == 0) t.step.norm
    state.buffers.judged := rating.gradient.getD p.state.buffers.judged }
  rw [judge, known, Dialogue.eval_bind, rated, Option.bind_some]
  simp only [Dialogue.eval_bind, eval_updateRadius, Option.bind_some, TrustRegion.Accepts,
    TrustRegion.revised_ratio, if_pos high, eval_accept found, Dialogue.eval_pure]
  exact ⟨_, rfl, rfl, rfl⟩

end Evaluations

/-! ## A ledge

An objective that is one on the lower bound and zero above it, with the same small slope everywhere and
without curvature. The lower bound is so near that the model of the step to it is below round-off. -/

section Ledge

/-- The distance of the lower bound from the start, the twentieth power of one half. -/
noncomputable def ledgeWidth : ℝ := 9.5367431640625e-7

/-- The slope of the objective, twice as much. -/
noncomputable def ledgeIncline : ℝ := 1.9073486328125e-6

theorem ledgeWidth_pos : 0 < ledgeWidth := by norm_num [ledgeWidth]

theorem ledge_ordered : ∀ _ : Fin 1, -ledgeWidth ≤ 1 := fun _ => by norm_num [ledgeWidth]

noncomputable def ledgeBox : Box EReal 1 :=
  .ofReal (fun _ => -ledgeWidth) (fun _ => 1) ledge_ordered

/-- Zero, and one on the lower bound. -/
noncomputable def ledgeValue (x : Vec EReal 1) : EReal :=
  if x.get 0 ≤ ((-ledgeWidth : ℝ) : EReal) then 1 else 0

noncomputable def ledgeGradient (_ : Vec EReal 1) : Vec EReal 1 := Vec.ofReal fun _ => ledgeIncline

/-- The operator without curvature. -/
noncomputable def flat (_ : Vec EReal 1) : Vec EReal 1 := Vec.zeros 1

/-- The plain answers of this objective. -/
noncomputable def ledgeAnswer : (q : Query EReal 1) → q.Reply :=
  plainAnswer ledgeValue ledgeGradient fun _ => flat

theorem ledgeValue_finite (x : Vec EReal 1) : IsFinite (ledgeValue x) := by
  unfold ledgeValue
  split
  · exact isFinite_coe 1
  · exact isFinite_coe 0

theorem ledgeValue_start : ledgeValue (Vec.zeros 1) = 0 := by
  have right : ¬ (0 : EReal) ≤ ((-ledgeWidth : ℝ) : EReal) := by
    rw [EReal.coe_nonneg]
    norm_num [ledgeWidth]
  rw [ledgeValue, Vec.get_zeros, if_neg right]

theorem ledgeValue_end : ledgeValue (Vec.ofReal fun _ => -ledgeWidth) = 1 := by
  rw [ledgeValue, Vec.get_ofReal, if_pos le_rfl]

theorem ledge_project {a : ℝ} (low : -ledgeWidth ≤ a) (high : a ≤ 1) :
    ledgeBox.project (Vec.ofReal fun _ => a) = Vec.ofReal fun _ => a :=
  Box.project_ofReal ((Box.contains_ofReal ledge_ordered).2 fun _ => ⟨low, high⟩)

/-- Against the slope, the lower bound is reached before the length one. -/
theorem ledge_path : ledgeBox.projectedStep (Vec.zeros 1) (Vec.ofReal fun _ => -ledgeIncline) 1 =
    Vec.ofReal fun _ => -ledgeWidth := by
  rw [Vec.zeros_eq_ofReal, ← EReal.coe_one]
  refine (Box.projectedStep_ofReal ledge_ordered _ _ _).trans (congrArg _ (funext fun _ => ?_))
  norm_num [ledgeWidth, ledgeIncline]

theorem ledge_norm : (Vec.ofReal fun _ : Fin 1 => -ledgeWidth).norm = (ledgeWidth : EReal) := by
  rw [Vec.norm_ofReal]
  simp [dotProduct, abs_of_pos ledgeWidth_pos, Real.sqrt_mul_self_eq_abs]

/-! ### The start -/

noncomputable def ledgeSolver : Solver EReal ConjugateGradient.subsolver := .new _ .standard 1

/-- What does not change after the start. -/
noncomputable def ledgeSetting : Setting EReal 1 where
  options := .standard
  box := ledgeBox
  tolerance := Options.standard.tolerance (ledgeWidth : EReal)
  floor := smaller (-1) 0 / epsilon
  fuel := 9

/-- The state before the first iteration. -/
noncomputable def ledgeProgress : Progress EReal ConjugateGradient.subsolver 1 where
  x := Vec.zeros 1
  value := 0
  g := ledgeGradient (Vec.zeros 1)
  stationarity := ledgeWidth
  status := .unknown
  iteration := 0
  acceptedSteps := 0
  innerIterations := 0
  evaluations := ⟨1, 1, 0⟩
  state := { ledgeSolver.state with
    region := TrustRegion.initial.start .standard (startRadius (ledgeWidth : EReal)) }

theorem ledge_stationarity :
    stationarityAt ledgeBox (Vec.zeros 1) (ledgeGradient (Vec.zeros 1)) = ledgeWidth := by
  have step : ledgeBox.projectedStep (Vec.zeros 1) (ledgeGradient (Vec.zeros 1)) (-1) =
      Vec.ofReal fun _ => -ledgeWidth := by
    rw [← EReal.coe_one, ← EReal.coe_neg, Vec.zeros_eq_ofReal]
    refine (Box.projectedStep_ofReal ledge_ordered _ _ _).trans (congrArg _ (funext fun _ => ?_))
    norm_num [ledgeWidth, ledgeIncline]
  rw [stationarityAt, step, ledge_norm]

theorem ledge_begins : ((ledgeSolver.state.resize 1).begin ledgeSolver.options ledgeBox
    (Vec.zeros 1) 9).eval ledgeAnswer = some (ledgeSetting, ledgeProgress) := by
  have still : ledgeBox.project (Vec.zeros 1) = Vec.zeros 1 := by
    rw [Vec.zeros_eq_ofReal]
    exact ledge_project (neg_nonpos.2 ledgeWidth_pos.le) zero_le_one
  have away : ¬ (ledgeWidth : EReal) ≤ sqrtEpsilon + sqrtEpsilon * ledgeWidth := by
    rw [sqrtEpsilon_eq, ← EReal.coe_mul, ← EReal.coe_add, EReal.coe_le_coe_iff]
    norm_num [ledgeWidth]
  exact ledgeSolver.state.eval_begin_standard still ledgeValue_start le_rfl ledge_stationarity away 9

theorem ledge_radius : ledgeProgress.state.region.radius = 1 :=
  startRadius_standard (by norm_num [ledgeWidth])

/-! ### The trial step -/

/-- The trial step leads to the lower bound. -/
noncomputable def ledgeTrial : Setting.TrialStep EReal 1 where
  point := Vec.ofReal fun _ => -ledgeWidth
  value := 1
  step := Vec.ofReal fun _ => -ledgeWidth
  model := ModelValue.ofImage (ledgeGradient (Vec.zeros 1)) (Vec.ofReal fun _ => -ledgeWidth)
    (Vec.zeros 1)

/-- The slope along the trial step. -/
noncomputable def ledgeSlope : ℝ := -(ledgeWidth * ledgeIncline)

theorem ledge_slope : (fun _ : Fin 1 => -ledgeWidth) ⬝ᵥ (fun _ => ledgeIncline) = ledgeSlope := by
  simp only [dotProduct, Finset.univ_unique, Finset.sum_singleton, ledgeSlope, neg_mul]

theorem ledge_model :
    ledgeTrial.model.value = (ledgeSlope : EReal) ∧ ledgeTrial.model.slope = (ledgeSlope : EReal) := by
  change (ModelValue.ofImage (Vec.ofReal _) (Vec.ofReal _) (Vec.zeros 1)).value = _ ∧
    (ModelValue.ofImage (Vec.ofReal _) (Vec.ofReal _) (Vec.zeros 1)).slope = _
  rw [Vec.zeros_eq_ofReal, ModelValue.ofImage_ofReal, ledge_slope, dotProduct_zero, mul_zero, zero_add]
  exact ⟨rfl, rfl⟩

theorem ledge_cauchy (hs : Vec EReal 1) :
    ((ledgeSetting.cauchySearch ledgeProgress).find ledgeSetting.fuel
        ledgeProgress.state.cauchyLength hs).eval (answeredBy flat) =
      some (.found 1 (Vec.ofReal fun _ => -ledgeWidth) (Vec.zeros 1)) := by
  let search := ledgeSetting.cauchySearch ledgeProgress
  have direction : search.d = Vec.ofReal fun _ => -ledgeIncline := Vec.ofReal_neg _
  have step : search.step 1 = Vec.ofReal fun _ => -ledgeWidth := by
    rw [CauchySearch.step, direction]
    exact ledge_path
  have fits : (search.step 1).norm ≤ search.maxNorm := by
    have limit : search.maxNorm = 1 := (congrArg _ ledge_radius).trans (mul_one _)
    rw [step, ledge_norm, limit, ← EReal.coe_one, EReal.coe_le_coe_iff]
    norm_num [ledgeWidth]
  have holds : ¬ (ModelValue.ofImage search.g (search.step 1)
      (flat (search.step 1))).IsInsufficient search.mu0 := by
    rw [step]
    change ¬ ledgeTrial.model.IsInsufficient 1e-2
    rw [ModelValue.IsInsufficient, ledge_model.1, ledge_model.2, ofScientific_eq, ← EReal.coe_mul,
      EReal.coe_le_coe_iff]
    norm_num [ledgeSlope, ledgeWidth, ledgeIncline]
  have past : ¬ 1 ≤ (search.box.breakpoints search.x search.d).max := by
    have start : search.x = Vec.ofReal 0 := Vec.zeros_eq_ofReal
    have meets : search.box.breakpoint? search.x search.d 0 = some ((1 / 2 : ℝ) : EReal) := by
      rw [direction, start]
      refine (Box.breakpoint?_ofReal ledge_ordered _ _ _).trans ?_
      norm_num [ledgeWidth, ledgeIncline]
    rw [Box.breakpoints_single (by norm_num) meets, ← EReal.coe_one, EReal.coe_le_coe_iff]
    norm_num
  have found := CauchySearch.find_beyond flat fits holds past 8 hs
  rw [step] at found
  exact found

/-- At the lower bound nothing is free, so the Cauchy step is not refined. -/
theorem ledge_refined {p : Progress EReal ConjugateGradient.subsolver 1}
    (gradient : p.g = ledgeGradient (Vec.zeros 1))
    (start : Refinement.State EReal 1 ConjugateGradient.subsolver.State)
    (here : start.x = Vec.ofReal fun _ => -ledgeWidth) (image : start.hs = Vec.zeros 1) :
    ((ledgeSetting.refinement p).run ConjugateGradient.subsolver ledgeSetting.fuel start).eval
      (answeredBy flat) = some (.stationaryPoint, start) := by
  have slope : (ledgeSetting.refinement p).modelGradient start =
      Vec.ofReal fun _ => ledgeIncline := by
    change p.g + start.hs = _
    rw [gradient, image, ledgeGradient, Vec.zeros_eq_ofReal, Vec.ofReal_add, add_zero]
  have blocked : ¬ ledgeBox.IsFree start.x ((ledgeSetting.refinement p).modelGradient start) 0 := by
    rw [here, slope]
    refine not_not.2 (.inl ⟨?_, ?_⟩)
    · rw [Vec.get_ofReal]
      exact le_rfl
    · rw [Vec.get_ofReal, EReal.coe_nonneg]
      norm_num [ledgeIncline]
  exact Refinement.eval_run_of_isEmpty 8 (Box.isEmpty_freeVariables blocked)

theorem ledge_products (x : Vec EReal 1) {β : Type} {d : OperatorDialogue EReal 1 β} {b : β}
    (found : d.eval (answeredBy flat) = some b) (asked : Nat) :
    ∃ asked', (d.through (HessianModel.exact.answer x) asked).eval ledgeAnswer = some (b, asked') :=
  HessianModel.eval_exact found asked

theorem ledge_attempts :
    ∃ a, (ledgeSetting.attempt ledgeProgress).eval ledgeAnswer = some (.tried a) ∧
      ledgeProgress.Stands a.state ∧ a.step = ledgeTrial := by
  have lands : ledgeBox.project (Vec.zeros 1 + Vec.ofReal fun _ => -ledgeWidth) =
      Vec.ofReal fun _ => -ledgeWidth := by
    rw [Vec.zeros_eq_ofReal, Vec.ofReal_add, zero_add]
    exact ledge_project le_rfl (ledge_ordered 0)
  obtain ⟨products, searched⟩ := ledge_products ledgeProgress.x
    (ledge_cauchy ledgeProgress.state.buffers.image) 0
  obtain ⟨total, refined⟩ := ledge_products ledgeProgress.x (ledge_refined
    (p := { ledgeProgress with state.cauchyLength := 1 }) rfl
    ⟨ledgeBox.project (Vec.zeros 1 + Vec.ofReal fun _ => -ledgeWidth), Vec.ofReal fun _ => -ledgeWidth,
      Vec.zeros 1, 0, ledgeProgress.state.subsolver⟩ lands rfl) products
  have counted : Storage.FitsWord (ledgeProgress.innerIterations + 0) := by decide
  obtain ⟨a, tried, stands, step⟩ := ledgeSetting.eval_attempt ledgeProgress rfl searched refined counted
  refine ⟨a, tried, stands, step.trans ?_⟩
  simp only [lands, ledgeAnswer, plainAnswer, ledgeValue_end]
  rfl

/-! ### The judgement -/

variable {t : Trial EReal}

theorem ledge_predicted (before : t.before = 0) (model : t.model = ledgeSlope) :
    t.predicted = ((ledgeSlope - Trial.realShift 0 : ℝ) : EReal) := by
  rw [Trial.predicted, Trial.shift_coe (before.trans EReal.coe_zero.symm), model, EReal.coe_sub]

/-- The slopes at both ends predict what the model predicts. -/
theorem ledge_ratio (before : t.before = 0) (model : t.model = ledgeSlope)
    (slope : t.slope = ledgeSlope) : RegionOptions.standard.acceptFrom ≤
      t.estimated (ledgeSlope : EReal) / t.predicted := by
  have estimated : t.estimated (ledgeSlope : EReal) = (ledgeSlope : EReal) := by
    rw [Trial.estimated, slope, ← EReal.coe_one, ← EReal.coe_add, ← EReal.coe_add, ← EReal.coe_div]
    congr 1
    ring
  rw [estimated, ledge_predicted before model, ← EReal.coe_div]
  change (1e-4 : EReal) ≤ _
  rw [ofScientific_eq, EReal.coe_le_coe_iff]
  norm_num [ledgeSlope, ledgeWidth, ledgeIncline, Trial.realShift]

theorem ledge_judged {p : Progress EReal ConjugateGradient.subsolver 1}
    (stands : ledgeProgress.Stands p) :
    ∃ q ratio, (ledgeSetting.judge p ledgeTrial).eval ledgeAnswer = some (.judged q ratio) ∧
      ledgeSetting.options.region.acceptFrom ≤ ratio ∧ q.x = ledgeTrial.point := by
  have before : (ledgeTrial.rated p).before = 0 := stands.value
  have descends : (ledgeTrial.rated p).predicted < 0 := by
    rw [ledge_predicted before ledge_model.1, EReal.coe_neg']
    norm_num [ledgeSlope, ledgeWidth, ledgeIncline, Trial.realShift]
  have finite : IsFinite (ledgeTrial.rated p).after := isFinite_coe 1
  have near : abs (ledgeTrial.rated p).model < Trial.roundoff := by
    change abs ledgeTrial.model.value < _
    have width : 0 ≤ ledgeWidth * ledgeIncline := by norm_num [ledgeWidth, ledgeIncline]
    rw [ledge_model.1, abs_coe, Trial.roundoff_coe, EReal.coe_lt_coe_iff, ledgeSlope, abs_neg,
      abs_of_nonneg width]
    norm_num [ledgeWidth, ledgeIncline]
  have turned : (ledgeGradient ledgeTrial.point).dot ledgeTrial.step = (ledgeSlope : EReal) := by
    change (Vec.ofReal _).dot (Vec.ofReal _) = _
    rw [Vec.dot_ofReal, dotProduct_comm, ledge_slope]
  have accepted := ledge_ratio before ledge_model.1 ledge_model.2
  rw [← turned] at accepted
  have rated : ((p.state.region.rate ledgeSetting.options.region (ledgeTrial.rated p)
      ledgeTrial.step).through (ledgeSetting.gradientAtTrial p.state.buffers ledgeTrial.point)
        p.evaluations.gradient).eval ledgeAnswer =
      some (some ⟨p.state.region.judged ledgeSetting.options.region (ledgeTrial.rated p)
        ((ledgeTrial.rated p).estimated ((ledgeGradient ledgeTrial.point).dot ledgeTrial.step)),
          some (ledgeGradient ledgeTrial.point)⟩, p.evaluations.gradient + 1) := by
    rw [TrustRegion.rate, if_neg (not_not.2 descends), if_neg (not_not.2 finite),
      if_pos (.inl near)]
    rfl
  obtain ⟨q, judged, there, -⟩ := Setting.eval_judge rated accepted fun q => ⟨q, rfl⟩
  exact ⟨q, _, judged, accepted, there⟩

/-- The first step is accepted, and the objective rises from zero to one: the exception for steps whose
model is below round-off is needed. -/
theorem ledge_rises : ¬ (ledgeSolver.state.resize 1).EachTurn ledgeSolver.options ledgeBox
    (Vec.zeros 1) 9 (ledgeBox.describing ledgeValue ledgeGradient)
    (fun p _ turn => turn.Descends ledgeSolver.options.region ledgeValue False p) true := by
  intro each
  have relied := ledgeBox.plainAnswer_relied ledgeValue ledgeGradient fun _ => flat
  obtain ⟨a, tried, stands, step⟩ := ledge_attempts
  obtain ⟨q, ratio, judged, high, there⟩ := ledge_judged stands
  rw [← step] at judged
  have descends := each.first relied ledge_begins rfl tried judged
  rcases descends.1 high with excused | close
  · exact excused
  · have start : ledgeValue ledgeProgress.x = ((0 : ℝ) : EReal) := ledgeValue_start
    have raised : ledgeValue q.x = ((1 : ℝ) : EReal) := there ▸ ledgeValue_end
    rw [start, raised, Trial.larger_abs_coe, Trial.roundoff_coe, ← EReal.coe_mul, ← EReal.coe_add,
      EReal.coe_le_coe_iff] at close
    norm_num at close

/-- The objective with the ledge is finite, so every step of this minimization descends or is excused. -/
theorem solve_descends_ledge : (∀ x, IsFinite (ledgeValue x)) ∧ ledgeSolver.options.fault? = none ∧
    (ledgeSolver.state.resize 1).EachTurn ledgeSolver.options ledgeBox (Vec.zeros 1) 9
      (ledgeBox.describing ledgeValue ledgeGradient)
      (fun p t turn => turn.Descends ledgeSolver.options.region ledgeValue
        (t.IsExcused ledgeGradient p.x) p) true := by
  have usable : ledgeSolver.options.fault? = none := Options.fault?_standard
  exact ⟨ledgeValue_finite, usable, ledgeSolver.solve_descends ⟨1, Nat.one_pos, ledgeBox⟩
    (Vec.zeros 1) 9 ledgeValue ledgeGradient ledgeValue_finite usable⟩

end Ledge

end BoxNewton
