import Mathlib
import BoxNewton.Proofs.ExactIteration
import BoxNewton.Proofs.ModelDecrease
import BoxNewton.Proofs.ObjectiveChange

/-!
# The step that is judged

A refinement keeps a point and a step apart. In exact arithmetic it moves both alike, keeps the product of
the Hessian with the step and stays in the box, whatever real vectors the subsolver returns; and each of
its passes changes free variables only (`Refinement.KeepsStep`). So when a step is judged, the trial point
is the current point with the step added, and the value and the slope of the model are those of this very
step (`Subsolver.keepsStep`). Nothing is asked of the Hessian but that it acts on real vectors, and the
observer may move the point between two iterations.

A minimization of half the square on a segment is followed to its end: its only step is judged like that
(`half_minimizes`).
-/

set_option autoImplicit false

namespace BoxNewton

open Dialogue (Contract)

variable {S : Subsolver EReal} {n : Nat}

/-! ## Refinements -/

/-- A refinement with the operator `A`, which acts on real vectors by `H`, keeps its point and its step
together from a state at the point `x` with the step `s`. -/
structure Refinement.KeepsStep (r : Refinement EReal n) (S : Subsolver EReal)
    (A : Vec EReal n → Vec EReal n) (H : (Fin n → ℝ) → Fin n → ℝ) (x s : Fin n → ℝ)
    (st : State EReal n S.State) : Prop where
  /-- Wherever it ends, the point has moved by what was added to the step, the product is the one with the
  step, and the point is in the box. -/
  moves : ∀ (fuel : Nat) status out, (r.run S fuel st).eval (answeredBy A) = some (status, out) →
    ∃ x' s', out.At r.box H x' s' ∧ x' - x = s' - s
  /-- It gets there by passes. -/
  passes : ∀ (fuel : Nat) status out, (r.run S fuel st).eval (answeredBy A) = some (status, out) →
    r.Reaches S A st out
  /-- A pass changes free variables only. -/
  stays : ∀ st₁ d found st₂, r.Reaches S A st st₁ → r.Pass S A st₁ d found st₂ →
    ∀ i, (∀ k, (r.freeVariables st₁).index k ≠ i) →
      st₂.x.get i = st₁.x.get i ∧ st₂.s.get i = st₁.s.get i

theorem Refinement.State.At.holdsTogether {r : Refinement EReal n} {A : Vec EReal n → Vec EReal n}
    {H : (Fin n → ℝ) → Fin n → ℝ} {x g s : Fin n → ℝ} {st : State EReal n S.State}
    (here : st.At r.box H x s) (acts : Vec.ActsBy A H) (gradient : r.g = Vec.ofReal g)
    (returns : S.ReturnsReal r.radius r.tolerance r.limit) : r.KeepsStep S A H x s st where
  moves _ _ _ went := run_moves acts gradient returns here went
  passes fuel _ _ went := reaches_of_run fuel st went
  stays _ _ _ _ _ pass _ away := pass.stays away

/-! ## Minimizations -/

/-- What is relied on in an answer: at real points the gradients are real, the products are those of `H`,
and the observer hands back real vectors for real ones. -/
def Query.exactly (H : Vec EReal n → Vec EReal n → Vec EReal n) (q : Query EReal n) (a : q.Reply) :
    Prop :=
  match q, a with
  | .gradient x _, g => x.IsReal → Vec.IsReal g
  | .valueGradient x _, both => x.IsReal → Vec.IsReal both.2
  | .product x v _, hv => hv = H x v
  | .observe x g _, seen => x.IsReal → g.IsReal → Vec.IsReal seen.x ∧ Vec.IsReal seen.g
  | _, _ => True

section Answers

variable {H : Vec EReal n → Vec EReal n → Vec EReal n}

theorem Query.exactAnswers_exactly : Query.ExactAnswers (Query.exactly H) where
  gradient x _ _ real := real ⟨x, rfl⟩
  valueGradient x _ _ real := real ⟨x, rfl⟩
  observe x g _ _ real := real ⟨x, rfl⟩ ⟨g, rfl⟩

/-- Either source finds the products of its operator. -/
theorem HessianModel.appliesAt_exactly (model : HessianModel EReal n) (x : Vec EReal n) :
    model.AppliesAt (Query.exactly H) H x := by
  intro q asked
  cases model with
  | exact => exact ⟨trivial, fun hv product => product⟩
  | secant memory => rfl

end Answers

/-- Every trial step leads from the point of its iteration to the trial point, and is judged by the model
of this step, with what the model of the Hessian does to it. -/
def KeepsSteps (episodes : List (Episode EReal S n)) (box : Box EReal n)
    (H : Vec EReal n → Vec EReal n → Vec EReal n) : Prop :=
  ∀ e ∈ episodes, ∀ a ∈ e.assessment, ∃ B x g s,
    Vec.ActsBy (e.start.state.model.operator H e.start.x) B ∧ a.IsExact box e.start B x g s

theorem SolverState.throughout_keepsSteps (state : SolverState EReal S n) {options : Options EReal}
    {box : Box EReal n} {H : Vec EReal n → Vec EReal n → Vec EReal n} (exact : options.ExactFor S)
    (acts : ∀ x, ∃ h, Vec.ActsBy (H (Vec.ofReal x)) h) (real : state.model.IsReal)
    (inside : ∃ y, box.Contains (Vec.ofReal y)) (start : Fin n → ℝ) (fuel : Nat) :
    state.Throughout options box (Vec.ofReal start) fuel (.relying (Query.exactly H))
      (fun episodes _ => KeepsSteps episodes box H) () := by
  refine state.throughout_each exact Query.exactAnswers_exactly acts real inside start fuel
    HessianModel.appliesAt_exactly ?_
  rintro st p e - rfl episode
  rw [episode.records.start]
  exact episode.steps

/-- **The step that is judged, in exact arithmetic.** Let the subsolver return any real vectors. Whenever a
refinement with an operator on real vectors ends, its point has moved by what was added to the step, the
product is the one with the step, the point is in the box, and each pass has changed free variables only.
In a minimization with real options and real answers, every trial step, of a run to the end or of the first
iterations of one that need not end, leads from the point of its iteration to the trial point, and the
model that it is judged by is the model of this step. -/
theorem Subsolver.keepsStep (S : Subsolver EReal) :
    (∀ {n : Nat} (r : Refinement EReal n) (A : Vec EReal n → Vec EReal n)
        (H : (Fin n → ℝ) → Fin n → ℝ) (g x s : Fin n → ℝ) (st : Refinement.State EReal n S.State),
      Vec.ActsBy A H → r.g = Vec.ofReal g → S.ReturnsReal r.radius r.tolerance r.limit →
        st.At r.box H x s → r.KeepsStep S A H x s st) ∧
    ∀ (solver : Solver EReal S) (dom : Domain EReal) (start : Fin dom.dim → ℝ) (fuel : Nat)
        (H : Vec EReal dom.dim → Vec EReal dom.dim → Vec EReal dom.dim),
      solver.options.ExactFor S → (∀ x, ∃ h, Vec.ActsBy (H (Vec.ofReal x)) h) →
        solver.state.model.IsReal → (∃ y, dom.box.Contains (Vec.ofReal y)) →
      (solver.state.resize dom.dim).Throughout solver.options dom.box (Vec.ofReal start) fuel
        (.relying (Query.exactly H)) (fun episodes _ => KeepsSteps episodes dom.box H) () ∧
      ∀ {ω : Type} (p : Problem EReal) (observer : Observer EReal ω) (clock : Clock ω) (w : ω)
          (solution : Solution EReal S ω dom.dim),
        (∀ q w a w', p.objective.answer observer clock q w = .ok (a, w') → Query.exactly H q a) →
        solver.run p dom (Vec.ofReal start).toArray observer clock fuel w = .ok (.ok solution) →
          ∃ episodes, solver.HasChronicle p dom (Vec.ofReal start).toArray observer clock fuel w
            solution episodes ∧ KeepsSteps episodes dom.box H := by
  constructor
  · intro n r A H g x s st acts gradient returns here
    exact here.holdsTogether acts gradient returns
  · intro solver dom start fuel H exact acts real inside
    have throughout := (solver.state.resize dom.dim).throughout_keepsSteps exact acts
      (SolverState.resize_isReal real dom.dim) inside start fuel
    refine ⟨throughout, ?_⟩
    intro ω p observer clock w solution relied ran
    obtain ⟨episodes, chronicle⟩ := Solver.exists_chronicle ran
    obtain ⟨last, kept, -⟩ := chronicle.described relied throughout
    exact ⟨episodes, chronicle, kept⟩

/-! ## A halved distance

On the segment from one half to two, the first trial step for half the square leads from one to the lower
bound, which is the minimum. It is the Cauchy step: nothing is free there, so there is nothing to refine.
The minimization ends with this one step, whatever source acts as the identity on real vectors. -/

section Halving

open Scalar

/-- The vector with one real entry. -/
noncomputable def entry (a : ℝ) : Vec EReal 1 := Vec.ofReal fun _ => a

theorem half_ordered : ∀ _ : Fin 1, (0.5 : ℝ) ≤ 2.0 := fun _ => by norm_num

/-- The segment from one half to two. -/
noncomputable def halfBox : Box EReal 1 := .ofReal (fun _ => 0.5) (fun _ => 2.0) half_ordered

theorem norm_entry (a : ℝ) : (entry a).norm = ((|a| : ℝ) : EReal) := by
  rw [entry, Vec.norm_ofReal]
  simp [dotProduct, Real.sqrt_mul_self_eq_abs]

theorem dot_entry (a b : ℝ) : (entry a).dot (entry b) = ((a * b : ℝ) : EReal) := by
  rw [entry, entry, Vec.dot_ofReal]
  simp [dotProduct]

theorem half_project {a : ℝ} (low : 0.5 ≤ a) (high : a ≤ 2.0) :
    halfBox.project (entry a) = entry a :=
  Box.project_ofReal ((Box.contains_ofReal half_ordered).2 fun _ => ⟨low, high⟩)

theorem half_path (a b t : ℝ) : halfBox.projectedStep (entry a) (entry b) (t : EReal) =
    entry (min (max (a + t * b) 0.5) 2.0 - a) :=
  Box.projectedStep_ofReal half_ordered _ _ _

theorem half_stationarity (a : ℝ) : stationarityAt halfBox (entry a) (entry a) =
    ((|min (max (a + -1 * a) 0.5) 2.0 - a| : ℝ) : EReal) := by
  have back : (-1 : EReal) = ((-1 : ℝ) : EReal) := by rw [EReal.coe_neg, EReal.coe_one]
  rw [stationarityAt, back, half_path, norm_entry]

theorem sphere_entry (a : ℝ) : (0.5 * (entry a).normSq : EReal) = ((0.5 * (a * a) : ℝ) : EReal) := by
  have half : (0.5 : EReal) = ((0.5 : ℝ) : EReal) := by rw [ofScientific_eq]
  rw [half, Vec.normSq, dot_entry, ← EReal.coe_mul]

/-! ### The start -/

variable (model : HessianModel EReal 1)

/-- A new minimizer with a model of the Hessian. -/
noncomputable def halfState : SolverState EReal ConjugateGradient.subsolver 1 := .initial _ model

/-- What does not change after the start. -/
noncomputable def halfSetting : Setting EReal 1 where
  options := .standard
  box := halfBox
  tolerance := Options.standard.tolerance ((0.5 : ℝ) : EReal)
  floor := smaller (-1) ((0.5 : ℝ) : EReal) / epsilon
  fuel := 9

/-- The state before the first iteration. -/
noncomputable def halfProgress : Progress EReal ConjugateGradient.subsolver 1 where
  x := entry 1
  value := ((0.5 : ℝ) : EReal)
  g := entry 1
  stationarity := ((0.5 : ℝ) : EReal)
  status := .unknown
  iteration := 0
  acceptedSteps := 0
  innerIterations := 0
  evaluations := ⟨1, 1, 0⟩
  state := { halfState model with
    region := TrustRegion.initial.start .standard (startRadius ((0.5 : ℝ) : EReal)) }

theorem half_begins : ((halfState model).begin .standard halfBox (entry 1) 9).eval sphereAnswer =
    some (halfSetting, halfProgress model) := by
  have still : halfBox.project (entry 1) = entry 1 := half_project (by norm_num) (by norm_num)
  have value : (0.5 * (entry 1).normSq : EReal) = ((0.5 : ℝ) : EReal) := by
    rw [sphere_entry]
    norm_num
  have nonneg : (0 : EReal) ≤ ((0.5 : ℝ) : EReal) := by
    rw [EReal.coe_nonneg]
    norm_num
  have stationarity : stationarityAt halfBox (entry 1) (id (entry 1)) = ((0.5 : ℝ) : EReal) := by
    rw [id, half_stationarity]
    norm_num
  have away : ¬ ((0.5 : ℝ) : EReal) ≤ sqrtEpsilon + sqrtEpsilon * ((0.5 : ℝ) : EReal) := by
    rw [sqrtEpsilon_eq, ← EReal.coe_mul, ← EReal.coe_add, EReal.coe_le_coe_iff]
    norm_num
  exact SolverState.eval_begin_standard (f := fun x => 0.5 * x.normSq) (H := fun _ v => v)
    (halfState model) still value nonneg stationarity away 9

theorem half_radius : (halfProgress model).state.region.radius = 1 :=
  startRadius_standard (by norm_num)

/-! ### The trial step -/

variable {model : HessianModel EReal 1}

theorem half_step : (halfSetting.cauchySearch (halfProgress model)).step 1 = entry (-0.5) := by
  have direction : -entry 1 = entry (-1) := Vec.ofReal_neg _
  change halfBox.projectedStep (entry 1) (-entry 1) 1 = _
  rw [direction, ← EReal.coe_one, half_path]
  norm_num

/-- The trial step leads to the lower bound. -/
noncomputable def halfTrial : Setting.TrialStep EReal 1 where
  point := entry 0.5
  value := ((0.125 : ℝ) : EReal)
  step := entry (-0.5)
  model := ModelValue.ofImage (entry 1) (entry (-0.5)) (entry (-0.5))

theorem half_model : halfTrial.model.value = ((-0.375 : ℝ) : EReal) ∧
    halfTrial.model.slope = ((-0.5 : ℝ) : EReal) := by
  change (ModelValue.ofImage (Vec.ofReal _) (Vec.ofReal _) (Vec.ofReal _)).value = _ ∧
    (ModelValue.ofImage (Vec.ofReal _) (Vec.ofReal _) (Vec.ofReal _)).slope = _
  rw [ModelValue.ofImage_ofReal]
  constructor
  · norm_num [dotProduct]
  · norm_num [dotProduct]

theorem half_found {A : Vec EReal 1 → Vec EReal 1} (unit : Vec.ActsBy A id) (hs : Vec EReal 1) :
    ((halfSetting.cauchySearch (halfProgress model)).find halfSetting.fuel
        (halfProgress model).state.cauchyLength hs).eval (answeredBy A) =
      some (.found 1 (entry (-0.5)) (entry (-0.5))) := by
  let search := halfSetting.cauchySearch (halfProgress model)
  have step : search.step 1 = entry (-0.5) := half_step
  have image : A (entry (-0.5)) = entry (-0.5) := unit _
  have fits : (search.step 1).norm ≤ search.maxNorm := by
    have limit : search.maxNorm = 1 := (congrArg _ (half_radius model)).trans (mul_one _)
    rw [step, norm_entry, limit, ← EReal.coe_one, EReal.coe_le_coe_iff]
    norm_num [abs_of_pos]
  have holds : ¬ (ModelValue.ofImage search.g (search.step 1)
      (A (search.step 1))).IsInsufficient search.mu0 := by
    rw [step, image]
    change ¬ halfTrial.model.IsInsufficient 1e-2
    rw [ModelValue.IsInsufficient, half_model.1, half_model.2, ofScientific_eq, ← EReal.coe_mul,
      EReal.coe_le_coe_iff]
    norm_num
  have past : ¬ 1 ≤ (search.box.breakpoints search.x search.d).max := by
    have direction : search.d = entry (-1) := Vec.ofReal_neg _
    have meets : search.box.breakpoint? search.x search.d 0 = some ((0.5 : ℝ) : EReal) := by
      rw [direction]
      refine (Box.breakpoint?_ofReal half_ordered _ _ _).trans ?_
      norm_num
    rw [Box.breakpoints_single (by norm_num) meets, ← EReal.coe_one, EReal.coe_le_coe_iff]
    norm_num
  have found := CauchySearch.find_beyond A fits holds past 8 hs
  rw [step, image] at found
  exact found

/-- At the lower bound nothing is free, so the Cauchy step is not refined. -/
theorem half_refined {A : Vec EReal 1 → Vec EReal 1} {p : Progress EReal ConjugateGradient.subsolver 1}
    (gradient : p.g = entry 1)
    (start : Refinement.State EReal 1 ConjugateGradient.subsolver.State)
    (here : start.x = entry 0.5) (image : start.hs = entry (-0.5)) :
    ((halfSetting.refinement p).run ConjugateGradient.subsolver halfSetting.fuel start).eval
      (answeredBy A) = some (.stationaryPoint, start) := by
  have slope : (halfSetting.refinement p).modelGradient start = entry 0.5 := by
    change p.g + start.hs = _
    rw [gradient, image, entry, entry, Vec.ofReal_add, entry]
    refine congrArg _ (funext fun _ => ?_)
    norm_num
  have blocked : ¬ halfBox.IsFree start.x ((halfSetting.refinement p).modelGradient start) 0 := by
    rw [here, slope]
    refine not_not.2 (.inl ⟨?_, ?_⟩)
    · rw [entry, Vec.get_ofReal]
      exact le_rfl
    · rw [entry, Vec.get_ofReal, EReal.coe_nonneg]
      norm_num
  exact Refinement.eval_run_of_isEmpty 8 (Box.isEmpty_freeVariables blocked)

/-! ### The judgement -/

/-- Neither the model nor the change of the objective is dominated by round-off. -/
theorem half_far {p : Progress EReal ConjugateGradient.subsolver 1}
    (stands : (halfProgress model).Stands p) : ¬ (halfTrial.rated p).IsNearRoundoff := by
  have before : (halfTrial.rated p).before = ((0.5 : ℝ) : EReal) := stands.value
  have actual : (halfTrial.rated p).actual =
      ((0.125 - 0.5 + Trial.realShift 0.5 : ℝ) : EReal) := Trial.actual_coe before rfl
  rintro (small | small)
  · change abs halfTrial.model.value < _ at small
    rw [half_model.1, abs_coe, Trial.roundoff_coe, EReal.coe_lt_coe_iff] at small
    norm_num at small
  · rw [actual, before, abs_coe, abs_coe, Trial.roundoff_coe, ← EReal.coe_mul,
      EReal.coe_lt_coe_iff] at small
    norm_num [Trial.realShift] at small

theorem half_judged {p : Progress EReal ConjugateGradient.subsolver 1}
    (stands : (halfProgress model).Stands p) :
    ∃ q ratio, (halfSetting.judge p halfTrial).eval sphereAnswer = some (.judged q ratio) ∧
      RegionOptions.standard.acceptFrom ≤ ratio ∧ q.x = entry 0.5 ∧ q.stationarity = 0 := by
  have before : (halfTrial.rated p).before = ((0.5 : ℝ) : EReal) := stands.value
  have predicted : (halfTrial.rated p).predicted =
      ((-0.375 - Trial.realShift 0.5 : ℝ) : EReal) := by
    rw [Trial.predicted, Trial.shift_coe before]
    change halfTrial.model.value - _ = _
    rw [half_model.1, EReal.coe_sub]
  have actual : (halfTrial.rated p).actual =
      ((0.125 - 0.5 + Trial.realShift 0.5 : ℝ) : EReal) := Trial.actual_coe before rfl
  have descends : (halfTrial.rated p).predicted < 0 := by
    rw [predicted, EReal.coe_neg']
    norm_num [Trial.realShift]
  have finite : IsFinite (halfTrial.rated p).after := isFinite_coe _
  have accepted : RegionOptions.standard.acceptFrom ≤
      (halfTrial.rated p).actual / (halfTrial.rated p).predicted := by
    rw [actual, predicted, ← EReal.coe_div]
    change (1e-4 : EReal) ≤ _
    rw [ofScientific_eq, EReal.coe_le_coe_iff]
    norm_num [Trial.realShift]
  have rated : ((p.state.region.rate halfSetting.options.region (halfTrial.rated p)
      halfTrial.step).through (halfSetting.gradientAtTrial p.state.buffers halfTrial.point)
        p.evaluations.gradient).eval sphereAnswer =
      some (some ⟨p.state.region.judged halfSetting.options.region (halfTrial.rated p)
        (halfTrial.rated p).actual, none⟩, p.evaluations.gradient) := by
    rw [TrustRegion.rate, if_neg (not_not.2 descends), if_neg (not_not.2 finite),
      if_neg (half_far stands)]
    rfl
  have stationary : stationarityAt halfBox (entry 0.5) (entry 0.5) = 0 := by
    rw [half_stationarity]
    norm_num
  obtain ⟨q, judged, there, slope⟩ := Setting.eval_judge (g := entry 0.5) rated accepted fun q => ⟨_, rfl⟩
  exact ⟨q, _, judged, accepted, there, slope.trans stationary⟩

/-! ### The run -/

/-- The products of the sphere. -/
def sphereHessian (_ v : Vec EReal 1) : Vec EReal 1 := v

/-- A dialogue about products comes to what it comes to with the operator of the model. -/
theorem sphere_products {β : Type} {x : Vec EReal 1} {d : OperatorDialogue EReal 1 β} {b : β}
    (found : d.eval (answeredBy (model.operator sphereHessian x)) = some b) (asked : Nat) :
    ∃ asked', (d.through (model.answer x) asked).eval sphereAnswer = some (b, asked') := by
  have finds : ∀ q asked, ∃ asked', (model.answer x q asked).eval sphereAnswer =
      some (answeredBy (model.operator sphereHessian x) q, asked') := by
    intro q asked
    cases model with
    | exact => exact ⟨asked + 1, rfl⟩
    | secant memory => exact ⟨asked, rfl⟩
  have same := Dialogue.eval_through finds d asked
  rw [found, Option.map_eq_some_iff] at same
  obtain ⟨⟨_, asked'⟩, went, rfl⟩ := same
  exact ⟨asked', went⟩

/-- The first iteration makes the step to the lower bound and accepts it. -/
theorem half_iterates (unit : Vec.ActsBy (model.operator sphereHessian (entry 1)) id) :
    ∃ a q ratio, (halfSetting.iterateRecorded (halfProgress model)).eval sphereAnswer =
        some ⟨halfProgress model, some a, .judged q ratio⟩ ∧
      RegionOptions.standard.acceptFrom ≤ ratio ∧ q.x = entry 0.5 ∧ q.stationarity = 0 ∧
      a.step = halfTrial ∧ (halfProgress model).Stands a.state := by
  obtain ⟨products, found⟩ := sphere_products
    (half_found unit (halfProgress model).state.buffers.image) 0
  have lands : halfBox.project (entry 1 + entry (-0.5)) = entry 0.5 := by
    have sum : entry 1 + entry (-0.5) = entry 0.5 := by
      rw [entry, entry, Vec.ofReal_add, entry]
      refine congrArg _ (funext fun _ => ?_)
      norm_num
    rw [sum]
    exact half_project le_rfl (by norm_num)
  let p : Progress EReal ConjugateGradient.subsolver 1 :=
    { halfProgress model with state.cauchyLength := 1 }
  obtain ⟨all, refined⟩ := sphere_products (half_refined (A := model.operator sphereHessian (entry 1))
      (p := p) rfl ⟨halfBox.project (entry 1 + entry (-0.5)), entry (-0.5),
        entry (-0.5), 0, p.state.subsolver⟩ lands rfl) products
  have counted : Storage.FitsWord ((halfProgress model).innerIterations + 0) := by
    change Storage.FitsWord 0
    decide
  obtain ⟨a, tried, same, step⟩ := halfSetting.eval_attempt (halfProgress model) rfl found refined counted
  have value : (0.5 * (entry 0.5).normSq : EReal) = ((0.125 : ℝ) : EReal) := by
    rw [sphere_entry]
    norm_num
  have step : a.step = halfTrial := by
    rw [step]
    simp only [lands, sphereAnswer, plainAnswer, value]
    rfl
  obtain ⟨q, ratio, judged, high, there, stationary⟩ := half_judged same
  rw [← step] at judged
  refine ⟨a, q, ratio, ?_, high, there, stationary, step, same⟩
  rw [Setting.iterateRecorded, Dialogue.eval_bind, tried, Option.bind_some]
  simp only [Setting.settle, Dialogue.eval_bind, judged, Option.bind_some, Dialogue.eval_pure]
  rfl

/-- The whole minimization: one step, which is accepted. -/
theorem half_minimizes (unit : Vec.ActsBy (model.operator sphereHessian (entry 1)) id) :
    ∃ e found, ((halfState model).minimizeRecorded .standard halfBox (entry 1) 9).eval sphereAnswer =
        some ([e], found) ∧ e.assessment.isSome = true ∧
      e.turn.accepts (.standard : RegionOptions EReal) = true ∧ e.start.x = entry 1 ∧
      e.turn.progress.x = entry 0.5 ∧
      ∃ a ∈ e.assessment, a.step = halfTrial ∧ (halfProgress model).Stands a.state := by
  obtain ⟨a, q, ratio, iterated, high, there, stationary, step⟩ := half_iterates unit
  have reached : (0 : EReal) ≤ halfSetting.tolerance := by
    change (0 : EReal) ≤ sqrtEpsilon + sqrtEpsilon * ((0.5 : ℝ) : EReal)
    rw [sqrtEpsilon_eq, ← EReal.coe_mul, ← EReal.coe_add, EReal.coe_nonneg]
    norm_num
  obtain ⟨last, concluded, stopped⟩ : ∃ last,
      (halfSetting.conclude q ratio).eval sphereAnswer = some last ∧ last.status = .firstOrder := by
    simp only [Setting.conclude, Setting.verdict, stationary, if_pos reached, Setting.checkpoint,
      Query.askObserver, Dialogue.eval_bind, Dialogue.eval_pure, Dialogue.eval_remarkWhen,
      Dialogue.eval_question, Option.bind_some, sphereAnswer, plainAnswer]
    exact ⟨_, rfl, rfl⟩
  have ended : last.status ≠ .unknown := by
    rw [stopped]
    decide
  have going : (halfProgress model).status = .unknown := rfl
  have opened : (halfSetting.opening 9 (halfProgress model)).eval sphereAnswer =
      some ([⟨halfProgress model, some a, .judged q ratio⟩], last) := by
    rw [Setting.opening, if_neg (not_not.2 going), Dialogue.eval_bind, iterated, Option.bind_some]
    simp only [Dialogue.eval_bind, concluded, Option.bind_some, Setting.opening, if_pos ended,
      Dialogue.eval_pure]
  refine ⟨⟨halfProgress model, some a, .judged q ratio⟩,
    ⟨last.x, last.report, { last.state with buffers.gradient := last.g }⟩, ?_, rfl,
    decide_eq_true high, rfl, there, a, rfl, step⟩
  rw [SolverState.minimizeRecorded, Dialogue.eval_bind, half_begins, Option.bind_some]
  simp only [Dialogue.eval_bind, opened, Option.bind_some, Setting.loop_of_ended _ _ ended,
    Dialogue.eval_pure, Dialogue.eval_remark]

/-- The minimizer with a model of the Hessian. -/
noncomputable def halfSolver (model : HessianModel EReal 1) :
    Solver EReal ConjugateGradient.subsolver := ⟨.standard, 1, halfState model⟩

/-- The segment as a domain. -/
noncomputable def halfDomain : Domain EReal := ⟨1, Nat.one_pos, halfBox⟩

/-- Half the square on the segment. -/
noncomputable def halfProblem : Problem EReal := .minimize Sphere.objective halfDomain

theorem halfProblem_answer (q : Query EReal 1) (w : Unit) :
    halfProblem.objective.answer .silent .stopped q w = .ok (sphereAnswer q, w) :=
  Sphere.computes.answer_eq Sphere.product q w

/-- Whatever holds of the plain answers is relied on. -/
theorem halfProblem_relied {known : (q : Query EReal 1) → q.Reply → Prop}
    (holds : ∀ q, known q (sphereAnswer q)) (q : Query EReal 1) (w : Unit) (a : q.Reply) (w' : Unit)
    (answered : halfProblem.objective.answer .silent .stopped q w = .ok (a, w')) :
    known q a := by
  cases (halfProblem_answer q w).symm.trans answered
  exact holds q

/-- The run of the minimization. -/
theorem half_runs (unit : Vec.ActsBy (model.operator sphereHessian (entry 1)) id) :
    ∃ solution e, (halfSolver model).run halfProblem halfDomain (entry 1).toArray .silent
        .stopped 9 () = .ok (.ok solution) ∧
      (halfSolver model).HasChronicle halfProblem halfDomain (entry 1).toArray .silent .stopped 9 ()
        solution [e] ∧
      e.assessment.isSome = true ∧ e.turn.accepts (.standard : RegionOptions EReal) = true ∧
      e.start.x = entry 1 ∧ e.turn.progress.x = entry 0.5 ∧
      ∃ a ∈ e.assessment, a.step = halfTrial ∧ (halfProgress model).Stands a.state := by
  obtain ⟨e, found, ended, facts⟩ := half_minimizes unit
  have made := (halfSolver model).solve_eq halfProblem halfDomain (entry 1) 9 rfl Options.fault?_standard
  obtain ⟨solution, ran, chronicle⟩ := Solver.exists_hasChronicle halfProblem_answer made ended ()
  exact ⟨solution, e, ran, chronicle, facts⟩

/-! ### The steps that are judged -/

theorem options_exactFor : (Options.standard : Options EReal).ExactFor ConjugateGradient.subsolver where
  usable := Options.fault?_standard
  sigma := EReal.coe_lt_top _
  growth := EReal.coe_lt_top _
  returns radius _ := by
    have tolerance : (Options.standard : Options EReal).innerTolerance = ((1 / 10 : ℝ) : EReal) := by
      change (0.1 : EReal) = _
      rw [ofScientific_eq]
      norm_num
    rw [tolerance]
    exact @ConjugateGradient.subsolver_returnsReal radius (1 / 10) _

theorem half_inside : halfBox.Contains (Vec.ofReal fun _ => 1) :=
  (Box.contains_ofReal half_ordered).2 fun _ => ⟨by norm_num, by norm_num⟩

theorem sphereHessian_actsBy (x : Fin 1 → ℝ) : Vec.ActsBy (sphereHessian (Vec.ofReal x)) id :=
  fun _ => rfl

theorem half_exactly (q : Query EReal 1) : Query.exactly sphereHessian q (sphereAnswer q) := by
  cases q with
  | value x => trivial
  | gradient x out => exact id
  | valueGradient x out => exact id
  | product x v out => rfl
  | observe x g report => exact fun point gradient => ⟨point, gradient⟩
  | outOfTime limit => trivial

/-- The refinement that overshoots starts in exact arithmetic. -/
theorem overshootStart_at : overshootStart.At overshoot.box coupled ![-(5 / 8), 0] ![-(5 / 8), 0] := by
  refine ⟨overshootStart_x, rfl, ?_, ?_⟩
  · rw [coupled_apply]
    norm_num [overshootStart, ExactModel.start]
  · exact (Box.contains_ofReal overshoot_ordered).2 fun i => by fin_cases i <;> norm_num

/-- The refinement that overshoots keeps its point and its step together, and the step to the lower bound
leads there. -/
theorem keepsStep_halving :
    (∃ status out, (overshoot.refinement.run ConjugateGradient.subsolver 2 overshootStart).eval
        (answeredBy overshoot.hessian.answer) = some (status, out) ∧
      ∃ x s, out.At overshoot.box coupled x s ∧ x - ![-(5 / 8), 0] = s - ![-(5 / 8), 0]) ∧
    ∃ solution e, (halfSolver .exact).run halfProblem halfDomain (entry 1).toArray .silent
        .stopped 9 () = .ok (.ok solution) ∧
      (halfSolver .exact).HasChronicle halfProblem halfDomain (entry 1).toArray .silent .stopped 9 ()
        solution [e] ∧
      e.assessment.isSome = true ∧ KeepsSteps [e] halfBox sphereHessian := by
  obtain ⟨refinements, minimizations⟩ := ConjugateGradient.subsolver.keepsStep
  constructor
  · obtain ⟨status, out, went, -⟩ := overshoot_run
    have kept := refinements overshoot.refinement overshoot.hessian.answer coupled ![3 / 8, 1]
      ![-(5 / 8), 0] ![-(5 / 8), 0] overshootStart (Curvature.answer_ofReal _) rfl
      (ConjugateGradient.subsolver_returnsReal _ _ _) overshootStart_at
    exact ⟨status, out, went, kept.moves 2 status out went⟩
  · have unit : Vec.ActsBy (HessianModel.exact.operator sphereHessian (entry 1)) id := fun _ => rfl
    obtain ⟨solution, e, ran, chronicle, judged, -⟩ := half_runs unit
    obtain ⟨-, runs⟩ := minimizations (halfSolver .exact) halfDomain (fun _ => 1) 9 sphereHessian
      options_exactFor (fun x => ⟨id, sphereHessian_actsBy x⟩) trivial ⟨_, half_inside⟩
    obtain ⟨episodes, chronicle', kept⟩ := runs halfProblem .silent .stopped () solution
      (halfProblem_relied half_exactly) ran
    obtain rfl := chronicle.unique chronicle'
    exact ⟨solution, e, ran, chronicle, judged, kept⟩

end Halving

end BoxNewton
