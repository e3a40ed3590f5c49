import Mathlib
import BoxNewton.Proofs.CauchyStep
import BoxNewton.Proofs.Chronicle
import BoxNewton.Proofs.RadiusRange
import BoxNewton.Proofs.SecantHistory
import BoxNewton.Proofs.StepBookkeeping

/-!
# Iterations in exact arithmetic

An iteration with an operator for the Hessian finds a Cauchy step and refines it, and what the two come to
is what they come to with that operator (`Setting.iterateRecorded_comesFrom`). In exact arithmetic both
stay among real numbers, so the trial step leads from the current point to the trial point, and the model
that judges it is the model of this very step (`Assessment.IsExact`).

That an iteration stays among real numbers is an invariant of its own (`Setting.IsExactAt`): the point is
in the box, the length of the Cauchy step and the radius are positive real numbers, and a secant memory was
only offered real pairs. It takes real options (`Options.ExactFor`) and real answers
(`Query.ExactAnswers`). What every iteration then adds to a description of the episodes so far holds
throughout a minimization (`SolverState.throughout_exact`), and so does what holds of each episode by itself
(`SolverState.throughout_each`).
-/

set_option autoImplicit false

namespace BoxNewton

open Dialogue (Contract)

/-! ## Dialogues with fixed answers, on every path -/

/-- **Questions that are handed on, on every path.** If what finds an answer only ever finds the fixed one,
the whole comes to what the dialogue comes to with the fixed answers. -/
theorem Dialogue.through_keeps_eval {Note Question Question' β ρ σ : Type} {Answer : Question → Type}
    {Answer' : Question' → Type} {c : Contract Question' Answer' σ} {s : σ}
    {answer : (q : Question) → Answer q}
    {find : (q : Question) → ρ → Dialogue Note Question' Answer' (Answer q × ρ)}
    (found : ∀ q r, (find q r).Keeps c (fun out s' => s' = s ∧ out.1 = answer q) s)
    (d : Dialogue Note Question Answer β) (r : ρ) :
    (d.through find r).Keeps c (fun out s' => s' = s ∧ d.eval answer = some out.1) s := by
  induction d generalizing r with
  | done b => exact ⟨rfl, rfl⟩
  | note _ _ ih => exact ih r
  | ask q next ih =>
      refine (found q r).bind ?_
      rintro ⟨a, r'⟩ s' ⟨rfl, rfl⟩
      exact ih (answer q) r'
  | exhausted => trivial

section Operators

variable {α : Type} [Scalar α] {S : Subsolver α} {n : Nat} {σ : Type}

/-- The operator that a source of second-order information applies at a point, if the objective has the
Hessian `H`. -/
def HessianModel.operator (model : HessianModel α n) (H : Vec α n → Vec α n → Vec α n)
    (x : Vec α n) : Vec α n → Vec α n :=
  match model with
  | exact => H x
  | secant memory => memory.apply

/-- Holds when a trial step was found with an operator: first a Cauchy step, and from there the end of a
refinement. -/
def Assessment.ComesFrom (a : Assessment α S n) (st : Setting α n) (p : Progress α S n)
    (A : Vec α n → Vec α n) : Prop :=
  ∃ cauchy image status,
    ((st.cauchySearch p).find st.fuel p.state.cauchyLength p.state.buffers.image).eval (answeredBy A) =
        some (.found a.state.state.cauchyLength cauchy image) ∧
      ((st.refinement p).run S st.fuel
        { x := st.box.project (p.x + cauchy), s := cauchy, hs := image, iterations := 0
          subsolver := p.state.subsolver }).eval (answeredBy A) = some (status, a.refined)

namespace Setting

variable {st : Setting α n} {p : Progress α S n}

theorem evaluate_length (y : Vec α n) :
    (st.evaluate p y).Keeps .free
      (fun out _ => out.2.state.cauchyLength = p.state.cauchyLength) () := by
  unfold evaluate
  cases st.options.combinedEvaluation with
  | true => exact ⟨trivial, fun _ _ => rfl⟩
  | false => exact ⟨trivial, fun _ _ => rfl⟩

/-- What is judged is the end of the refinement. -/
theorem assess_refined (out : (RefinementStatus × Refinement.State α n S.State) × Nat) :
    (st.assess p out).Keeps .free (fun a _ => a.refined = out.1.2 ∧
      a.state.state.cauchyLength = p.state.cauchyLength) () := by
  unfold assess
  simp only [Dialogue.keeps_bind]
  refine Dialogue.keeps_addCount _ _ ?_
  simp only [Dialogue.keeps_remark, Dialogue.keeps_pure]
  exact (evaluate_length out.1.2.x).mono fun _ _ length => ⟨trivial, length⟩

variable {c : Contract (Query α n) Query.Reply σ} {s : σ} {A : Vec α n → Vec α n}

/-- **An attempt with an operator.** Whatever else is known of an attempt, its trial step was found with the
operator that answers for the Hessian. -/
theorem attempt_comesFrom {post : Attempt α S n → σ → Prop}
    (applies : ∀ q k, (p.state.model.answer p.x q k).Keeps c
      (fun out s' => s' = s ∧ out.1 = A q.direction) s) (kept : (st.attempt p).Keeps c post s) :
    (st.attempt p).Keeps c
      (fun tried s' => post tried s' ∧ ∀ a ∈ tried.assessment, a.ComesFrom st p A) s := by
  unfold attempt at kept ⊢
  rw [Dialogue.keeps_bind] at kept ⊢
  refine (kept.and (Dialogue.through_keeps_eval applies _ 0)).mono ?_
  rintro ⟨found, products⟩ _ ⟨goes, rfl, searched⟩
  cases found with
  | underflow length image => exact ⟨goes, nofun⟩
  | found length cauchy image =>
      simp only [refineFrom, Dialogue.keeps_bind] at goes ⊢
      refine (goes.and (Dialogue.through_keeps_eval applies _ products)).mono ?_
      rintro ⟨⟨status, refined⟩, products'⟩ _ ⟨assesses, rfl, went⟩
      refine (assesses.and_free (assess_refined _)).mono ?_
      rintro a s' ⟨here, ended, held⟩
      refine ⟨here, ?_⟩
      intro a' tried
      cases tried
      refine ⟨cauchy, image, status, ?_, ?_⟩
      · rw [held]
        exact searched
      · rw [ended]
        exact went

/-- **An iteration with an operator.** -/
theorem iterateRecorded_comesFrom {post : Episode α S n → σ → Prop}
    (applies : ∀ q k, (p.state.model.answer p.x q k).Keeps c
      (fun out s' => s' = s ∧ out.1 = A q.direction) s)
    (kept : (st.iterateRecorded p).Keeps c post s) :
    (st.iterateRecorded p).Keeps c
      (fun e s' => post e s' ∧ ∀ a ∈ e.assessment, a.ComesFrom st p A) s := by
  unfold iterateRecorded at kept ⊢
  rw [Dialogue.keeps_bind] at kept ⊢
  refine (attempt_comesFrom applies kept).mono ?_
  rintro tried s' ⟨settles, comes⟩
  rw [Dialogue.keeps_bind] at settles ⊢
  exact settles.mono fun turn s'' here => ⟨here, comes⟩

end Setting

end Operators

/-! ## Real data -/

variable {S : Subsolver EReal} {n : Nat}

/-- Holds of the vectors of real numbers. -/
def Vec.IsReal (v : Vec EReal n) : Prop := ∃ x, v = ofReal x

/-- From a box with a real point, a real point is projected to a real point of the box. -/
theorem Box.exists_project {box : Box EReal n} {x : Fin n → ℝ} (inside : box.Contains (Vec.ofReal x))
    (y : Fin n → ℝ) :
    ∃ z : Fin n → ℝ, box.project (Vec.ofReal y) = Vec.ofReal z ∧ box.Contains (Vec.ofReal z) := by
  have between : ∀ i, ∃ z : ℝ, min (max (y i : EReal) (box.lower i)) (box.upper i) = z ∧
      box.lower i ≤ z ∧ z ≤ box.upper i := by
    intro i
    have here := inside i
    rw [Vec.get_ofReal] at here
    exact exists_real_between here.1 here.2 (y i)
  choose z hz using between
  refine ⟨z, Vec.ext_get ?_, ?_⟩
  · intro i
    rw [get_project, Vec.get_ofReal, clamp_eq_min_max (box.ordered i), (hz i).1, Vec.get_ofReal]
  · intro i
    rw [Vec.get_ofReal]
    exact (hz i).2

/-- Holds of the models of the Hessian that were only offered real pairs. -/
def HessianModel.IsReal : HessianModel EReal n → Prop
  | exact => True
  | secant memory => ∃ pairs, memory.Represents pairs

theorem HessianModel.IsReal.learnt {model : HessianModel EReal n} (real : model.IsReal)
    (s y : Fin n → ℝ) : (model.learnt ⟨Vec.ofReal s, Vec.ofReal y⟩).IsReal := by
  cases model with
  | exact => trivial
  | secant memory =>
      obtain ⟨pairs, held⟩ := real
      have call : (SecantMemory.Call.push (SecantPair.ofReal s y)).IsReal := ⟨s, y, rfl⟩
      exact held.change call

/-- A model that was only offered real pairs acts on real vectors, if the Hessian does. -/
theorem HessianModel.IsReal.acts {model : HessianModel EReal n} (real : model.IsReal)
    {H : Vec EReal n → Vec EReal n → Vec EReal n} {x : Vec EReal n}
    (acts : ∃ h, Vec.ActsBy (H x) h) : ∃ B, Vec.ActsBy (model.operator H x) B := by
  cases model with
  | exact => exact acts
  | secant memory =>
      obtain ⟨pairs, held⟩ := real
      exact ⟨Curvature.learnt pairs, held.apply_ofReal⟩

/-- In another dimension nothing has been offered yet. -/
theorem SolverState.resize_isReal {state : SolverState EReal S n} (real : state.model.IsReal) (m : Nat) :
    (state.resize m).model.IsReal := by
  unfold resize
  split
  · rename_i same
    subst same
    exact real
  · cases model : state.model with
    | exact => trivial
    | secant memory => exact ⟨[], SecantMemory.Represents.empty memory.capacity_pos⟩

/-- Options whose factors are real numbers, and a subsolver that returns real vectors under them. A largest
radius that is infinite limits nothing. -/
structure Options.ExactFor (o : Options EReal) (S : Subsolver EReal) : Prop where
  usable : o.fault? = none
  sigma : o.sigma < ⊤
  growth : o.region.growth < ⊤
  returns : ∀ radius : ℝ, 0 < radius → S.ReturnsReal radius o.innerTolerance o.maxInnerIterations

/-- The factor between two lengths of the Cauchy step is a real number above one. -/
theorem Options.ExactFor.exists_sigma {o : Options EReal} (exact : o.ExactFor S) :
    ∃ sigma : ℝ, o.sigma = sigma ∧ 1 < sigma := by
  have above := (Options.fault?_eq_none.1 exact.usable).one_lt_sigma
  obtain ⟨sigma, same⟩ := Scalar.exists_coe_of_isFinite ⟨(EReal.bot_lt_coe 1).trans above, exact.sigma⟩
  rw [same, ← EReal.coe_one, EReal.coe_lt_coe_iff] at above
  exact ⟨sigma, same, above⟩

/-! ## The radius stays finite -/

namespace TrustRegion

variable {o : RegionOptions EReal} {region : TrustRegion EReal}

/-- The radius that is wanted is at most a factor times the old one, or the old one. -/
theorem wantedRadius_lt_top (usable : o.Usable) (growth : o.growth < ⊤) (positive : 0 < region.radius)
    (bounded : region.radius < ⊤) (norm : EReal) : region.wantedRadius o norm < ⊤ := by
  have one : (1 : EReal) < ⊤ := EReal.coe_lt_top 1
  have strong := Scalar.mul_lt_top usable.strong_pos (usable.strong_lt_one.trans one) positive bounded
  have mild := Scalar.mul_lt_top usable.mild_pos (usable.mild_lt.trans one) positive bounded
  have grown := Scalar.mul_lt_top (one_pos.trans usable.growth_gt) growth positive bounded
  unfold wantedRadius
  simp only [Scalar.smaller_eq_min, Scalar.larger_eq_max]
  split_ifs
  · exact min_lt_of_right_lt mild
  · exact max_lt strong (min_lt_of_right_lt mild)
  · exact max_lt strong (min_lt_of_right_lt grown)
  · exact max_lt bounded (min_lt_of_right_lt grown)

/-- Holds when the radii are in their range and the current one is a real number. -/
structure InRealRange (o : RegionOptions EReal) (region : TrustRegion EReal) : Prop where
  range : region.InRange o
  bounded : region.radius < ⊤

theorem InRealRange.exists_radius (real : region.InRealRange o) :
    ∃ radius : ℝ, 0 < radius ∧ region.radius = radius := by
  have positive := real.range.radius_pos
  obtain ⟨radius, same⟩ := Scalar.exists_coe_of_isFinite ⟨EReal.bot_lt_zero.trans positive, real.bounded⟩
  rw [same, EReal.coe_pos] at positive
  exact ⟨radius, positive, same⟩

/-- The radius to start from is at most a hundred. -/
theorem inRealRange_start (usable : o.Usable) (region : TrustRegion EReal) (stationarity : EReal) :
    (region.start o (BoxNewton.startRadius stationarity)).InRealRange o := by
  refine ⟨inRange_start usable region (startRadius_pos stationarity), ?_⟩
  change Scalar.smaller (BoxNewton.startRadius stationarity) o.largestRadius < ⊤
  rw [Scalar.smaller_eq_min, BoxNewton.startRadius, Scalar.smaller_eq_min]
  exact min_lt_of_left_lt (min_lt_of_right_lt (EReal.coe_lt_top _))

theorem InRealRange.revised (usable : o.Usable) (growth : o.growth < ⊤) (real : region.InRealRange o)
    (first : Bool) (norm : EReal) : (region.revised o first norm).InRealRange o := by
  refine ⟨real.range.revised usable first norm, ?_⟩
  have limited := real.range.limited first norm
  have below := (limited_le (Scalar.isNumber _) first norm).trans_lt real.bounded
  rcases update_cases o (region.limited first norm) norm with ⟨-, same⟩ | ⟨-, same⟩
  · rw [TrustRegion.revised, same, Scalar.smaller_eq_min]
    exact min_lt_of_left_lt (wantedRadius_lt_top usable growth limited.radius_pos below norm)
  · rw [TrustRegion.revised, same]
    exact Scalar.mul_lt_top usable.strong_pos (usable.strong_lt_one.trans (EReal.coe_lt_top 1))
      limited.radius_pos below

end TrustRegion

/-! ## One iteration -/

/-- A trial step in exact arithmetic. It leads from the point that the iteration started from to a trial
point in the box, and it is judged by the model of this very step with the operator `B`. -/
structure Assessment.IsExact (a : Assessment EReal S n) (box : Box EReal n) (p : Progress EReal S n)
    (B : (Fin n → ℝ) → Fin n → ℝ) (x g s : Fin n → ℝ) : Prop where
  current : p.x = Vec.ofReal x
  gradient : p.g = Vec.ofReal g
  step : a.step.step = Vec.ofReal s
  point : a.step.point = Vec.ofReal (x + s)
  inside : box.Contains (Vec.ofReal (x + s))
  model : a.step.model.value = ((1 / 2 * (s ⬝ᵥ B s) + s ⬝ᵥ g : ℝ) : EReal)
  slope : a.step.model.slope = ((s ⬝ᵥ g : ℝ) : EReal)

/-- Where an iteration in exact arithmetic can start from. -/
structure Setting.IsExactAt (st : Setting EReal n) (p : Progress EReal S n) : Prop where
  point : ∃ x, p.x = Vec.ofReal x ∧ st.box.Contains (Vec.ofReal x)
  gradient : p.g.IsReal
  length : ∃ a : ℝ, 0 < a ∧ p.state.cauchyLength = a
  region : p.state.region.InRealRange st.options.region

namespace Setting

variable {st : Setting EReal n} {p : Progress EReal S n} {A : Vec EReal n → Vec EReal n}
  {B : (Fin n → ℝ) → Fin n → ℝ}

/-- **The Cauchy step.** What is found from a real point is a real step into the box, with its product, which
fits in a multiple of the radius. Its length is real again. -/
theorem IsExactAt.begins (here : st.IsExactAt p) (options : st.options.ExactFor S)
    (acts : Vec.ActsBy A B) {length : EReal} {cauchy image : Vec EReal n}
    (searched : ((st.cauchySearch p).find st.fuel p.state.cauchyLength p.state.buffers.image).eval
      (answeredBy A) = some (.found length cauchy image)) :
    (∃ a : ℝ, 0 < a ∧ length = a) ∧ cauchy.norm ≤ st.options.mu1 * p.state.region.radius ∧
      ∃ x s, p.x = Vec.ofReal x ∧
        ({ x := st.box.project (p.x + cauchy), s := cauchy, hs := image, iterations := 0
           subsolver := p.state.subsolver } : Refinement.State EReal n S.State).At st.box B (x + s) s := by
  obtain ⟨x, current, inside⟩ := here.point
  obtain ⟨g, gradient⟩ := here.gradient
  obtain ⟨start, positive, held⟩ := here.length
  obtain ⟨sigma, factor, scaled⟩ := options.exists_sigma
  rw [held] at searched
  obtain ⟨b, lengthPos, reached, rfl, rfl, fits, -⟩ :=
    CauchySearch.find_found A factor (one_pos.trans scaled) positive searched
  refine ⟨⟨b, lengthPos, reached⟩, fits, ?_⟩
  obtain ⟨s, path, lands⟩ := Box.exists_projectedStep inside (-g) b
  have real : (st.cauchySearch p).step b = Vec.ofReal s := by
    rw [← path, ← Vec.ofReal_neg, ← gradient, ← current]
    rfl
  refine ⟨x, s, current, ?_, real, ?_, lands⟩
  · change st.box.project (p.x + (st.cauchySearch p).step b) = _
    rw [real, current, Vec.ofReal_add, Box.project_ofReal lands]
  · change A ((st.cauchySearch p).step b) = _
    rw [real, acts]

/-- A real radius is handed to the subsolver. -/
theorem IsExactAt.returns (here : st.IsExactAt p) (options : st.options.ExactFor S) :
    S.ReturnsReal p.state.region.radius st.options.innerTolerance st.options.maxInnerIterations := by
  obtain ⟨radius, positive, same⟩ := here.region.exists_radius
  rw [same]
  exact options.returns radius positive

/-- **The trial step.** What was found from a real point with an operator on real vectors is a real step
with its product, at the point that it leads to. The length of the Cauchy step is real again. -/
theorem IsExactAt.refined (here : st.IsExactAt p) (options : st.options.ExactFor S)
    (acts : Vec.ActsBy A B) {a : Assessment EReal S n} (found : a.ComesFrom st p A) :
    (∃ length : ℝ, 0 < length ∧ a.state.state.cauchyLength = length) ∧
      ∃ x s, p.x = Vec.ofReal x ∧ a.refined.At st.box B (x + s) s := by
  obtain ⟨cauchy, image, status, searched, went⟩ := found
  obtain ⟨length, -, x, s, current, start⟩ := here.begins options acts searched
  obtain ⟨g, gradient⟩ := here.gradient
  refine ⟨length, ?_⟩
  obtain ⟨x', s', ends, alike⟩ :=
    Refinement.run_moves acts (r := st.refinement p) gradient (here.returns options) start went
  have moved : x' = x + s' := by
    rw [sub_eq_iff_eq_add.1 alike]
    abel
  exact ⟨x, s', current, moved ▸ ends⟩

/-- What an episode has judged is a trial step in exact arithmetic. -/
theorem Records.isExact {e : Episode EReal S n} (records : st.Records p e) {g x s : Fin n → ℝ}
    (current : p.x = Vec.ofReal x) (gradient : p.g = Vec.ofReal g) {a : Assessment EReal S n}
    (judged : a ∈ e.assessment) (ends : a.refined.At st.box B (x + s) s) :
    a.IsExact st.box p B x g s := by
  cases records with
  | underflow p' inner stands => cases judged
  | assessed a' turn stands inner point step model carries =>
      cases judged
      rw [gradient, ends.step, ends.image, ModelValue.ofImage_ofReal] at model
      refine ⟨current, gradient, step.trans ends.step, point.trans ends.point, ends.inside, ?_, ?_⟩
      · rw [model]
      · rw [model]

theorem Iterates.inRealRange {σ : Type} {c : Contract (Query EReal n) Query.Reply σ} {s : σ}
    {trial : Vec EReal n → Prop} {turn : Turn EReal S n} (iterates : st.Iterates c s trial p turn)
    (usable : st.options.region.Usable) (growth : st.options.region.growth < ⊤)
    (real : p.state.region.InRealRange st.options.region) :
    turn.progress.state.region.InRealRange st.options.region := by
  refine iterates.region real ?_
  intro _ _ _ rating first norm rates
  have rated : rating.region.InRealRange st.options.region :=
    ⟨real.range.rated rates, rates.radius.symm ▸ real.bounded⟩
  exact rated.revised usable growth first norm

end Setting

/-- What is relied on in the answers for a minimization to stay among real numbers. -/
structure Query.ExactAnswers (known : (q : Query EReal n) → q.Reply → Prop) : Prop where
  gradient : ∀ x out g, known (.gradient (Vec.ofReal x) out) g → Vec.IsReal g
  valueGradient : ∀ x out both, known (.valueGradient (Vec.ofReal x) out) both → Vec.IsReal both.2
  observe : ∀ x g report seen, known (.observe (Vec.ofReal x) (Vec.ofReal g) report) seen →
    Vec.IsReal seen.x ∧ Vec.IsReal seen.g

section Answers

variable {known : (q : Query EReal n) → q.Reply → Prop}

theorem Query.ExactAnswers.at (answers : Query.ExactAnswers known) {x : Fin n → ℝ} {g : Vec EReal n}
    (answered : GradientAt (.relying known) () (Vec.ofReal x) g) : g.IsReal := by
  rcases answered with ⟨out, alone⟩ | ⟨out, fx, both⟩
  · exact answers.gradient x out g alone
  · exact answers.valueGradient x out (fx, g) both

/-- Holds when a source of second-order information only finds the products of its operator. -/
def HessianModel.AppliesAt (model : HessianModel EReal n)
    (known : (q : Query EReal n) → q.Reply → Prop) (H : Vec EReal n → Vec EReal n → Vec EReal n)
    (x : Vec EReal n) : Prop :=
  ∀ q asked, (model.answer x q asked).Keeps (.relying known)
    (fun out _ => out.1 = model.operator H x q.direction) ()

/-- An episode in exact arithmetic. -/
structure Setting.ExactEpisode (st : Setting EReal n) (known : (q : Query EReal n) → q.Reply → Prop)
    (H : Vec EReal n → Vec EReal n → Vec EReal n) (p : Progress EReal S n) (e : Episode EReal S n) :
    Prop where
  starts : st.IsExactAt p
  iterates : st.Iterates (.relying known) () (fun _ => True) p e.turn
  records : st.Records p e
  found : ∀ a ∈ e.assessment, a.ComesFrom st p (p.state.model.operator H p.x)
  steps : ∀ a ∈ e.assessment, ∃ B x g s, Vec.ActsBy (p.state.model.operator H p.x) B ∧
    a.IsExact st.box p B x g s

namespace Setting

variable {st : Setting EReal n} {p : Progress EReal S n} {e : Episode EReal S n}
  {H : Vec EReal n → Vec EReal n → Vec EReal n}

/-- An accepted step leads from a real point to a real point of the box, with a gradient that was answered
there. The model of the Hessian learns from this step and the difference of the gradients. -/
theorem ExactEpisode.moves (episode : st.ExactEpisode known H p e)
    (accepted : e.turn.accepts st.options.region = true) :
    ∃ x g s, p.x = Vec.ofReal x ∧ p.g = Vec.ofReal g ∧ e.turn.progress.x = Vec.ofReal (x + s) ∧
      st.box.Contains (Vec.ofReal (x + s)) ∧
      GradientAt (.relying known) () (Vec.ofReal (x + s)) e.turn.progress.g ∧
      e.turn.progress.state.model = p.state.model.learnt ⟨Vec.ofReal s, e.turn.progress.g - p.g⟩ := by
  obtain ⟨-, iterates, records, -, steps⟩ := episode
  have answered := (iterates.outcome.moves accepted).g
  cases records with
  | underflow p' inner stands => cases accepted
  | assessed a turn stands inner point step model carries =>
      obtain ⟨B, x, g, s, -, exact⟩ := steps a rfl
      have moved : turn.progress.x = Vec.ofReal (x + s) := (carries.moved accepted).trans exact.point
      have learns : turn.progress.state.model =
          a.state.state.model.learnt ⟨a.step.step, turn.progress.g - a.state.g⟩ := carries.learnt accepted
      rw [exact.step, stands.model, stands.g] at learns
      exact ⟨x, g, s, exact.current, exact.gradient, moved, exact.inside, moved ▸ answered, learns⟩

/-- A model that was only offered real pairs is offered another one, or none. -/
theorem ExactEpisode.isReal (episode : st.ExactEpisode known H p e)
    (answers : Query.ExactAnswers known) (real : p.state.model.IsReal) :
    e.turn.progress.state.model.IsReal := by
  cases taken : e.turn.accepts st.options.region with
  | false => exact (episode.records.stands taken).model.symm ▸ real
  | true =>
      obtain ⟨x, g, s, -, before, -, -, answered, learns⟩ := episode.moves taken
      obtain ⟨g', after⟩ := answers.at answered
      rw [before, after, Vec.sub_ofReal] at learns
      exact learns.symm ▸ real.learnt s (g' - g)

/-- A judged step leads to where another iteration can start from. -/
theorem ExactEpisode.isExactAt (episode : st.ExactEpisode known H p e)
    (options : st.options.ExactFor S) (answers : Query.ExactAnswers known)
    (length : ∀ a ∈ e.assessment, ∃ b : ℝ, 0 < b ∧ a.state.state.cauchyLength = b)
    {p' : Progress EReal S n} {ratio : EReal} (judged : e.turn = .judged p' ratio) :
    st.IsExactAt p' := by
  have here := episode.starts
  have region := episode.iterates.inRealRange (Options.region_usable options.usable) options.growth
    here.region
  have reached : ∃ b : ℝ, 0 < b ∧ p'.state.cauchyLength = b := by
    cases episode.records with
    | underflow p'' inner stands => cases judged
    | assessed a turn stands inner point step model carries =>
        cases judged
        obtain ⟨b, positive, reached⟩ := length a rfl
        exact ⟨b, positive, carries.length.trans reached⟩
  have ends : e.turn.progress = p' := congrArg Turn.progress judged
  cases taken : e.turn.accepts st.options.region with
  | false =>
      have stands := episode.records.stands taken
      rw [ends] at stands region
      exact ⟨stands.x.symm ▸ here.point, stands.g.symm ▸ here.gradient, reached, region⟩
  | true =>
      obtain ⟨x, g, s, -, -, moved, inside, answered, -⟩ := episode.moves taken
      rw [ends] at moved answered region
      exact ⟨⟨x + s, moved, inside⟩, answers.at answered, reached, region⟩

/-- **One iteration.** From a real point, on every path of real answers, the trial step is one of exact
arithmetic, and the iteration leads to where another one can start from. -/
theorem iterateRecorded_exact (options : st.options.ExactFor S) (answers : Query.ExactAnswers known)
    (here : st.IsExactAt p) (applies : p.state.model.AppliesAt known H p.x)
    (acts : ∃ B, Vec.ActsBy (p.state.model.operator H p.x) B) :
    (st.iterateRecorded p).Keeps (.relying known) (fun e _ => st.ExactEpisode known H p e ∧
      ∀ p' ratio, e.turn = .judged p' ratio → st.IsExactAt p') () := by
  have keeps := iterateRecorded_keeps (c := .relying known) (permits_relying known p.x _)
    (st.lands_anywhere S)
  have finds : ∀ q asked, (p.state.model.answer p.x q asked).Keeps (.relying known)
      (fun out s' => s' = () ∧ out.1 = p.state.model.operator H p.x q.direction) () := by
    intro q asked
    exact (applies q asked).mono fun _ _ product => ⟨rfl, product⟩
  refine (iterateRecorded_comesFrom finds keeps).mono ?_
  rintro e _ ⟨⟨⟨-, iterates⟩, records⟩, found⟩
  obtain ⟨B, acts⟩ := acts
  have episode : st.ExactEpisode known H p e := by
    refine ⟨here, iterates, records, found, ?_⟩
    intro a judged
    obtain ⟨-, x, s, current, ends⟩ := here.refined options acts (found a judged)
    obtain ⟨g, gradient⟩ := here.gradient
    exact ⟨B, x, g, s, acts, records.isExact current gradient judged ends⟩
  refine ⟨episode, ?_⟩
  intro p' ratio judged
  exact episode.isExactAt options answers
    (fun a member => (here.refined options acts (found a member)).1) judged

/-! ## From one iteration to a minimization -/

/-- What the observer hands back is projected to a real point of the box. -/
theorem IsExactAt.observed (answers : Query.ExactAnswers known) (here : st.IsExactAt p)
    {report : Report EReal} {seen : Observation EReal n}
    (answered : known (.observe p.x p.g report) seen) :
    st.IsExactAt { p with x := st.box.project seen.x, g := seen.g, status := seen.status } := by
  obtain ⟨x, current, inside⟩ := here.point
  obtain ⟨g, gradient⟩ := here.gradient
  rw [current, gradient] at answered
  obtain ⟨⟨y, back⟩, real⟩ := answers.observe x g report seen answered
  obtain ⟨z, projected, lands⟩ := Box.exists_project inside y
  exact ⟨⟨z, back.symm ▸ projected, lands⟩, real, here.length, here.region⟩

/-- What every iteration adds to a description, and every call of the observer leaves of it, holds after
any number of iterations. -/
theorem opening_exact {describes : List (Episode EReal S n) → Progress EReal S n → Prop}
    (options : st.options.ExactFor S) (answers : Query.ExactAnswers known)
    (acts : ∀ x, ∃ h, Vec.ActsBy (H (Vec.ofReal x)) h)
    (applies : ∀ before p, describes before p → p.state.model.AppliesAt known H p.x)
    (grows : ∀ before p e, describes before p → st.ExactEpisode known H p e →
      describes (before ++ [e]) e.turn.progress)
    (shown : ∀ before p iteration report seen, describes before p →
      known (.observe p.x p.g report) seen → st.IsExactAt p → describes before
        { p with iteration, x := st.box.project seen.x, g := seen.g, status := seen.status })
    (k : Nat) (p : Progress EReal S n) (start : describes [] p) (here : st.IsExactAt p)
    (real : p.state.model.IsReal) :
    (st.opening k p).Keeps (.relying known) (fun out _ => describes out.1 out.2) () := by
  refine (opening_rule (c := .relying known) (fun before p _ => describes before p ∧
    p.state.model.IsReal ∧ (p.status = .unknown → st.IsExactAt p)) ?_ k [] p ()
      ⟨start, real, fun _ => here⟩).mono fun out _ ends => ends.1
  rintro before p _ ⟨described, real, goes⟩ going
  have here := goes going
  obtain ⟨x, current, -⟩ := here.point
  have operates := real.acts (current ▸ acts x)
  refine (iterateRecorded_exact options answers here (applies before p described) operates).mono ?_
  rintro ⟨start, assessment, turn⟩ _ ⟨episode, exact⟩
  have described := grows before p _ described episode
  have real := episode.isReal answers real
  constructor
  · rintro p' rfl
    refine ⟨described, real, fun going => ?_⟩
    cases episode.iterates.outcome with
    | halted _ stands status =>
        rcases status with small | flat
        · rw [small] at going
          cases going
        · rw [flat] at going
          cases going
  · rintro p' ratio rfl
    have here := exact p' ratio rfl
    refine conclude_keeps (clock_relying known) ratio ?_
    intro status _
    have counted : st.IsExactAt { p' with iteration := p'.iteration + 1, status } :=
      ⟨here.point, here.gradient, here.length, here.region⟩
    refine ⟨trivial, ?_⟩
    intro seen answered
    exact ⟨shown _ p' _ _ seen described answered here, real, fun _ => counted.observed answers answered⟩

end Setting

/-! ## Whole minimizations -/

/-- A minimization starts with the length one and with what was learnt before. -/
theorem SolverState.begin_fresh {α : Type} [Scalar α] {S : Subsolver α} (state : SolverState α S n)
    (options : Options α) (box : Box α n) (start : Vec α n) (fuel : Nat) :
    (state.begin options box start fuel).Keeps .free
      (fun out _ => out.2.state.cauchyLength = 1 ∧ out.2.state.model = state.model) () := by
  unfold begin
  simp only [Dialogue.keeps_bind, Dialogue.keeps_remarkWhen, Dialogue.keeps_remark]
  refine (Dialogue.keeps_free _).mono ?_
  rintro ⟨fx, g⟩ _ _
  refine (Dialogue.keeps_free _).mono ?_
  intro status _ _
  exact ⟨trivial, fun seen _ => ⟨rfl, rfl⟩⟩

/-- **Throughout a minimization in exact arithmetic.** From a real point, with real options and real
answers, what holds at the start, what every iteration adds and what every call of the observer leaves
holds after any number of iterations. -/
theorem SolverState.throughout_exact {describes : List (Episode EReal S n) → Progress EReal S n → Prop}
    {H : Vec EReal n → Vec EReal n → Vec EReal n} (state : SolverState EReal S n)
    {options : Options EReal} {box : Box EReal n} (exact : options.ExactFor S)
    (answers : Query.ExactAnswers known) (acts : ∀ x, ∃ h, Vec.ActsBy (H (Vec.ofReal x)) h)
    (real : state.model.IsReal) (inside : ∃ y, box.Contains (Vec.ofReal y)) (start : Fin n → ℝ)
    (fuel : Nat) (applies : ∀ before p, describes before p → p.state.model.AppliesAt known H p.x)
    (opens : ∀ p, p.state.model = state.model → (∃ x, p.x = Vec.ofReal x) →
      GradientAt (.relying known) () p.x p.g → describes [] p)
    (grows : ∀ (st : Setting EReal n) before p e, st.options = options → st.box = box →
      describes before p → st.ExactEpisode known H p e → describes (before ++ [e]) e.turn.progress)
    (shown : ∀ (st : Setting EReal n) before p iteration report seen, st.box = box →
      describes before p → known (.observe p.x p.g report) seen → st.IsExactAt p → describes before
        { p with iteration, x := st.box.project seen.x, g := seen.g, status := seen.status }) :
    state.Throughout options box (Vec.ofReal start) fuel (.relying known) describes () := by
  obtain ⟨y, inside⟩ := inside
  obtain ⟨z, projected, lands⟩ := Box.exists_project inside start
  have begun : (state.begin options box (Vec.ofReal start) fuel).Keeps (.relying known)
      (fun out _ => out.1.options = options ∧ out.1.box = box ∧
        (out.2.state.cauchyLength = 1 → out.2.state.model = state.model →
          out.1.IsExactAt out.2 ∧ describes [] out.2)) () := by
    refine begin_keeps state fuel (permits_relying known _ fun _ => True) trivial
      (clock_relying known) ?_
    intro st p opened
    obtain ⟨rfl, rfl, point, value, gradient, stationarity, tolerance, reached, idle, region⟩ := opened
    have point : p.x = Vec.ofReal z := point.trans projected
    refine ⟨trivial, fun seen answered => ⟨rfl, rfl, fun length model => ?_⟩⟩
    have here : st.IsExactAt p := by
      refine ⟨⟨z, point, lands⟩, answers.at (point ▸ gradient), ⟨1, one_pos, length⟩, ?_⟩
      exact region ▸ TrustRegion.inRealRange_start (Options.region_usable exact.usable) idle p.stationarity
    exact ⟨here.observed answers answered, shown st [] p p.iteration p.report seen rfl
      (opens p model ⟨z, point⟩ gradient) answered here⟩
  refine (begun.and_free (state.begin_fresh options box (Vec.ofReal start) fuel)).mono ?_
  rintro ⟨st, p⟩ _ ⟨⟨rfl, rfl, exactly⟩, length, model⟩ k
  obtain ⟨here, described⟩ := exactly length model
  exact Setting.opening_exact exact answers acts applies
    (fun before p e => grows st before p e rfl rfl)
    (fun before p iteration report seen => shown st before p iteration report seen rfl) k p
    described here (model ▸ real)

/-- What holds of every episode by itself holds of all of them. -/
theorem SolverState.throughout_each {each : Episode EReal S n → Prop}
    {H : Vec EReal n → Vec EReal n → Vec EReal n} (state : SolverState EReal S n)
    {options : Options EReal} {box : Box EReal n} (exact : options.ExactFor S)
    (answers : Query.ExactAnswers known) (acts : ∀ x, ∃ h, Vec.ActsBy (H (Vec.ofReal x)) h)
    (real : state.model.IsReal) (inside : ∃ y, box.Contains (Vec.ofReal y)) (start : Fin n → ℝ)
    (fuel : Nat) (applies : ∀ (model : HessianModel EReal n) x, model.AppliesAt known H x)
    (holds : ∀ (st : Setting EReal n) p e, st.options = options → st.box = box →
      st.ExactEpisode known H p e → each e) :
    state.Throughout options box (Vec.ofReal start) fuel (.relying known)
      (fun episodes _ => ∀ e ∈ episodes, each e) () := by
  refine state.throughout_exact exact answers acts real inside start fuel ?_ ?_ ?_ ?_
  · exact fun _ p _ => applies p.state.model p.x
  · intro p _ _ _ e none
    simp at none
  · intro st before p e options box kept episode e' member
    rcases List.mem_append.1 member with earlier | last
    · exact kept e' earlier
    · rw [List.mem_singleton.1 last]
      exact holds st p e options box episode
  · exact fun _ _ _ _ _ _ _ kept _ _ => kept

end Answers

end BoxNewton
