import Mathlib
import BoxNewton.Proofs.PathBreakpoints
import BoxNewton.Proofs.TrialSteps

/-!
# How long a step can get

Along a projected path no variable turns back, none goes further than the direction would take it, and the
steps grow at most in proportion to their lengths (`Box.growingSteps`).

The ball in which a subproblem is solved lies around the current point of each pass of a refinement, not
around the point that the whole step started from. A pass moves the free variables along a solution in this
ball, and not beyond the solution, since a search does not go beyond the full step (`Refinement.Pass.dist_le`).
So `p` passes move the step by at most `p` radii (`Refinement.Ends.dist_le`), and the step that is judged is
no longer than the Cauchy step, which fits in `mu1` radii, and these together
(`ConjugateGradient.steps_bounded`).
-/

set_option autoImplicit false

namespace BoxNewton

open Dialogue (Contract)

variable {n : Nat}

/-! ## Euclidean norms -/

theorem sqrt_dot_self_eq_norm (v : Fin n → ℝ) : √(v ⬝ᵥ v) = ‖WithLp.toLp 2 v‖ := by
  rw [EuclideanSpace.norm_eq]
  exact congrArg _ (Finset.sum_congr rfl fun i _ => by simp [sq])

theorem sqrt_dot_self_add_le (u v : Fin n → ℝ) :
    √((u + v) ⬝ᵥ (u + v)) ≤ √(u ⬝ᵥ u) + √(v ⬝ᵥ v) := by
  rw [sqrt_dot_self_eq_norm, sqrt_dot_self_eq_norm, sqrt_dot_self_eq_norm, WithLp.toLp_add]
  exact norm_add_le _ _

/-- Spread over the selected variables, a vector is as long as before. -/
theorem IndexSet.spread_dot_self {set : IndexSet (Fin n)} (distinct : set.Distinct)
    (p : Fin set.size → ℝ) : set.spread p ⬝ᵥ set.spread p = p ⬝ᵥ p := by
  rw [dotProduct_spread]
  exact congrArg (· ⬝ᵥ p) (funext fun k => spread_index distinct p k)

/-! ## Along a path -/

/-- How the steps along a direction grow with their lengths, from a shorter to a longer one. -/
structure Box.GrowingSteps (box : Box EReal n) (x d : Fin n → ℝ) (t u : ℝ) (s s' : Fin n → ℝ) : Prop where
  shorter : box.projectedStep (Vec.ofReal x) (Vec.ofReal d) t = Vec.ofReal s
  longer : box.projectedStep (Vec.ofReal x) (Vec.ofReal d) u = Vec.ofReal s'
  /-- A variable that has moved has moved along the direction. -/
  sign : ∀ i, s i = 0 ∨ SignType.sign (s i) = SignType.sign (d i)
  grows : ∀ i, |s i| ≤ |s' i|
  bounded : ∀ i, |s i| ≤ t * |d i|
  /-- The steps grow at most in proportion to their lengths. -/
  ratio : 0 < t → √(s' ⬝ᵥ s') / u ≤ √(s ⬝ᵥ s) / t

theorem Box.growingSteps {box : Box EReal n} {x : Fin n → ℝ} (inside : box.Contains (Vec.ofReal x))
    (d : Fin n → ℝ) {t u : ℝ} (nonneg : 0 ≤ t) (longer : t ≤ u) :
    box.GrowingSteps x d t u (box.path x d t) (box.path x d u) where
  shorter := projectedStep_eq_path inside t
  longer := projectedStep_eq_path inside u
  sign := sign_path inside nonneg
  grows := abs_path_le inside nonneg longer
  bounded := abs_path_le_mul inside nonneg
  ratio positive := by
    have scaled {a : ℝ} (nonneg : 0 ≤ a) (v : Fin n → ℝ) :
        a * √(v ⬝ᵥ v) = √((a • v) ⬝ᵥ (a • v)) := by
      rw [smul_dotProduct, dotProduct_smul, smul_eq_mul, smul_eq_mul, ← mul_assoc,
        Real.sqrt_mul (mul_nonneg nonneg nonneg), Real.sqrt_mul_self nonneg]
    have product : t * √(box.path x d u ⬝ᵥ box.path x d u) ≤ u * √(box.path x d t ⬝ᵥ box.path x d t) := by
      rw [scaled nonneg, scaled (nonneg.trans longer)]
      refine Real.sqrt_le_sqrt (dot_self_le_of_abs_le fun i => ?_)
      rw [Pi.smul_apply, Pi.smul_apply, smul_eq_mul, smul_eq_mul, abs_mul, abs_mul, abs_of_nonneg nonneg,
        abs_of_nonneg (nonneg.trans longer)]
      exact mul_abs_path_le inside nonneg longer i
    rw [div_le_div_iff₀ (positive.trans_le longer) positive]
    linarith

/-! ## Refinements -/

/-- The subsolver answers real data with a vector in the ball. -/
def Subsolver.StaysWithin (S : Subsolver EReal) (radius : ℝ) (tolerance : EReal) (limit : Nat) : Prop :=
  ∀ {m : Nat} (kept : S.State) (b : Fin m → ℝ) (A : Vec EReal m → Vec EReal m)
    (H : (Fin m → ℝ) → Fin m → ℝ) {result : SubproblemResult} {e : Fin m → ℝ} {later : S.State},
    Vec.ActsBy A H →
    (S.solve kept (Vec.ofReal b) radius tolerance limit (Vec.zeros m)).eval (answeredBy A) =
      some ((result, Vec.ofReal e), later) → √(e ⬝ᵥ e) ≤ radius

/-- Truncated conjugate gradients stay in the ball. -/
theorem ConjugateGradient.subsolver_staysWithin {radius tolerance : ℝ} (positive : 0 < radius)
    (tight : 0 ≤ tolerance) (limit : Nat) :
    (subsolver : Subsolver EReal).StaysWithin radius tolerance limit := by
  intro m kept b A H result e later acts solved
  obtain ⟨e', products, same, returned⟩ := exists_returns_of_eval acts radius tolerance limit solved
  rw [Vec.ofReal_injective same]
  exact returned.inside positive tight

namespace Refinement

variable {S : Subsolver EReal} {r : Refinement EReal n} {A : Vec EReal n → Vec EReal n}
  {H : (Fin n → ℝ) → Fin n → ℝ} {g x s : Fin n → ℝ} {radius : ℝ} {st st' out : State EReal n S.State}
  (acts : Vec.ActsBy A H) (gradient : r.g = Vec.ofReal g) (ball : r.radius = radius)
  (returns : S.ReturnsReal r.radius r.tolerance r.limit) (within : S.StaysWithin radius r.tolerance r.limit)

include acts gradient ball returns within

/-- **One pass** moves the step by at most the radius. -/
theorem Pass.dist_le (here : st.At r.box H x s) {d : Vec EReal (r.freeVariables st).size}
    {found : SearchResult EReal (r.freeVariables st).size} (pass : r.Pass S A st d found st') :
    ∃ x' s', st'.At r.box H x' s' ∧ √((s' - s) ⬝ᵥ (s' - s)) ≤ radius := by
  obtain ⟨e, p, rfl, short, moved⟩ := Pass.moves acts gradient returns here pass
  obtain ⟨result, later, solved⟩ := pass.solved
  have distinct := r.freeVariables_distinct st
  rw [here.freeGradient gradient, Vec.ofReal_neg, ball] at solved
  refine ⟨_, _, moved, ?_⟩
  rw [add_sub_cancel_left, IndexSet.spread_dot_self distinct]
  exact (Real.sqrt_le_sqrt short).trans
    (within _ _ _ _ (IndexSet.compress_actsBy distinct acts) solved)

/-- **Passes** move the step by at most one radius each. -/
theorem Ends.dist_le {passes : Nat} {status : RefinementStatus}
    (ends : r.Ends S A passes st status out) (here : st.At r.box H x s) :
    ∃ x' s', out.At r.box H x' s' ∧ √((s' - s) ⬝ᵥ (s' - s)) ≤ passes * radius := by
  induction ends generalizing x s with
  | nothingFree => exact ⟨x, s, here, by simp⟩
  | stops _ pass =>
      rw [Nat.cast_one, one_mul]
      exact Pass.dist_le acts gradient ball returns within here pass.toPass
  | @further passes st st' out _ _ _ _ _ pass _ _ ih =>
      obtain ⟨x₁, s₁, there, first⟩ := Pass.dist_le acts gradient ball returns within here pass.toPass
      obtain ⟨x₂, s₂, last, rest⟩ := ih there
      refine ⟨x₂, s₂, last, ?_⟩
      have split : s₂ - s = s₂ - s₁ + (s₁ - s) := by rw [sub_add_sub_cancel]
      rw [split, Nat.cast_succ, add_one_mul]
      exact (sqrt_dot_self_add_le _ _).trans (add_le_add rest first)

end Refinement

/-! ## Minimizations -/

section Minimizations

variable {S : Subsolver EReal}

/-- Holds when a trial step was found with an operator and its refinement took so many passes. -/
def Assessment.FoundIn (a : Assessment EReal S n) (st : Setting EReal n) (p : Progress EReal S n)
    (A : Vec EReal n → Vec EReal n) (passes : Nat) : Prop :=
  ∃ cauchy image status,
    ((st.cauchySearch p).find st.fuel p.state.cauchyLength p.state.buffers.image).eval (answeredBy A) =
        some (.found a.state.state.cauchyLength cauchy image) ∧
      (st.refinement p).Ends S A passes
        { x := st.box.project (p.x + cauchy), s := cauchy, hs := image, iterations := 0
          subsolver := p.state.subsolver } status a.refined

theorem Assessment.ComesFrom.exists_passes {a : Assessment EReal S n} {st : Setting EReal n}
    {p : Progress EReal S n} {A : Vec EReal n → Vec EReal n} (found : a.ComesFrom st p A) :
    ∃ passes, a.FoundIn st p A passes := by
  obtain ⟨cauchy, image, status, searched, went⟩ := found
  obtain ⟨passes, ends⟩ := Refinement.ends_of_run st.fuel _ went
  exact ⟨passes, cauchy, image, status, searched, ends⟩

/-- Under options that truncated conjugate gradients are exact for, they stay in every ball. -/
theorem Options.ExactFor.staysWithin {o : Options EReal} (exact : o.ExactFor ConjugateGradient.subsolver)
    {radius : ℝ} (positive : 0 < radius) :
    ConjugateGradient.subsolver.StaysWithin radius o.innerTolerance o.maxInnerIterations := by
  obtain ⟨above, below⟩ := (fault?_eq_none.1 exact.usable).inner
  obtain ⟨tolerance, same⟩ := Scalar.exists_coe_of_isFinite
    ⟨EReal.bot_lt_zero.trans above, below.trans (EReal.coe_lt_top 1)⟩
  rw [same, EReal.coe_pos] at above
  rw [same]
  exact ConjugateGradient.subsolver_staysWithin positive above.le _

/-- **The whole step.** The Cauchy step fits in `mu1` radii, and each pass adds at most one. -/
theorem Setting.IsExactAt.norm_le {st : Setting EReal n} {p : Progress EReal ConjugateGradient.subsolver n}
    (here : st.IsExactAt p) (options : st.options.ExactFor ConjugateGradient.subsolver)
    {A : Vec EReal n → Vec EReal n} {B : (Fin n → ℝ) → Fin n → ℝ} (acts : Vec.ActsBy A B)
    {a : Assessment EReal ConjugateGradient.subsolver n} {passes : Nat} (found : a.FoundIn st p A passes) :
    a.refined.s.norm ≤ (st.options.mu1 + ((passes : ℝ) : EReal)) * p.state.region.radius := by
  obtain ⟨cauchy, image, status, searched, ends⟩ := found
  obtain ⟨-, fits, x, s, -, start⟩ := here.begins options acts searched
  obtain ⟨g, gradient⟩ := here.gradient
  obtain ⟨radius, positive, ball⟩ := here.region.exists_radius
  obtain ⟨x', s', last, far⟩ := ends.dist_le acts gradient ball (here.returns options)
    (options.staysWithin positive) start
  have cauchyReal : cauchy = Vec.ofReal s := start.step
  rw [cauchyReal, Vec.norm_ofReal, ball] at fits
  have mu1 := (Options.fault?_eq_none.1 options.usable).mu1_pos.le
  have added : √(s' ⬝ᵥ s') ≤ √(s ⬝ᵥ s) + passes * radius := by
    have split : s' = s + (s' - s) := (add_sub_cancel s s').symm
    rw [split]
    exact (sqrt_dot_self_add_le _ _).trans (add_le_add le_rfl far)
  calc a.refined.s.norm = ((√(s' ⬝ᵥ s') : ℝ) : EReal) := by rw [last.step, Vec.norm_ofReal]
    _ ≤ ((√(s ⬝ᵥ s) : ℝ) : EReal) + ((passes : ℝ) : EReal) * radius := by
      rw [← EReal.coe_mul, ← EReal.coe_add, EReal.coe_le_coe_iff]
      exact added
    _ ≤ st.options.mu1 * radius + ((passes : ℝ) : EReal) * radius := add_le_add fits le_rfl
    _ = (st.options.mu1 + ((passes : ℝ) : EReal)) * p.state.region.radius := by
      rw [ball, EReal.right_distrib_of_nonneg mu1 (EReal.coe_nonneg.2 passes.cast_nonneg)]

/-- The trial step of an episode, if there is one, was found by some number of passes, and is no longer than
`mu1` and this number together, times the radius that the iteration started with. -/
def Episode.StepWithin (e : Episode EReal S n) (options : Options EReal) (box : Box EReal n)
    (H : Vec EReal n → Vec EReal n → Vec EReal n) : Prop :=
  ∀ a ∈ e.assessment, ∃ st : Setting EReal n, st.options = options ∧ st.box = box ∧
    (∃ passes, a.FoundIn st e.start (e.start.state.model.operator H e.start.x) passes) ∧
    ∀ passes, a.FoundIn st e.start (e.start.state.model.operator H e.start.x) passes →
      a.step.step.norm ≤ (options.mu1 + ((passes : ℝ) : EReal)) * e.start.state.region.radius

theorem Setting.ExactEpisode.stepWithin {known : (q : Query EReal n) → q.Reply → Prop}
    {H : Vec EReal n → Vec EReal n → Vec EReal n} {st : Setting EReal n}
    {p : Progress EReal ConjugateGradient.subsolver n} {e : Episode EReal ConjugateGradient.subsolver n}
    (episode : st.ExactEpisode known H p e) (options : st.options.ExactFor ConjugateGradient.subsolver) :
    e.StepWithin st.options st.box H := by
  intro a judged
  rw [episode.records.start]
  obtain ⟨B, -, -, -, acts, -⟩ := episode.steps a judged
  refine ⟨st, rfl, rfl, (episode.found a judged).exists_passes, fun passes found => ?_⟩
  rw [episode.records.step judged]
  exact episode.starts.norm_le options acts found

theorem SolverState.throughout_stepWithin (state : SolverState EReal ConjugateGradient.subsolver n)
    {options : Options EReal} {box : Box EReal n} {H : Vec EReal n → Vec EReal n → Vec EReal n}
    (exact : options.ExactFor ConjugateGradient.subsolver)
    (acts : ∀ x, ∃ h, Vec.ActsBy (H (Vec.ofReal x)) h) (real : state.model.IsReal)
    (inside : ∃ y, box.Contains (Vec.ofReal y)) (start : Fin n → ℝ) (fuel : Nat) :
    state.Throughout options box (Vec.ofReal start) fuel (.relying (Query.exactly H))
      (fun episodes _ => ∀ e ∈ episodes, e.StepWithin options box H) () := by
  refine state.throughout_each exact Query.exactAnswers_exactly acts real inside start fuel
    HessianModel.appliesAt_exactly ?_
  rintro st p e rfl rfl episode
  exact episode.stepWithin exact

/-- **How long steps get, in exact arithmetic.** Along a projected path the steps grow with their lengths, at
most in proportion. A refinement by truncated conjugate gradients that ends after some number of passes has
moved the step by at most this number of radii. In a minimization with real options and real answers, every
trial step, of a run to the end or of the first iterations of one that need not end, is no longer than `mu1`
and the number of passes together, times the radius. -/
theorem ConjugateGradient.steps_bounded :
    (∀ {n : Nat} (box : Box EReal n) (x d : Fin n → ℝ) (t u : ℝ), box.Contains (Vec.ofReal x) → 0 ≤ t →
      t ≤ u → ∃ s s', box.GrowingSteps x d t u s s') ∧
    (∀ {n : Nat} (r : Refinement EReal n) (A : Vec EReal n → Vec EReal n)
        (H : (Fin n → ℝ) → Fin n → ℝ) (g x s : Fin n → ℝ) (radius tolerance : ℝ)
        (st : Refinement.State EReal n (subsolver (α := EReal)).State),
      Vec.ActsBy A H → r.g = Vec.ofReal g → r.radius = radius → 0 < radius → r.tolerance = tolerance →
        0 ≤ tolerance → st.At r.box H x s →
      (∀ (fuel : Nat) status out, (r.run subsolver fuel st).eval (answeredBy A) = some (status, out) →
        ∃ passes, r.Ends subsolver A passes st status out) ∧
      ∀ passes status out, r.Ends subsolver A passes st status out →
        (out.s - st.s).norm ≤ ((passes * radius : ℝ) : EReal)) ∧
    ∀ (solver : Solver EReal subsolver) (dom : Domain EReal) (start : Fin dom.dim → ℝ) (fuel : Nat)
        (H : Vec EReal dom.dim → Vec EReal dom.dim → Vec EReal dom.dim),
      solver.options.ExactFor subsolver → (∀ x, ∃ h, Vec.ActsBy (H (Vec.ofReal x)) h) →
        solver.state.model.IsReal → (∃ y, dom.box.Contains (Vec.ofReal y)) →
      (solver.state.resize dom.dim).Throughout solver.options dom.box (Vec.ofReal start) fuel
        (.relying (Query.exactly H))
        (fun episodes _ => ∀ e ∈ episodes, e.StepWithin solver.options dom.box H) () ∧
      ∀ {ω : Type} (p : Problem EReal) (observer : Observer EReal ω) (clock : Clock ω) (w : ω)
          (solution : Solution EReal subsolver ω dom.dim),
        (∀ q w a w', p.objective.answer observer clock q w = .ok (a, w') → Query.exactly H q a) →
        solver.run p dom (Vec.ofReal start).toArray observer clock fuel w = .ok (.ok solution) →
          ∃ episodes, solver.HasChronicle p dom (Vec.ofReal start).toArray observer clock fuel w
            solution episodes ∧ ∀ e ∈ episodes, e.StepWithin solver.options dom.box H := by
  refine ⟨?_, ?_, ?_⟩
  · exact fun box x d t u inside nonneg longer => ⟨_, _, Box.growingSteps inside d nonneg longer⟩
  · intro n r A H g x s radius tolerance st acts gradient ball positive rel tight here
    refine ⟨fun fuel status out went => Refinement.ends_of_run fuel st went, ?_⟩
    intro passes status out ends
    have returns : (subsolver : Subsolver EReal).ReturnsReal r.radius r.tolerance r.limit := by
      rw [ball, rel]
      exact subsolver_returnsReal radius tolerance r.limit
    have within : (subsolver : Subsolver EReal).StaysWithin radius r.tolerance r.limit := by
      rw [rel]
      exact subsolver_staysWithin positive tight r.limit
    obtain ⟨x', s', there, moved⟩ := ends.dist_le acts gradient ball returns within here
    rw [there.step, here.step, Vec.sub_ofReal, Vec.norm_ofReal, EReal.coe_le_coe_iff]
    exact moved
  · intro solver dom start fuel H exact acts real inside
    have throughout := (solver.state.resize dom.dim).throughout_stepWithin exact acts
      (SolverState.resize_isReal real dom.dim) inside start fuel
    refine ⟨throughout, ?_⟩
    intro ω p observer clock w solution relied ran
    obtain ⟨episodes, chronicle⟩ := Solver.exists_chronicle ran
    obtain ⟨last, kept, -⟩ := chronicle.described relied throughout
    exact ⟨episodes, chronicle, kept⟩

/-- Steps in the corridor grow, the refinement that overshoots has moved by at most its radius for each pass,
and the step to the lower bound is not too long. -/
theorem ConjugateGradient.steps_bounded_halving :
    (∃ s s', Box.corridor.GrowingSteps 0 ![2, 3, -1] (1 / 2) 1 s s') ∧
    (∃ status out passes, (overshoot.refinement.run subsolver 2 overshootStart).eval
        (answeredBy overshoot.hessian.answer) = some (status, out) ∧
      overshoot.refinement.Ends subsolver overshoot.hessian.answer passes overshootStart status out ∧
      (out.s - overshootStart.s).norm ≤ ((passes * 1 : ℝ) : EReal)) ∧
    ∃ solution e, (halfSolver .exact).run halfProblem halfDomain (entry 1).toArray .silent
        .stopped 9 () = .ok (.ok solution) ∧
      (halfSolver .exact).HasChronicle halfProblem halfDomain (entry 1).toArray .silent .stopped 9 ()
        solution [e] ∧
      e.assessment.isSome = true ∧ e.StepWithin (halfSolver .exact).options halfBox sphereHessian := by
  obtain ⟨paths, refinements, minimizations⟩ := steps_bounded
  refine ⟨?_, ?_, ?_⟩
  · exact paths Box.corridor 0 ![2, 3, -1] (1 / 2) 1 Box.corridor_inside (by norm_num) (by norm_num)
  · obtain ⟨status, out, went, -⟩ := overshoot_run
    obtain ⟨counted, bounded⟩ := refinements overshoot.refinement overshoot.hessian.answer coupled
      ![3 / 8, 1] ![-(5 / 8), 0] ![-(5 / 8), 0] 1 (1 / 10) overshootStart (Curvature.answer_ofReal _) rfl
      rfl one_pos rfl (by norm_num) overshootStart_at
    obtain ⟨passes, ends⟩ := counted 2 status out went
    exact ⟨status, out, passes, went, ends, bounded passes status out ends⟩
  · have unit : Vec.ActsBy (HessianModel.exact.operator sphereHessian (entry 1)) id := fun _ => rfl
    obtain ⟨solution, e, ran, chronicle, judged, -⟩ := half_runs unit
    obtain ⟨-, runs⟩ := minimizations (halfSolver .exact) halfDomain (fun _ => 1) 9 sphereHessian
      options_exactFor (fun x => ⟨id, sphereHessian_actsBy x⟩) trivial ⟨_, half_inside⟩
    obtain ⟨episodes, chronicle', kept⟩ := runs halfProblem .silent .stopped () solution
      (halfProblem_relied half_exactly) ran
    obtain rfl := chronicle.unique chronicle'
    exact ⟨solution, e, ran, chronicle, judged, kept e (List.mem_singleton_self e)⟩

end Minimizations

end BoxNewton
