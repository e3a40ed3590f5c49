import Mathlib
import BoxNewton.Proofs.CauchyStep
import BoxNewton.Proofs.StepBookkeeping
import BoxNewton.Proofs.TruncatedDescent

/-!
# The model along a refinement

A refinement starts from the Cauchy step and is to lower the quadratic model further. In exact
arithmetic every pass does so or leaves the model as it is, with one exception: its search may take a
step untested while a variable is pressed outward, and then the model may rise
(`ExactModel.pass_decreases`). A refinement without such a pass ends with a model value that is at most
the one of the Cauchy step (`ExactModel.refinement_decreases`).

The exception is real. The free variables of a pass include those on a bound that the steepest descent
leads away from it, and a direction that couples the variables can press one of these against its
bound. The projected path is then not the ray that the direction was found for, and below the first
breakpoint nothing tests it (`overshoot_increases`).
-/

set_option autoImplicit false

namespace BoxNewton

/-! ## Compressed operators -/

namespace Curvature

variable {n : Nat} (H : Curvature n) {set : IndexSet (Fin n)} (distinct : set.Distinct)

theorem compress_apply (u : Fin set.size → ℝ) :
    H.compress distinct u = H (set.spread u) ∘ set.index := rfl

/-- Answering on the selected variables is answering with the compressed operator. -/
theorem compress_answer : set.compress H.answer = (H.compress distinct).answer :=
  IndexSet.compress_realMap distinct H

end Curvature

/-! ## The refinement in exact arithmetic -/

/-- The data of a refinement with a positive definite Hessian, and what the search for the Cauchy point before
it starts from. -/
structure ExactModel (n : Nat) extends RefinementData n where
  hessian : Curvature n
  mu1 : ℝ
  mu1_pos : 0 < mu1
  sigma : ℝ
  one_lt_sigma : 1 < sigma
  /-- The step length that the search for the Cauchy point starts from. -/
  length : ℝ
  length_pos : 0 < length

namespace ExactModel

open RefinementData (State)

variable {n : Nat} (m : ExactModel n)

/-- The model at a step. -/
noncomputable def value (s : Vec EReal n) : EReal :=
  (ModelValue.ofImage (Vec.ofReal m.g) s (m.hessian.answer s)).value

/-- The search for the Cauchy point. -/
noncomputable def cauchySearch : CauchySearch EReal n where
  box := m.box
  x := Vec.ofReal m.x
  g := Vec.ofReal m.g
  d := -Vec.ofReal m.g
  mu0 := m.mu0
  maxNorm := m.mu1 * m.radius
  sigma := m.sigma

/-- The state that a refinement starts from, with what the subsolver has kept. -/
noncomputable def start (cauchy image : Vec EReal n)
    (kept : (ConjugateGradient.subsolver (α := EReal)).State) : State n where
  x := m.box.project (Vec.ofReal m.x + cauchy)
  s := cauchy
  hs := image
  iterations := 0
  subsolver := kept

theorem value_ofReal (s : Fin n → ℝ) :
    m.value (Vec.ofReal s) = ((1 / 2 * (s ⬝ᵥ m.hessian s) + s ⬝ᵥ m.g : ℝ) : EReal) := by
  rw [value, Curvature.answer_ofReal, ModelValue.ofImage_ofReal]

/-- The Cauchy step leads to a state of exact arithmetic. -/
theorem exists_start_at {fuel : Nat} {hs : Vec EReal n} {length : EReal} {cauchy image : Vec EReal n}
    (found : (m.cauchySearch.find fuel m.length hs).eval (answeredBy m.hessian.answer) =
      some (.found length cauchy image))
    (kept : (ConjugateGradient.subsolver (α := EReal)).State) :
    ∃ s, (m.start cauchy image kept).At m.box m.hessian (m.x + s) s := by
  have factor : m.cauchySearch.sigma = (m.sigma : EReal) := rfl
  have scaled : 0 < m.sigma := one_pos.trans m.one_lt_sigma
  obtain ⟨a, -, -, rfl, rfl, -⟩ :=
    CauchySearch.find_found m.hessian.answer factor scaled m.length_pos found
  have path : m.cauchySearch.step a =
      m.box.projectedStep (Vec.ofReal m.x) (Vec.ofReal (-m.g)) a := by
    rw [← Vec.ofReal_neg]
    rfl
  obtain ⟨s, stepped, lands⟩ := Box.exists_projectedStep m.inside (-m.g) a
  refine ⟨s, ?_, path.trans stepped, ?_, lands⟩
  · change m.box.project (Vec.ofReal m.x + m.cauchySearch.step a) = _
    rw [path, stepped, Vec.ofReal_add]
    exact Box.project_ofReal lands
  · change m.hessian.answer (m.cauchySearch.step a) = _
    rw [path, stepped, Curvature.answer_ofReal]

/-- A step in the selected variables changes the model by the model of these variables. -/
theorem value_add_spread {set : IndexSet (Fin n)} (distinct : set.Distinct) (s : Fin n → ℝ)
    (p : Fin set.size → ℝ)
    (down : 1 / 2 * (p ⬝ᵥ m.hessian.compress distinct p) +
      p ⬝ᵥ ((m.g + m.hessian s) ∘ set.index) ≤ 0) :
    m.value (Vec.ofReal (s + set.spread p)) ≤ m.value (Vec.ofReal s) := by
  rw [value_ofReal, value_ofReal, EReal.coe_le_coe_iff]
  rw [Curvature.compress_apply, dotProduct_comm p, dotProduct_comm p,
    ← IndexSet.dotProduct_spread, ← IndexSet.dotProduct_spread] at down
  have cross : s ⬝ᵥ m.hessian (set.spread p) = m.hessian s ⬝ᵥ set.spread p := m.hessian.symmetric _ _
  simp only [map_add, add_dotProduct, dotProduct_add, dotProduct_comm (set.spread p), cross]
    at down ⊢
  linarith

/-- A pass along which the model may increase: its search takes a step untested while a variable is
pressed outward. -/
def Risks (st : State n) (d : Vec EReal (m.refinement.freeVariables st).size)
    (found : SearchResult EReal (m.refinement.freeVariables st).size) : Prop :=
  (m.refinement.search ConjugateGradient.subsolver st d).EndsUntested found ∧
    (m.refinement.search ConjugateGradient.subsolver st d).PressesOutward

section Pass

variable {m} {st : State n} {x s : Fin n → ℝ}

/-- The subproblem of a pass has a real solution, along which the curvature does not exceed the
slope. -/
theorem exists_solution (here : st.At m.box m.hessian x s)
    (distinct : (m.refinement.freeVariables st).Distinct)
    {d : Vec EReal (m.refinement.freeVariables st).size} {result : SubproblemResult}
    {state : (ConjugateGradient.subsolver (α := EReal)).State}
    (solved : (ConjugateGradient.subsolver.solve st.subsolver
      (-(m.refinement.freeVariables st).gather (m.refinement.modelGradient st)) m.refinement.radius
      m.refinement.tolerance m.refinement.limit (Vec.zeros _)).eval
        (answeredBy (m.hessian.compress distinct).answer) = some ((result, d), state)) :
    ∃ e, d = Vec.ofReal e ∧
      e ⬝ᵥ m.hessian.compress distinct e ≤ (-m.slope m.hessian st s) ⬝ᵥ e := by
  rw [RefinementData.gather_gradient here, Vec.ofReal_neg] at solved
  obtain ⟨e, products, real, returned⟩ := ConjugateGradient.exists_returns_of_eval
    (m.hessian.compress distinct).answer_ofReal m.radius m.tolerance m.limit solved
  exact ⟨e, real, returned.curved_le (A := (m.hessian.compress distinct).toSymmetricOperator)
    m.radius_pos m.tolerance_pos.le⟩

/-- **One pass.** From a state of exact arithmetic the model does not increase, unless the step is untested
and a variable is pressed outward. -/
theorem pass_decreases {st' : State n} {d : Vec EReal (m.refinement.freeVariables st).size}
    {found : SearchResult EReal (m.refinement.freeVariables st).size}
    (here : st.At m.box m.hessian x s)
    (pass : m.refinement.Pass ConjugateGradient.subsolver m.hessian.answer st d found st') :
    m.value st'.s ≤ m.value st.s ∨ m.Risks st d found := by
  obtain ⟨⟨result, state, solved⟩, ⟨fuel, searched⟩, -, moved, -⟩ := pass
  have distinct := m.refinement.freeVariables_distinct st
  rw [Curvature.compress_answer m.hessian distinct] at solved searched
  obtain ⟨e, rfl, descends⟩ := exists_solution here distinct solved
  have inside := Box.contains_restrict here.inside (m.refinement.freeVariables st)
  have search := RefinementData.search_ofReal here e
  rw [search] at searched
  obtain ⟨p, step, -, -, outcome⟩ := ProjectedSearch.find_decreases _ descends inside
    m.mu0_pos (m.mu0_lt.trans (by norm_num)) searched
  rw [step, here.step, IndexSet.accumulate_ofReal distinct] at moved
  rw [Risks, search, moved, here.step]
  exact outcome.imp_left (m.value_add_spread distinct s p)

end Pass

/-- **The model along a refinement.** Let the search for the Cauchy point succeed. Then no pass of the
refinement increases the model unless it takes its step untested while a variable is pressed outward,
and if there is no pass that does so and increases the model on the way to the end, then the model at
the end is at most the model at the Cauchy step. -/
theorem refinement_decreases {fuel : Nat} {hs : Vec EReal n} {length : EReal}
    {cauchy image : Vec EReal n}
    (found : (m.cauchySearch.find fuel m.length hs).eval (answeredBy m.hessian.answer) =
      some (.found length cauchy image))
    (kept : (ConjugateGradient.subsolver (α := EReal)).State) :
    (∀ st d found st',
      m.refinement.Reaches ConjugateGradient.subsolver m.hessian.answer
        (m.start cauchy image kept) st →
      m.refinement.Pass ConjugateGradient.subsolver m.hessian.answer st d found st' →
        m.value st'.s ≤ m.value st.s ∨ m.Risks st d found) ∧
    ∀ fuel status out,
      (m.refinement.run ConjugateGradient.subsolver fuel (m.start cauchy image kept)).eval
        (answeredBy m.hessian.answer) = some (status, out) →
      m.value out.s ≤ m.value cauchy ∨
        ∃ st d found st',
          m.refinement.Reaches ConjugateGradient.subsolver m.hessian.answer
            (m.start cauchy image kept) st ∧
          m.refinement.Pass ConjugateGradient.subsolver m.hessian.answer st d found st' ∧
          m.refinement.Reaches ConjugateGradient.subsolver m.hessian.answer st' out ∧
          m.value st.s < m.value st'.s ∧ m.Risks st d found := by
  obtain ⟨s, here⟩ := m.exists_start_at found kept
  have each : ∀ st d found st',
      m.refinement.Reaches ConjugateGradient.subsolver m.hessian.answer
        (m.start cauchy image kept) st →
      m.refinement.Pass ConjugateGradient.subsolver m.hessian.answer st d found st' →
        m.value st'.s ≤ m.value st.s ∨ m.Risks st d found := by
    intro st d found st' reaches pass
    obtain ⟨x', s', there⟩ :=
      RefinementData.exists_at_of_reaches m.hessian.answer_ofReal here reaches
    exact pass_decreases there pass
  refine ⟨each, ?_⟩
  intro fuel status out went
  have reaches := Refinement.reaches_of_run fuel _ went
  rcases reaches.value_le_or_rises fun st => m.value st.s with
    low | ⟨st, d, found, st', before, pass, after, rises⟩
  · exact .inl low
  · have risks := (each st d found st' before pass).resolve_left (not_le.2 rises)
    exact .inr ⟨st, d, found, st', before, pass, after, rises, risks⟩

end ExactModel

/-! ## A pass that increases the model -/

section Overshoot

/-- The operator with the rows `(1, 2)` and `(2, 5)`. -/
noncomputable def coupled : Curvature 2 where
  map := Matrix.mulVecLin !![1, 2; 2, 5]
  symmetric u v := by
    simp [dotProduct, Fin.sum_univ_two, Matrix.mulVec]
    ring
  positive u moves := by
    have squares : u ⬝ᵥ Matrix.mulVecLin !![1, 2; 2, 5] u = (u 0 + 2 * u 1) ^ 2 + u 1 ^ 2 := by
      simp [dotProduct, Fin.sum_univ_two, Matrix.mulVec]
      ring
    rw [squares]
    refine lt_of_le_of_ne (by positivity) fun zero => moves ?_
    have second : u 1 = 0 := by nlinarith [sq_nonneg (u 0 + 2 * u 1), sq_nonneg (u 1)]
    have first : u 0 = 0 := by nlinarith [sq_nonneg (u 0 + 2 * u 1), sq_nonneg (u 1)]
    funext i
    fin_cases i
    · exact first
    · exact second

theorem overshoot_ordered : ∀ i, (![-(5 / 8), 0] : Fin 2 → ℝ) i ≤ ![1, 1] i := by
  intro i
  fin_cases i <;> norm_num

/-- A refinement that overshoots. The second variable starts on its lower bound and stays there. The
first one follows the steepest descent down to its lower bound, and moving it has turned the slope of
the second: both are free now. The solution leads the first variable back up by `3 / 4`, and relies on
the second one to go down by `1 / 4`, which it cannot. -/
noncomputable def overshoot : ExactModel 2 where
  box := .ofReal ![-(5 / 8), 0] ![1, 1] overshoot_ordered
  x := ![0, 0]
  inside := (Box.contains_ofReal overshoot_ordered).2 fun i => by fin_cases i <;> norm_num
  g := ![3 / 8, 1]
  hessian := coupled
  radius := 1
  radius_pos := one_pos
  mu0 := 1 / 100
  mu0_pos := by norm_num
  mu0_lt := by norm_num
  mu1 := 1
  mu1_pos := one_pos
  sigma := 10
  one_lt_sigma := by norm_num
  tolerance := 1 / 10
  tolerance_pos := by norm_num
  tolerance_lt := by norm_num
  limit := 2
  limit_pos := two_pos
  length := 10
  length_pos := by norm_num

@[simp] theorem coupled_apply (a b : ℝ) : coupled ![a, b] = ![a + 2 * b, 2 * a + 5 * b] := by
  funext i
  fin_cases i <;> simp [coupled, Matrix.mulVec, dotProduct, Fin.sum_univ_two]

theorem coupled_answer (a b : ℝ) : coupled.answer (Vec.ofReal ![a, b]) =
    Vec.ofReal ![a + 2 * b, 2 * a + 5 * b] := by
  rw [Curvature.answer_ofReal, coupled_apply]

/-- The breakpoints of two variables of which only the first can move. -/
theorem Box.breakpoints_first (box : Box EReal 2) (x d : Vec EReal 2) {t : ℝ} (nonneg : 0 ≤ t)
    (first : box.breakpoint? x d 0 = some (t : EReal)) (second : box.breakpoint? x d 1 = none) :
    box.breakpoints x d = ⟨1, t, t⟩ := by
  have two : List.finRange 2 = [0, 1] := rfl
  simp [breakpoints, two, first, second, max_eq_right (EReal.coe_nonneg.2 nonneg)]

theorem overshoot_project {a b : ℝ} (first : -(5 / 8) ≤ a ∧ a ≤ 1) (second : 0 ≤ b ∧ b ≤ 1) :
    overshoot.box.project (Vec.ofReal ![a, b]) = Vec.ofReal ![a, b] := by
  apply Box.project_ofReal
  apply (Box.contains_ofReal overshoot_ordered).2
  intro i
  fin_cases i
  · exact first
  · exact second

/-! ### The Cauchy step -/

theorem overshoot_path :
    overshoot.cauchySearch.step ((10 : ℝ) : EReal) = Vec.ofReal ![-(5 / 8), 0] := by
  have path : overshoot.cauchySearch.step ((10 : ℝ) : EReal) =
      overshoot.box.projectedStep (Vec.ofReal ![0, 0]) (-Vec.ofReal ![3 / 8, 1])
        ((10 : ℝ) : EReal) := rfl
  rw [path, Vec.ofReal_neg]
  refine (Box.projectedStep_ofReal overshoot_ordered _ _ _).trans (congrArg _ (funext fun i => ?_))
  fin_cases i <;> norm_num [max_def, min_def]

theorem overshoot_breakpoints :
    overshoot.cauchySearch.box.breakpoints overshoot.cauchySearch.x overshoot.cauchySearch.d =
      ⟨1, ((5 / 3 : ℝ) : EReal), ((5 / 3 : ℝ) : EReal)⟩ := by
  have direction : overshoot.cauchySearch.d = Vec.ofReal ![-(3 / 8), -1] := by
    change -Vec.ofReal ![3 / 8, 1] = _
    simp
  rw [direction]
  refine Box.breakpoints_first _ _ _ (by norm_num) ?_ ?_
  · refine (Box.breakpoint?_ofReal overshoot_ordered ![0, 0] _ _).trans ?_
    norm_num
  · refine (Box.breakpoint?_ofReal overshoot_ordered ![0, 0] _ _).trans ?_
    norm_num

/-- The step at the first length is not excessive, and beyond the last breakpoint. -/
theorem overshoot_found :
    (overshoot.cauchySearch.find 1 overshoot.length (Vec.zeros 2)).eval
        (answeredBy overshoot.hessian.answer) =
      some (.found ((10 : ℝ) : EReal) (Vec.ofReal ![-(5 / 8), 0])
        (Vec.ofReal ![-(5 / 8), -(5 / 4)])) := by
  have start : ((overshoot.length : ℝ) : EReal) = ((10 : ℝ) : EReal) := rfl
  have image : overshoot.hessian.answer (Vec.ofReal ![-(5 / 8), 0]) =
      Vec.ofReal ![-(5 / 8), -(5 / 4)] := by
    refine (coupled_answer _ _).trans ?_
    norm_num
  have short : (Vec.ofReal ![-(5 / 8), 0] : Vec EReal 2).norm ≤ overshoot.cauchySearch.maxNorm := by
    rw [Vec.norm_ofReal, dot_pair]
    change _ ≤ ((1 * 1 : ℝ) : EReal)
    rw [EReal.coe_le_coe_iff, Real.sqrt_le_iff]
    norm_num
  have low : ¬ (ModelValue.ofImage overshoot.cauchySearch.g (Vec.ofReal ![-(5 / 8), 0])
      (Vec.ofReal ![-(5 / 8), -(5 / 4)])).IsInsufficient overshoot.cauchySearch.mu0 := by
    change ¬ (ModelValue.ofImage (Vec.ofReal ![3 / 8, 1]) _ _).IsInsufficient ((1 / 100 : ℝ) : EReal)
    rw [ModelValue.ofImage_ofReal, ModelValue.IsInsufficient, ← EReal.coe_mul,
      EReal.coe_le_coe_iff, dot_pair, dot_pair]
    norm_num
  have past : ¬ ((10 : ℝ) : EReal) ≤ ((5 / 3 : ℝ) : EReal) := by
    rw [EReal.coe_le_coe_iff]
    norm_num
  simp only [start, CauchySearch.find, CauchySearch.measure, ModelValue.measure,
    Dialogue.eval_bind, eval_request, Option.bind_some, Dialogue.eval_pure, overshoot_path, image]
  rw [if_neg (not_or.2 ⟨not_lt.2 short, low⟩)]
  simp [overshoot_breakpoints, CauchySearch.extend, past, overshoot_path, image]

/-! ### The solution of the subproblem -/

theorem coupled_iterations {tolerance : ℝ} (nonneg : 0 ≤ tolerance) (small : tolerance < 1 / 10)
    (product : Vec EReal 2) :
    (ConjugateGradient.iterate ((1 : ℝ) : EReal) (tolerance : EReal) 2 2
        (ConjugateGradient.realState ![0, 0] ![1 / 4, 1 / 4] ![1 / 4, 1 / 4] (1 / 8) product)).eval
        (answeredBy coupled.answer) =
      some (ConjugateGradient.finish .converged 2 (Vec.ofReal ![3 / 4, -(1 / 4)])
        (Vec.ofReal ![1 / 50, -(1 / 50)])) := by
  have away : ¬ (√50)⁻¹ ≤ tolerance := by
    have root : √50 < 10 := by
      rw [Real.sqrt_lt' (by norm_num)]
      norm_num
    refine not_le.2 (small.trans ?_)
    rw [one_div]
    exact inv_strictAnti₀ (by positivity) root
  rw [Dialogue.eval_eq_tally _ 0, Curvature.answer, ConjugateGradient.tally_iterate_succ]
  norm_num [smul_pair, add_pair, dot_pair, -EReal.coe_one]
  rw [if_neg away, ConjugateGradient.tally_iterate_succ]
  norm_num [smul_pair, add_pair, dot_pair, nonneg]

theorem coupled_solution (w : ConjugateGradient.Workspace EReal) :
    (ConjugateGradient.solve w (Vec.ofReal ![1 / 4, 1 / 4]) ((1 : ℝ) : EReal)
        ((1 / 10 : ℝ) : EReal) 2).eval (answeredBy coupled.answer) =
      some (ConjugateGradient.finish .converged 2 (Vec.ofReal ![3 / 4, -(1 / 4)])
        (Vec.ofReal ![1 / 50, -(1 / 50)])) := by
  have square : (![1 / 4, 1 / 4] : Fin 2 → ℝ) ⬝ᵥ ![1 / 4, 1 / 4] = 1 / 8 := by
    rw [dot_pair]
    norm_num
  have moves : ¬ Scalar.Agree ((√(1 / 8) : ℝ) : EReal) 0 := by
    rw [Scalar.agree_iff, EReal.coe_eq_zero]
    positivity
  have small : 1 / 10 * √(1 / 8) < 1 / 10 := by
    have root : √(1 / 8) < 1 := by
      rw [Real.sqrt_lt' one_pos]
      norm_num
    linarith
  have zeros : (Vec.zeros 2 : Vec EReal 2) = Vec.ofReal ![0, 0] := by
    refine Vec.zeros_eq_ofReal.trans (congrArg _ (funext fun i => ?_))
    fin_cases i <;> rfl
  unfold ConjugateGradient.solve
  dsimp only
  rw [Vec.norm_ofReal, Vec.normSq_ofReal, square, if_neg moves, zeros]
  exact coupled_iterations (by positivity) small (w.buffer 2)

/-! ### The search along the solution -/

/-- The search of the pass. -/
noncomputable def overshootSearch : ProjectedSearch EReal 2 :=
  .ofReal overshoot.box ![-(5 / 8), 0] ![3 / 4, -(1 / 4)] ![-(1 / 4), -(1 / 4)] (1 / 100)

/-- The full step is below the first breakpoint, so nothing tests it. -/
theorem overshoot_searched :
    (overshootSearch.find 1 (Vec.zeros 2)).eval (answeredBy coupled.answer) =
      some ⟨((1 : ℝ) : EReal), Vec.ofReal ![3 / 4, 0], Vec.ofReal ![1 / 8, 0]⟩ := by
  have breakpoints : overshootSearch.box.breakpoints overshootSearch.x overshootSearch.d =
      ⟨1, ((13 / 6 : ℝ) : EReal), ((13 / 6 : ℝ) : EReal)⟩ := by
    refine Box.breakpoints_first _ _ _ (by norm_num) ?_ ?_
    · refine (Box.breakpoint?_ofReal overshoot_ordered ![-(5 / 8), 0] ![3 / 4, -(1 / 4)] _).trans ?_
      norm_num
    · refine (Box.breakpoint?_ofReal overshoot_ordered ![-(5 / 8), 0] ![3 / 4, -(1 / 4)] _).trans ?_
      norm_num
  have shortest : overshootSearch.shortest = ((13 / 6 : ℝ) : EReal) := by
    simp only [ProjectedSearch.shortest, breakpoints, if_pos (Scalar.isFinite_coe _)]
  have step : overshootSearch.step ((1 : ℝ) : EReal) = Vec.ofReal ![3 / 4, 0] := by
    refine (Box.projectedStep_ofReal overshoot_ordered ![-(5 / 8), 0] ![3 / 4, -(1 / 4)] _).trans
      (congrArg _ (funext fun i => ?_))
    fin_cases i <;> norm_num [max_def, min_def]
  have land : overshootSearch.land (Vec.ofReal ![3 / 4, 0]) = Vec.ofReal ![1 / 8, 0] := by
    change overshoot.box.project (Vec.ofReal ![-(5 / 8), 0] + Vec.ofReal ![3 / 4, 0]) = _
    have sum : -(5 / 8) + 3 / 4 = (1 / 8 : ℝ) := by norm_num
    rw [Vec.ofReal_add, add_pair, sum, zero_add]
    exact overshoot_project (by norm_num) (by norm_num)
  have full : ¬ ((13 / 6 : ℝ) : EReal) < 1 := by
    rw [← EReal.coe_one, EReal.coe_lt_coe_iff]
    norm_num
  rw [EReal.coe_one] at step ⊢
  simp only [ProjectedSearch.find, ProjectedSearch.backtrack, shortest, if_neg full,
    Dialogue.eval_bind, Dialogue.eval_pure, Option.bind_some, lt_irrefl, false_and, decide_false,
    Bool.false_eq_true, if_false, step, land, Dialogue.eval_remark, Dialogue.eval_remarkWhen]

/-! ### The pass -/

/-- Both variables. -/
def bothVariables : IndexSet (Fin 2) := .ofList (List.finRange 2)

theorem index_both (k : Fin 2) : bothVariables.index k = k := by
  fin_cases k <;> rfl

theorem distinct_both : bothVariables.Distinct := by
  intro j k same
  exact (index_both j).symm.trans (same.trans (index_both k))

theorem gather_both (v : Vec EReal 2) : (bothVariables.gather v : Vec EReal 2) = v := by
  apply Vec.ext_get
  intro k
  exact (bothVariables.get_gather v k).trans (congrArg v.get (index_both k))

theorem scatter_both (part full : Vec EReal 2) : bothVariables.scatter part full = part := by
  apply Vec.ext_get
  intro k
  have here := IndexSet.get_scatter_index distinct_both part full k
  rw [index_both] at here
  exact here

theorem accumulate_both (part full : Vec EReal 2) :
    bothVariables.accumulate part full = full + part := by
  apply Vec.ext_get
  intro k
  have here := IndexSet.get_accumulate_index distinct_both part full k
  rw [index_both] at here
  exact here.trans (Vec.get_add _ _ _).symm

theorem restrict_both (box : Box EReal 2) : (box.restrict bothVariables : Box EReal 2) = box := by
  obtain ⟨lower, upper, ordered⟩ := box
  have same : ∀ l u : Fin 2 → EReal, l = lower → u = upper → ∀ h,
      (⟨l, u, h⟩ : Box EReal 2) = ⟨lower, upper, ordered⟩ := by
    rintro _ _ rfl rfl _
    rfl
  exact same _ _ (funext fun k => congrArg lower (index_both k))
    (funext fun k => congrArg upper (index_both k)) _

theorem compress_both (A : Vec EReal 2 → Vec EReal 2) :
    (bothVariables.compress A : Vec EReal 2 → Vec EReal 2) = A := by
  funext v
  exact (gather_both _).trans (congrArg A (scatter_both v _))

/-- A pass on both variables is one on the whole. -/
theorem eval_pass_both {r : Refinement EReal 2} {S : Subsolver EReal} {A : Vec EReal 2 → Vec EReal 2}
    {fuel : Nat} {st : Refinement.State EReal 2 S.State} {result : SubproblemResult} {d : Vec EReal 2}
    {state : S.State} {found : SearchResult EReal 2}
    (solved : (S.solve st.subsolver (-r.modelGradient st) r.radius r.tolerance r.limit
      (Vec.zeros 2)).eval (answeredBy A) = some ((result, d), state))
    (searched : (ProjectedSearch.find
      { box := r.box, x := st.x, d, g := r.modelGradient st, mu0 := r.mu0 } fuel (Vec.zeros 2)).eval
        (answeredBy A) = some found)
    (fits : Storage.FitsWord (st.iterations + result.iterations)) :
    ∃ st' norms, (r.pass S fuel st bothVariables).eval (answeredBy A) = some (st', result, norms) ∧
      st'.s = st.s + found.step ∧ st'.iterations = st.iterations + result.iterations := by
  have compress := compress_both A
  have slope := gather_both (r.modelGradient st)
  have point := gather_both st.x
  have box := restrict_both r.box
  rw [← compress, ← slope] at solved
  rw [← compress, ← slope, ← box, ← point] at searched
  exact ⟨_, _, Refinement.eval_pass solved searched fits, accumulate_both _ _, rfl⟩

/-- The state that the refinement starts from. -/
noncomputable def overshootStart : RefinementData.State 2 :=
  overshoot.start (Vec.ofReal ![-(5 / 8), 0]) (Vec.ofReal ![-(5 / 8), -(5 / 4)])
    ConjugateGradient.subsolver.initial

theorem overshootStart_x : overshootStart.x = Vec.ofReal ![-(5 / 8), 0] := by
  change overshoot.box.project (Vec.ofReal ![0, 0] + Vec.ofReal ![-(5 / 8), 0]) = _
  rw [Vec.ofReal_add, add_pair, zero_add, zero_add]
  exact overshoot_project (by norm_num) (by norm_num)

theorem overshootStart_gradient :
    overshoot.refinement.modelGradient overshootStart = Vec.ofReal ![-(1 / 4), -(1 / 4)] := by
  change Vec.ofReal ![3 / 8, 1] + Vec.ofReal ![-(5 / 8), -(5 / 4)] = _
  rw [Vec.ofReal_add, add_pair]
  norm_num

/-- Both variables are on their lower bounds, and the slopes lead away from these. -/
theorem overshootStart_free : overshoot.refinement.freeVariables overshootStart = bothVariables := by
  have every : ∀ i : Fin 2, overshoot.box.IsFree (Vec.ofReal ![-(5 / 8), 0])
      (Vec.ofReal ![-(1 / 4), -(1 / 4)]) i := by
    intro i
    rw [Box.IsFree, Box.IsBlocked, Vec.get_ofReal, Vec.get_ofReal]
    rintro (⟨-, up⟩ | ⟨on, -⟩)
    · have up := EReal.coe_nonneg.1 up
      fin_cases i <;> norm_num at up
    · have on := EReal.coe_le_coe_iff.1 on
      fin_cases i <;> norm_num at on
  have all : (List.finRange 2).filter (fun i => decide (overshoot.box.IsFree
      (Vec.ofReal ![-(5 / 8), 0]) (Vec.ofReal ![-(1 / 4), -(1 / 4)]) i)) = List.finRange 2 :=
    List.filter_eq_self.2 fun i _ => decide_eq_true (every i)
  rw [Refinement.freeVariables, overshootStart_x, overshootStart_gradient]
  exact congrArg IndexSet.ofList all

/-- The refinement ends after one pass, with the first variable at `1 / 8`. -/
theorem overshoot_run :
    ∃ status out, (overshoot.refinement.run ConjugateGradient.subsolver 2 overshootStart).eval
      (answeredBy overshoot.hessian.answer) = some (status, out) ∧ out.s = Vec.ofReal ![1 / 8, 0] := by
  have negative : -overshoot.refinement.modelGradient overshootStart =
      Vec.ofReal ![1 / 4, 1 / 4] := by
    rw [overshootStart_gradient, Vec.ofReal_neg]
    simp
  have solved : (ConjugateGradient.subsolver.solve overshootStart.subsolver
      (-overshoot.refinement.modelGradient overshootStart) overshoot.refinement.radius
      overshoot.refinement.tolerance overshoot.refinement.limit (Vec.zeros 2)).eval
        (answeredBy overshoot.hessian.answer) =
      some (ConjugateGradient.finish .converged 2 (Vec.ofReal ![3 / 4, -(1 / 4)])
        (Vec.ofReal ![1 / 50, -(1 / 50)])) := by
    rw [negative]
    exact coupled_solution ConjugateGradient.subsolver.initial
  have searched : (ProjectedSearch.find
      { box := overshoot.refinement.box, x := overshootStart.x, d := Vec.ofReal ![3 / 4, -(1 / 4)]
        g := overshoot.refinement.modelGradient overshootStart
        mu0 := overshoot.refinement.mu0 } 1 (Vec.zeros 2)).eval
        (answeredBy overshoot.hessian.answer) =
      some ⟨((1 : ℝ) : EReal), Vec.ofReal ![3 / 4, 0], Vec.ofReal ![1 / 8, 0]⟩ := by
    rw [overshootStart_x, overshootStart_gradient]
    exact overshoot_searched
  have fits : Storage.FitsWord 2 := by decide
  obtain ⟨st', norms, passed, moved, counted⟩ := eval_pass_both solved searched fits
  rw [← overshootStart_free] at passed
  have nonempty : (overshoot.refinement.freeVariables overshootStart).isEmpty = false := by
    rw [overshootStart_free]
    rfl
  obtain ⟨status, went⟩ := Refinement.eval_run_of_pass passed nonempty counted.ge
  refine ⟨status, st', went, moved.trans ?_⟩
  change Vec.ofReal ![-(5 / 8), 0] + Vec.ofReal ![3 / 4, 0] = _
  rw [Vec.ofReal_add, add_pair]
  norm_num

/-- The model is `-5 / 128` at the Cauchy step and `7 / 128` at the end. -/
theorem overshoot_value_lt :
    overshoot.value (Vec.ofReal ![-(5 / 8), 0]) < overshoot.value (Vec.ofReal ![1 / 8, 0]) := by
  rw [ExactModel.value_ofReal, ExactModel.value_ofReal, EReal.coe_lt_coe_iff]
  change 1 / 2 * (_ ⬝ᵥ coupled _) + _ ⬝ᵥ ![3 / 8, 1] < 1 / 2 * (_ ⬝ᵥ coupled _) + _ ⬝ᵥ ![3 / 8, 1]
  rw [coupled_apply, coupled_apply, dot_pair, dot_pair, dot_pair, dot_pair]
  norm_num

/-- A refinement of a Cauchy step can increase the model. -/
theorem overshoot_increases :
    ∃ length cauchy image status out,
      (overshoot.cauchySearch.find 1 overshoot.length (Vec.zeros 2)).eval
        (answeredBy overshoot.hessian.answer) = some (.found length cauchy image) ∧
      (overshoot.refinement.run ConjugateGradient.subsolver 2
        (overshoot.start cauchy image ConjugateGradient.subsolver.initial)).eval
          (answeredBy overshoot.hessian.answer) = some (status, out) ∧
      overshoot.value cauchy < overshoot.value out.s := by
  obtain ⟨status, out, went, ends⟩ := overshoot_run
  exact ⟨_, _, _, status, out, overshoot_found, went, ends ▸ overshoot_value_lt⟩

/-- The pass that increases the model takes its step untested while a variable is pressed outward. -/
theorem overshoot_risks :
    (overshoot.cauchySearch.find 1 overshoot.length (Vec.zeros 2)).eval
        (answeredBy overshoot.hessian.answer) =
      some (.found ((10 : ℝ) : EReal) (Vec.ofReal ![-(5 / 8), 0])
        (Vec.ofReal ![-(5 / 8), -(5 / 4)])) ∧
    ∃ st d found st',
      overshoot.refinement.Reaches ConjugateGradient.subsolver overshoot.hessian.answer
        overshootStart st ∧
      overshoot.refinement.Pass ConjugateGradient.subsolver overshoot.hessian.answer st d found st' ∧
      overshoot.value st.s < overshoot.value st'.s ∧ overshoot.Risks st d found := by
  obtain ⟨status, out, went, ends⟩ := overshoot_run
  have bound := (overshoot.refinement_decreases overshoot_found
    ConjugateGradient.subsolver.initial).2 2 status out went
  have raised : overshoot.value (Vec.ofReal ![-(5 / 8), 0]) < overshoot.value out.s :=
    ends ▸ overshoot_value_lt
  obtain ⟨st, d, found, st', before, pass, -, increases, risks⟩ :=
    bound.resolve_left (not_le.2 raised)
  exact ⟨overshoot_found, st, d, found, st', before, pass, increases, risks⟩

end Overshoot

end BoxNewton
