import Mathlib
import BoxNewton.Proofs.RefinementTermination

/-!
# What a refinement spends

The limit of a refinement is handed to the subsolver in every pass, and every call keeps to it
(`ConjugateGradient.solve_iterations_le`). The refinement compares its count with the limit after the pass.
So the count is below the limit at the start of every pass, and the last one can add the whole limit to it:
the total stays below twice the limit, in any arithmetic and with any operator
(`Refinement.run_iterations_lt`).

It does exceed the limit. For that the first pass has to leave iterations over without coming to an end:
its solution is found early, but a bound cuts the step along it short, and the slope there leads the
variable back into the box (`SymmetricModel.overspend`). The second pass then needs as many iterations as
there are variables.
-/

set_option autoImplicit false

namespace BoxNewton

variable {n : Nat}

/-! ## One call -/

namespace ConjugateGradient

variable {α : Type} [Scalar α] (A : Vec α n → Vec α n)

theorem iterate_iterations_le (radius tolerance : α) (limit : Nat) :
    ∀ (remaining : Nat) (s : State α n) {out : Outcome α n}, remaining ≤ limit →
      (iterate radius tolerance limit remaining s).eval (answeredBy A) = some out →
        out.1.1.iterations ≤ limit := by
  intro remaining
  induction remaining with
  | zero =>
      intro s out _ went
      cases went
      exact le_rfl
  | succ remaining ih =>
      intro s out within went
      simp only [iterate, Dialogue.eval_bind, eval_request, Option.bind_some] at went
      split at went
      · cases went
        exact Nat.sub_le _ _
      · split at went
        · cases went
          exact Nat.sub_le _ _
        · split at went
          · cases went
            exact Nat.sub_le _ _
          · exact ih _ (Nat.le_of_succ_le within) went

/-- A call keeps to its limit, in any arithmetic and with any operator. -/
theorem solve_iterations_le {w : Workspace α} {b : Vec α n} {radius tolerance : α} {limit : Nat}
    {out : Outcome α n}
    (solved : (solve w b radius tolerance limit).eval (answeredBy A) = some out) :
    out.1.1.iterations ≤ limit := by
  unfold solve at solved
  dsimp only at solved
  split at solved
  · cases solved
    exact Nat.zero_le _
  · exact iterate_iterations_le A _ _ limit limit _ le_rfl solved

end ConjugateGradient

/-! ## A whole refinement -/

namespace Refinement

variable {α : Type} [Scalar α] {r : Refinement α n} {A : Vec α n → Vec α n}
  {st out : State α n (ConjugateGradient.subsolver (α := α)).State}

theorem CountedPass.iterations_le {result : SubproblemResult}
    {d : Vec α (r.freeVariables st).size} {found : SearchResult α (r.freeVariables st).size}
    (pass : r.CountedPass ConjugateGradient.subsolver A st result d found out) :
    result.iterations ≤ r.limit :=
  ConjugateGradient.solve_iterations_le _ pass.reported

/-- Passes that go on leave the count below the limit, so only the last one can take it beyond. -/
theorem Ends.exceeds {passes : Nat} {status : RefinementStatus}
    (ends : r.Ends ConjugateGradient.subsolver A passes st status out)
    (below : st.iterations < r.limit) (exceeds : r.limit < out.iterations) :
    ∃ mid result d found, r.Reaches ConjugateGradient.subsolver A st mid ∧
      r.CountedPass ConjugateGradient.subsolver A mid result d found out ∧
      mid.iterations < r.limit := by
  induction ends with
  | nothingFree => exact absurd exceeds below.not_gt
  | @stops st st' result d found status nonempty pass reason =>
      exact ⟨st, result, d, found, .refl, pass, below⟩
  | further _ pass goes _ ih =>
      obtain ⟨mid, result, d, found, reaches, last, under⟩ :=
        ih (lt_limit_of_verdict goes) exceeds
      exact ⟨mid, result, d, found, .head ⟨_, _, pass.toPass⟩ reaches, last, under⟩

/-- **The budget of a refinement.** The limit bounds every call of the subsolver, but the refinement as a
whole only up to its last pass: its count stays below twice the limit, and if it exceeds the limit, then
because the last pass has started with some of it used up and was allowed all of it once more. -/
theorem run_iterations_lt (allowed : 0 < r.limit) (starts : st.iterations = 0) {fuel : Nat}
    {status : RefinementStatus}
    (went : (r.run ConjugateGradient.subsolver fuel st).eval (answeredBy A) = some (status, out)) :
    out.iterations < 2 * r.limit ∧
      (r.limit < out.iterations → ∃ mid result d found,
        r.Reaches ConjugateGradient.subsolver A st mid ∧
        r.CountedPass ConjugateGradient.subsolver A mid result d found out ∧
        0 < mid.iterations ∧ mid.iterations < r.limit ∧ result.iterations ≤ r.limit) := by
  obtain ⟨passes, ends⟩ := ends_of_run fuel st went
  have below : st.iterations < r.limit := starts ▸ allowed
  by_cases exceeds : r.limit < out.iterations
  · obtain ⟨mid, result, d, found, reaches, last, under⟩ := ends.exceeds below exceeds
    have counted := last.counted
    have limited := last.iterations_le
    exact ⟨by omega, fun _ => ⟨mid, result, d, found, reaches, last, by omega, under, limited⟩⟩
  · exact ⟨by omega, fun more => absurd more exceeds⟩

end Refinement

/-! ## Passes on all variables

Where every variable is free, a pass works on the whole system, up to the names of the variables. -/

section Everything

variable {set : IndexSet (Fin n)} (distinct : set.Distinct) (every : ∀ i, ∃ k, set.index k = i)

include distinct every

theorem IndexSet.spread_comp (v : Fin n → ℝ) : set.spread (v ∘ set.index) = v := by
  funext i
  obtain ⟨k, rfl⟩ := every i
  exact spread_index distinct _ k

theorem IndexSet.dot_comp (u v : Fin n → ℝ) : (u ∘ set.index) ⬝ᵥ (v ∘ set.index) = u ⬝ᵥ v := by
  rw [← dotProduct_spread, spread_comp distinct every]

theorem IndexSet.compressed_comp (H : (Fin n → ℝ) → Fin n → ℝ) (v : Fin n → ℝ) :
    set.compressed H (v ∘ set.index) = H v ∘ set.index := by
  rw [compressed, spread_comp distinct every]

namespace ConjugateGradient

/-- A position in the selected variables. -/
def Position.select (set : IndexSet (Fin n)) (s : Position n) : Position set.size :=
  ⟨s.x ∘ set.index, s.r ∘ set.index, s.p ∘ set.index⟩

variable {A : (Fin n → ℝ) → Fin n → ℝ} {radius tolerance : ℝ} {s : Position n}
  {status : SubproblemStatus}

theorem Position.curvature_select (A : (Fin n → ℝ) → Fin n → ℝ) (s : Position n) :
    (s.select set).curvature (set.compressed A) = s.curvature A := by
  rw [curvature, curvature, select, IndexSet.compressed_comp distinct every,
    IndexSet.dot_comp distinct every]

theorem Position.next_select (A : (Fin n → ℝ) → Fin n → ℝ) (s : Position n) :
    (s.select set).next (set.compressed A) = (s.next A).select set := by
  have length : (s.select set).length (set.compressed A) = s.length A := by
    rw [Position.length, Position.length, curvature_select distinct every, select,
      IndexSet.dot_comp distinct every]
  have image : set.compressed A (s.select set).p = A s.p ∘ set.index :=
    IndexSet.compressed_comp distinct every A s.p
  have residual : (s.select set).r + (-s.length A) • (A s.p ∘ set.index) =
      (s.r + (-s.length A) • A s.p) ∘ set.index := rfl
  rw [next, length, image, residual]
  simp only [select, IndexSet.dot_comp distinct every]
  rfl

theorem Stops.of_select {x : Fin set.size → ℝ}
    (stops : Stops (set.compressed A) radius tolerance (s.select set) status x) :
    ∃ y, x = y ∘ set.index ∧ Stops A radius tolerance s status y := by
  have boundary : (s.select set).toBoundary radius = s.toBoundary radius := by
    simp only [Position.toBoundary, Position.select, IndexSet.dot_comp distinct every]
  cases stops with
  | flat notCurved =>
      rw [Position.curvature_select distinct every] at notCurved
      exact ⟨_, congrArg _ boundary, .flat notCurved⟩
  | crossing curved leaves =>
      rw [Position.curvature_select distinct every] at curved
      rw [Position.next_select distinct every, Position.select,
        IndexSet.dot_comp distinct every] at leaves
      exact ⟨_, congrArg _ boundary, .crossing curved leaves⟩
  | solved curved stays small =>
      rw [Position.curvature_select distinct every] at curved
      rw [Position.next_select distinct every, Position.select,
        IndexSet.dot_comp distinct every] at stays small
      exact ⟨(s.next A).x, congrArg Position.x (Position.next_select distinct every A s),
        .solved curved stays small⟩

/-- A run on all variables is a run. -/
theorem Ends.of_select {k products : Nat} {x : Fin set.size → ℝ}
    (ends : Ends (set.compressed A) radius tolerance k (s.select set) status products x) :
    ∃ y, x = y ∘ set.index ∧ Ends A radius tolerance k s status products y := by
  induction k generalizing s products with
  | zero =>
      cases ends with
      | limit => exact ⟨s.x, rfl, .limit s⟩
  | succ k ih =>
      cases ends with
      | stop stops =>
          obtain ⟨y, same, stops⟩ := stops.of_select distinct every
          exact ⟨y, same, .stop stops⟩
      | further goes rest =>
          obtain ⟨curved, stays, large⟩ := goes
          rw [Position.next_select distinct every] at rest stays large
          rw [Position.curvature_select distinct every] at curved
          rw [Position.select, IndexSet.dot_comp distinct every] at stays large
          obtain ⟨y, same, rest⟩ := ih rest
          exact ⟨y, same, .further ⟨curved, stays, large⟩ rest⟩

end ConjugateGradient

end Everything

namespace SymmetricModel

open RefinementData (State)

variable {m : SymmetricModel n} {st st' : State n} {x s : Fin n → ℝ}

/-- Where no variable is blocked, every one has a place among the free variables. -/
theorem exists_index (here : st.At m.box m.hessian x s)
    (free : ∀ i, m.box.IsFree (Vec.ofReal x) (Vec.ofReal (m.g + m.hessian s)) i) (i : Fin n) :
    ∃ k, (m.refinement.freeVariables st).index k = i := by
  have gradient : m.refinement.modelGradient st = Vec.ofReal (m.g + m.hessian s) := by
    rw [Refinement.modelGradient, here.image, ← Vec.ofReal_add]
    rfl
  have member : i ∈ (m.refinement.freeVariables st).toList := by
    rw [Refinement.freeVariables, here.point, gradient]
    exact Box.mem_freeVariables.2 (free i)
  obtain ⟨k, inside, same⟩ := List.getElem_of_mem member
  exact ⟨⟨k, inside⟩, same⟩

theorem isEmpty_eq_false {set : IndexSet (Fin n)} {i : Fin n} (selected : ∃ k, set.index k = i) :
    set.isEmpty = false := by
  obtain ⟨k, -⟩ := selected
  exact Array.isEmpty_eq_false_iff.2 (Array.size_pos_iff.1 k.pos)

theorem norms_eq {x' s' : Fin n → ℝ} (here : st.At m.box m.hessian x s)
    (there : st'.At m.box m.hessian x' s')
    (every : ∀ i, ∃ k, (m.refinement.freeVariables st).index k = i) :
    m.refinement.norms ConjugateGradient.subsolver st st' =
      (((√((m.g + m.hessian s) ⬝ᵥ (m.g + m.hessian s)) : ℝ) : EReal),
        ((√((m.g + m.hessian s') ⬝ᵥ (m.g + m.hessian s')) : ℝ) : EReal)) := by
  have distinct := m.refinement.freeVariables_distinct st
  have gradient : m.refinement.modelGradient st' = Vec.ofReal (m.g + m.hessian s') := by
    rw [Refinement.modelGradient, there.image, ← Vec.ofReal_add]
    rfl
  rw [Refinement.norms, RefinementData.gather_gradient here, gradient, IndexSet.gather_ofReal, Vec.norm_ofReal,
    Vec.norm_ofReal, RefinementData.slope, IndexSet.dot_comp distinct every, IndexSet.dot_comp distinct every]

variable {result : SubproblemResult} {d : Vec EReal (m.refinement.freeVariables st).size}
  {found : SearchResult EReal (m.refinement.freeVariables st).size}

/-- The solution that a pass on all variables goes along is the end of a run on the whole system. -/
theorem exists_run (here : st.At m.box m.hessian x s)
    (pass : m.refinement.CountedPass ConjugateGradient.subsolver m.operator st result d found st')
    (every : ∀ i, ∃ k, (m.refinement.freeVariables st).index k = i)
    (moves : m.g + m.hessian s ≠ 0) :
    ∃ status products e, result = ⟨status, products⟩ ∧
      d = Vec.ofReal (e ∘ (m.refinement.freeVariables st).index) ∧
      ConjugateGradient.Ends m.hessian m.radius
        (m.tolerance * √((m.g + m.hessian s) ⬝ᵥ (m.g + m.hessian s))) m.limit
        (.start (-(m.g + m.hessian s))) status products e := by
  have distinct := m.refinement.freeVariables_distinct st
  have moves' : -m.slope m.hessian st s ≠ 0 := by
    intro rests
    refine moves (funext fun i => ?_)
    obtain ⟨k, rfl⟩ := every i
    exact congrFun (neg_eq_zero.1 rests) k
  obtain ⟨status, products, e, ends, returned⟩ := ConjugateGradient.exists_returns
    ((m.refinement.freeVariables st).compressed m.hessian) moves' m.radius m.tolerance m.limit
  obtain ⟨later, solved⟩ := returned.eval st.subsolver (Vec.zeros _)
  rw [← Vec.ofReal_neg, ← RefinementData.gather_gradient here, ← IndexSet.compress_realMap distinct] at solved
  have reported := solved.symm.trans pass.reported
  simp only [Option.some.injEq, Prod.mk.injEq] at reported
  obtain ⟨⟨rfl, rfl⟩, -⟩ := reported
  have norm : -m.slope m.hessian st s ⬝ᵥ -m.slope m.hessian st s =
      (m.g + m.hessian s) ⬝ᵥ (m.g + m.hessian s) := by
    rw [neg_dotProduct_neg, RefinementData.slope, IndexSet.dot_comp distinct every]
  rw [norm] at ends
  obtain ⟨y, rfl, whole⟩ := ConjugateGradient.Ends.of_select distinct every
    (s := .start (-(m.g + m.hessian s))) ends
  exact ⟨status, products, y, rfl, rfl, whole⟩

/-- If the full step along it decreases the model, it is the step of the pass. -/
theorem moves_of_decreases (here : st.At m.box m.hessian x s)
    (pass : m.refinement.CountedPass ConjugateGradient.subsolver m.operator st result d found st')
    (every : ∀ i, ∃ k, (m.refinement.freeVariables st).index k = i) {e : Fin n → ℝ}
    (direction : d = Vec.ofReal (e ∘ (m.refinement.freeVariables st).index))
    (decreases : m.box.Decreases x e (m.g + m.hessian s) m.hessian m.mu0 1) :
    st'.At m.box m.hessian (x + m.box.path x e 1) (s + m.box.path x e 1) := by
  have distinct := m.refinement.freeVariables_distinct st
  have inside := Box.contains_restrict here.inside (m.refinement.freeVariables st)
  have path : (m.box.restrict (m.refinement.freeVariables st)).path
      (x ∘ (m.refinement.freeVariables st).index) (e ∘ (m.refinement.freeVariables st).index) 1 =
        m.box.path x e 1 ∘ (m.refinement.freeVariables st).index := rfl
  have part : (m.box.restrict (m.refinement.freeVariables st)).Decreases
      (x ∘ (m.refinement.freeVariables st).index) (e ∘ (m.refinement.freeVariables st).index)
      (m.slope m.hessian st s) ((m.refinement.freeVariables st).compressed m.hessian) m.mu0 1 := by
    rw [Box.decreases_iff, path, RefinementData.slope, IndexSet.compressed_comp distinct every]
    simp only [IndexSet.dot_comp distinct every]
    exact Box.decreases_iff.1 decreases
  obtain ⟨fuel, searched⟩ := pass.searched
  have ended := ProjectedSearch.find_mono searched (Nat.le_succ fuel)
  rw [direction, RefinementData.search_ofReal here, ProjectedSearch.find_of_decreases inside
    (IndexSet.compress_actsBy distinct m.operator_actsBy) part (Nat.succ_pos fuel),
    path] at ended
  obtain rfl := Option.some.inj ended
  have step : st'.s = Vec.ofReal (s + m.box.path x e 1) := by
    rw [pass.s, here.step, IndexSet.accumulate_ofReal distinct,
      IndexSet.spread_comp distinct every]
  refine ⟨?_, step, ?_, Box.contains_path here.inside 1⟩
  · rw [pass.x, here.point, IndexSet.scatter_ofReal distinct, IndexSet.spread_comp distinct every]
  · rw [pass.hs, step, m.operator_actsBy]

/-! ### A refinement that exceeds its limit -/

theorem leaning_symmetric (u v : Fin 2 → ℝ) : u ⬝ᵥ Matrix.mulVecLin !![4.0, 4.0; 4.0, 5.0] v =
    Matrix.mulVecLin !![4.0, 4.0; 4.0, 5.0] u ⬝ᵥ v := by
  have four : (4.0 : ℝ) = 4 := by norm_num
  have five : (5.0 : ℝ) = 5 := by norm_num
  rw [four, five]
  simp only [dotProduct, Fin.sum_univ_two, Matrix.mulVecLin_apply, Matrix.mulVec, Matrix.of_apply,
    Matrix.cons_val_zero, Matrix.cons_val_one]
  ring

/-- The operator with the rows `(4, 4)` and `(4, 5)`. -/
noncomputable def leaning : SymmetricOperator 2 where
  map := Matrix.mulVecLin !![4.0, 4.0; 4.0, 5.0]
  symmetric := leaning_symmetric

theorem leaning_apply (a b : ℝ) : leaning ![a, b] = ![4 * a + 4 * b, 4 * a + 5 * b] := by
  funext i
  fin_cases i <;> norm_num [leaning, Matrix.mulVec, dotProduct, Fin.sum_univ_two]

theorem overspend_ordered : ∀ i, (![-1, -1] : Fin 2 → ℝ) i ≤ ![8.0, 0.125] i := by
  intro i
  fin_cases i <;> norm_num

theorem overspend_inside :
    (Box.ofReal ![-1, -1] ![8.0, 0.125] overspend_ordered).Contains (Vec.ofReal ![0, 0]) := by
  rw [Box.contains_ofReal]
  intro i
  fin_cases i <;> norm_num

/-- A refinement with two iterations to spend. The first pass spends one of them, on a solution that leaves
the box: the second variable stops at its upper bound halfway. There the slope leads back into the box, so
both variables are free again. -/
noncomputable def overspend : SymmetricModel 2 where
  box := .ofReal ![-1, -1] ![8.0, 0.125] overspend_ordered
  x := ![0, 0]
  inside := overspend_inside
  s := ![0, 0]
  g := ![-3.0, -2.0]
  hessian := leaning
  radius := 1
  radius_pos := Real.zero_lt_one
  mu0 := 0.01
  mu0_pos := by norm_num
  mu0_lt := by norm_num
  tolerance := 0.26
  tolerance_pos := by norm_num
  tolerance_lt := by norm_num
  limit := 2
  limit_pos := Nat.two_pos

end SymmetricModel

namespace ConjugateGradient

variable {status : SubproblemStatus} {products : Nat} {e : Fin 2 → ℝ}

/-- The first call converges with its first iteration. -/
theorem leaning_first
    (ends : Ends SymmetricModel.leaning 1 (0.26 * √13) 2 (.start ![3, 2]) status products e) :
    status = .converged ∧ products = 1 ∧ e = ![3 / 8, 1 / 4] := by
  have curved : (![3, 2] : Fin 2 → ℝ) ⬝ᵥ SymmetricModel.leaning ![3, 2] = 104 := by
    rw [SymmetricModel.leaning_apply, dot_pair]
    norm_num
  have square : (![3, 2] : Fin 2 → ℝ) ⬝ᵥ ![3, 2] = 13 := by
    rw [dot_pair]
    norm_num
  have x : ((Position.start ![3, 2]).next SymmetricModel.leaning).x = ![3 / 8, 1 / 4] := by
    rw [next_start_x, curved, square, smul_pair]
    norm_num
  have r : ((Position.start ![3, 2]).next SymmetricModel.leaning).r = ![1 / 2, -(3 / 4)] := by
    rw [next_start_r, curved, square, SymmetricModel.leaning_apply, smul_pair, add_pair]
    norm_num
  have small : √(![1 / 2, -(3 / 4)] ⬝ᵥ ![1 / 2, -(3 / 4)]) ≤ 0.26 * √13 := by
    rw [dot_pair, Real.sqrt_le_iff, mul_pow, Real.sq_sqrt (by norm_num)]
    exact ⟨by positivity, by norm_num⟩
  cases ends with
  | stop stops =>
      cases stops with
      | flat notCurved =>
          rw [Position.curvature] at notCurved
          exact absurd (curved.symm.trans_le notCurved) (by norm_num)
      | crossing _ leaves =>
          rw [x, dot_pair] at leaves
          norm_num at leaves
      | solved => exact ⟨rfl, rfl, x⟩
  | further goes =>
      have large := goes.large
      rw [r] at large
      exact absurd small large.not_ge

/-- The second call does not. -/
theorem leaning_second
    (ends : Ends SymmetricModel.leaning 1 (0.26 * √(65 / 64)) 2 (.start ![1, -(1 / 8)]) status
      products e) : products = 2 := by
  have curved : (![1, -(1 / 8)] : Fin 2 → ℝ) ⬝ᵥ SymmetricModel.leaning ![1, -(1 / 8)] = 197 / 64 := by
    rw [SymmetricModel.leaning_apply, dot_pair]
    norm_num
  have square : (![1, -(1 / 8)] : Fin 2 → ℝ) ⬝ᵥ ![1, -(1 / 8)] = 65 / 64 := by
    rw [dot_pair]
    norm_num
  cases ends with
  | stop stops =>
      cases stops with
      | flat notCurved =>
          rw [Position.curvature] at notCurved
          exact absurd (curved.symm.trans_le notCurved) (by norm_num)
      | crossing _ leaves =>
          rw [next_start_x, curved, square, smul_pair, dot_pair] at leaves
          norm_num at leaves
      | solved _ _ small =>
          rw [next_start_r, curved, square, SymmetricModel.leaning_apply, smul_pair, add_pair,
            dot_pair, Real.sqrt_le_iff, mul_pow, Real.sq_sqrt (by norm_num)] at small
          norm_num at small
  | further _ rest =>
      cases rest with
      | stop => rfl
      | further _ rest =>
          cases rest
          rfl

end ConjugateGradient

namespace SymmetricModel

open RefinementData (State)

/-- The states of the refinement: before the first pass, and after it. -/
theorem overspend_start :
    (overspend.start ConjugateGradient.subsolver.initial).At overspend.box overspend.hessian ![0, 0]
      ![0, 0] := overspend.start_at _

theorem overspend_gradient : overspend.g + overspend.hessian ![0, 0] = ![-3, -2] := by
  change ![-3.0, -2.0] + leaning ![0, 0] = _
  rw [leaning_apply, add_pair]
  norm_num

theorem overspend_gradient_bound :
    overspend.g + overspend.hessian ![3 / 8, 1 / 8] = ![-1, 1 / 8] := by
  change ![-3.0, -2.0] + leaning ![3 / 8, 1 / 8] = _
  rw [leaning_apply, add_pair]
  norm_num

/-- A variable is free between its bounds, and on a bound that the slope leads away from. -/
theorem overspend_free {a b u v : ℝ} (first : -1 < a ∧ a < 8.0)
    (second : -1 < b ∧ (b < 0.125 ∨ 0 < v)) :
    ∀ i, overspend.box.IsFree (Vec.ofReal ![a, b]) (Vec.ofReal ![u, v]) i := by
  intro i
  rw [Box.IsFree, Box.IsBlocked, Vec.get_ofReal, Vec.get_ofReal, EReal.coe_nonneg, EReal.coe_nonpos]
  fin_cases i
  · rintro (⟨on, -⟩ | ⟨on, -⟩)
    · exact absurd (EReal.coe_le_coe_iff.1 on) first.1.not_ge
    · exact absurd (EReal.coe_le_coe_iff.1 on) first.2.not_ge
  · rintro (⟨on, -⟩ | ⟨on, down⟩)
    · exact absurd (EReal.coe_le_coe_iff.1 on) second.1.not_ge
    · rcases second.2 with below | up
      · exact absurd (EReal.coe_le_coe_iff.1 on) below.not_ge
      · exact absurd down up.not_ge

/-- The path of the first pass is bent at the upper bound of the second variable. -/
theorem overspend_path :
    overspend.box.path ![0, 0] ![3 / 8, 1 / 4] 1 = ![3 / 8, 1 / 8] := by
  refine (Box.path_ofReal overspend_ordered _ _ _).trans (funext fun i => ?_)
  fin_cases i <;> norm_num [max_def, min_def]

theorem overspend_decreases :
    overspend.box.Decreases ![0, 0] ![3 / 8, 1 / 4]
      (overspend.g + overspend.hessian ![0, 0]) overspend.hessian overspend.mu0 1 := by
  rw [Box.decreases_iff, overspend_path, overspend_gradient]
  change 1 / 2 * (![3 / 8, 1 / 8] ⬝ᵥ leaning ![3 / 8, 1 / 8]) + _ ≤ 0.01 * _
  rw [leaning_apply, dot_pair, dot_pair]
  norm_num

theorem overspend_slopes : (![-3, -2] : Fin 2 → ℝ) ⬝ᵥ ![-3, -2] = 13 ∧
    (![-1, 1 / 8] : Fin 2 → ℝ) ⬝ᵥ ![-1, 1 / 8] = 65 / 64 := by
  rw [dot_pair, dot_pair]
  norm_num

theorem overspend_every (i : Fin 2) : ∃ k, (overspend.refinement.freeVariables
    (overspend.start ConjugateGradient.subsolver.initial)).index k = i := by
  refine exists_index overspend_start ?_ i
  rw [overspend_gradient]
  exact overspend_free (by norm_num) ⟨by norm_num, .inl (by norm_num)⟩

theorem overspend_every_bound {mid : State 2}
    (there : mid.At overspend.box overspend.hessian ![3 / 8, 1 / 8] ![3 / 8, 1 / 8]) (i : Fin 2) :
    ∃ k, (overspend.refinement.freeVariables mid).index k = i := by
  refine exists_index there ?_ i
  rw [overspend_gradient_bound]
  exact overspend_free (by norm_num) ⟨by norm_num, .inr (by norm_num)⟩

/-- The first pass takes one iteration, ends at the bound and is not the last. -/
theorem overspend_first {result : SubproblemResult}
    {d : Vec EReal (overspend.refinement.freeVariables
      (overspend.start ConjugateGradient.subsolver.initial)).size}
    {found : SearchResult EReal (overspend.refinement.freeVariables
      (overspend.start ConjugateGradient.subsolver.initial)).size} {mid : State 2}
    (pass : overspend.refinement.CountedPass ConjugateGradient.subsolver overspend.operator
      (overspend.start ConjugateGradient.subsolver.initial) result d found mid) :
    mid.At overspend.box overspend.hessian ![3 / 8, 1 / 8] ![3 / 8, 1 / 8] ∧ mid.iterations = 1 ∧
      overspend.refinement.verdict (overspend.refinement.norms ConjugateGradient.subsolver
        (overspend.start ConjugateGradient.subsolver.initial) mid) result mid.iterations = none := by
  obtain ⟨status, products, e, rfl, direction, ends⟩ :=
    exists_run overspend_start pass overspend_every (by rw [overspend_gradient]; simp)
  rw [overspend_gradient, overspend_slopes.1, neg_pair, neg_neg, neg_neg] at ends
  obtain ⟨rfl, rfl, rfl⟩ := ConjugateGradient.leaning_first ends
  have there := moves_of_decreases overspend_start pass overspend_every direction overspend_decreases
  rw [overspend_path, add_pair, zero_add, zero_add] at there
  have counted : mid.iterations = 1 := pass.counted
  have norms := norms_eq overspend_start there overspend_every
  rw [overspend_gradient, overspend_gradient_bound, overspend_slopes.1, overspend_slopes.2] at norms
  have far : ¬ √(65 / 64) ≤ 0.26 * √13 := by
    rw [Real.sqrt_le_iff, mul_pow, Real.sq_sqrt (by norm_num)]
    norm_num
  have left : ¬ overspend.refinement.limit ≤ 1 := by decide
  refine ⟨there, counted, ?_⟩
  rw [norms, counted, Refinement.verdict]
  change (if ((√(65 / 64) : ℝ) : EReal) ≤ ((0.26 * √13 : ℝ) : EReal) then _ else _) = _
  rw [if_neg (mt EReal.coe_le_coe_iff.1 far), if_neg (by decide), if_neg left]

/-- The second pass takes two. -/
theorem overspend_second {mid out : State 2}
    (there : mid.At overspend.box overspend.hessian ![3 / 8, 1 / 8] ![3 / 8, 1 / 8])
    {result : SubproblemResult} {d : Vec EReal (overspend.refinement.freeVariables mid).size}
    {found : SearchResult EReal (overspend.refinement.freeVariables mid).size}
    (pass : overspend.refinement.CountedPass ConjugateGradient.subsolver overspend.operator mid result
      d found out) : result.iterations = 2 := by
  obtain ⟨status, products, e, rfl, -, ends⟩ :=
    exists_run there pass (overspend_every_bound there) (by rw [overspend_gradient_bound]; simp)
  rw [overspend_gradient_bound, overspend_slopes.2, neg_pair, neg_neg] at ends
  exact ConjugateGradient.leaning_second ends

/-- So the refinement returns with three. -/
theorem overspend_run :
    ∃ fuel status out, (overspend.refinement.run ConjugateGradient.subsolver fuel
      (overspend.start ConjugateGradient.subsolver.initial)).eval (answeredBy overspend.operator) =
        some (status, out) ∧ out.iterations = 3 := by
  obtain ⟨result, d, found, mid, pass⟩ := exists_countedPass overspend_start
  obtain ⟨there, counted, goes⟩ := overspend_first pass
  obtain ⟨result', d', found', out, pass'⟩ := exists_countedPass there
  have total : out.iterations = 3 := by
    rw [pass'.counted, counted, overspend_second there pass']
  have used : overspend.refinement.limit ≤ out.iterations := by
    rw [total]
    decide
  obtain ⟨status, reason⟩ := Refinement.exists_verdict
    (overspend.refinement.norms ConjugateGradient.subsolver mid out) result' used
  have ends := Refinement.Ends.further (isEmpty_eq_false (overspend_every 0)) pass goes
    (.stops (isEmpty_eq_false (overspend_every_bound there 0)) pass' reason)
  obtain ⟨enough, went⟩ := ends.eval_run (by rw [total]; decide)
  exact ⟨enough, status, out, went enough le_rfl, total⟩

/-- A refinement can make more iterations than its limit. -/
theorem overspend_exceeds :
    ∃ fuel status out, (overspend.refinement.run ConjugateGradient.subsolver fuel
      (overspend.start ConjugateGradient.subsolver.initial)).eval (answeredBy overspend.operator) =
        some (status, out) ∧ overspend.limit < out.iterations := by
  obtain ⟨fuel, status, out, went, total⟩ := overspend_run
  exact ⟨fuel, status, out, went, total ▸ (by decide : 2 < 3)⟩

/-- It stays below twice the limit, and the last pass is the one that has gone beyond it. -/
theorem run_iterations_lt_overspend :
    0 < overspend.refinement.limit ∧
      (overspend.start ConjugateGradient.subsolver.initial).iterations = 0 ∧
      ∃ fuel status out mid result d found,
        (overspend.refinement.run ConjugateGradient.subsolver fuel
          (overspend.start ConjugateGradient.subsolver.initial)).eval (answeredBy overspend.operator) =
            some (status, out) ∧ out.iterations < 2 * 2 ∧
        overspend.refinement.CountedPass ConjugateGradient.subsolver overspend.operator mid result d
          found out ∧ 0 < mid.iterations ∧ mid.iterations < 2 := by
  obtain ⟨fuel, status, out, went, total⟩ := overspend_run
  have bound := Refinement.run_iterations_lt (r := overspend.refinement) two_pos rfl went
  obtain ⟨mid, result, d, found, -, last, started, below, -⟩ :=
    bound.2 (total ▸ (by decide : 2 < 3))
  exact ⟨two_pos, rfl, fuel, status, out, mid, result, d, found, went, bound.1, last, started, below⟩

end SymmetricModel

end BoxNewton
