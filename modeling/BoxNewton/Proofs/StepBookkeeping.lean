import Mathlib
import BoxNewton.Proofs.ProjectedPath
import BoxNewton.Proofs.RefinementPass
import BoxNewton.Proofs.TruncatedRun

/-!
# The bookkeeping of a refinement

A refinement moves a point and adds to a step, and it does the two apart: the point is gathered, searched
from, projected and scattered back, while the step has the end of the search accumulated into it. In exact
arithmetic the two stay in step. Over one pass both change by the same vector, which is zero outside the
free variables of the pass and no longer than the solution of its subproblem (`Refinement.Pass.moves`); so
over a run the point has moved by what was added to the step, the product is still the one with the step,
and the point is still in the box (`Refinement.run_moves`).

The operator may be any map of real vectors, linear or not (`Vec.ActsBy`). Nothing is asked of the
subsolver but that it answers real data with a real vector (`Subsolver.ReturnsReal`): where it leads to
does not matter, since the search starts from it and ends at a projected step.

What refinements by conjugate gradients need besides an operator is one structure (`RefinementData`), to be
extended by the kind of operator that a theory is about. On the selected variables a symmetric operator is
symmetric again, and a definite one definite (`SymmetricOperator.compress`, `Curvature.compress`).
-/

set_option autoImplicit false

namespace BoxNewton

variable {n : Nat}

/-! ## Operators on real vectors -/

/-- The operator takes real vectors to real vectors, by the given map. -/
def Vec.ActsBy (A : Vec EReal n → Vec EReal n) (H : (Fin n → ℝ) → Fin n → ℝ) : Prop :=
  ∀ v, A (ofReal v) = ofReal (H v)

/-- The map on the selected variables. -/
noncomputable def IndexSet.compressed (set : IndexSet (Fin n)) (H : (Fin n → ℝ) → Fin n → ℝ)
    (v : Fin set.size → ℝ) : Fin set.size → ℝ :=
  H (set.spread v) ∘ set.index

/-- The compressed operator acts by the compressed map. -/
theorem IndexSet.compress_actsBy {set : IndexSet (Fin n)} (distinct : set.Distinct)
    {A : Vec EReal n → Vec EReal n} {H : (Fin n → ℝ) → Fin n → ℝ} (acts : Vec.ActsBy A H) :
    Vec.ActsBy (set.compress A) (set.compressed H) := by
  intro v
  have spread : set.scatter (Vec.ofReal v) (Vec.zeros n) = Vec.ofReal (set.spread v) := by
    have scattered := set.scatter_ofReal distinct v 0
    rw [zero_add] at scattered
    rw [Vec.zeros_eq_ofReal, ← scattered]
    exact congrArg (fun part => set.scatter (Vec.ofReal part) (Vec.ofReal 0)) (zero_add v).symm
  rw [compress, spread, acts, gather_ofReal, compressed]

/-- Answering on the selected variables is answering with the compressed map. -/
theorem IndexSet.compress_realMap {set : IndexSet (Fin n)} (distinct : set.Distinct)
    (H : (Fin n → ℝ) → Fin n → ℝ) : set.compress (Vec.realMap H) = Vec.realMap (set.compressed H) := by
  funext v
  rw [compress, Vec.realMap, gather_ofReal, toReal_scatter_zeros distinct]
  rfl

/-- The operator `Zᵀ A Z` on the selected variables. -/
def SymmetricOperator.compress (A : SymmetricOperator n) (set : IndexSet (Fin n)) :
    SymmetricOperator set.size where
  map := LinearMap.funLeft ℝ ℝ set.index ∘ₗ A.map ∘ₗ set.spread
  symmetric u v := by
    change u ⬝ᵥ (A (set.spread v) ∘ set.index) = (A (set.spread u) ∘ set.index) ⬝ᵥ v
    rw [dotProduct_comm, ← IndexSet.dotProduct_spread, ← IndexSet.dotProduct_spread,
      dotProduct_comm, A.symmetric]

/-- The operator `Zᵀ H Z` is definite again, since every variable is selected at most once. -/
def Curvature.compress (H : Curvature n) {set : IndexSet (Fin n)} (distinct : set.Distinct) :
    Curvature set.size where
  toSymmetricOperator := H.toSymmetricOperator.compress set
  positive u moves := by
    change 0 < u ⬝ᵥ (H (set.spread u) ∘ set.index)
    rw [dotProduct_comm, ← IndexSet.dotProduct_spread, dotProduct_comm]
    apply H.positive
    intro zero
    apply moves
    funext k
    rw [← IndexSet.spread_index distinct u k, zero]
    rfl

/-- The subsolver answers real data with a real vector, whatever the operator is and whatever it has kept
from earlier calls. -/
def Subsolver.ReturnsReal (S : Subsolver EReal) (radius tolerance : EReal) (limit : Nat) : Prop :=
  ∀ {m : Nat} (kept : S.State) (b : Fin m → ℝ) (A : Vec EReal m → Vec EReal m)
    (H : (Fin m → ℝ) → Fin m → ℝ) {result : SubproblemResult} {d : Vec EReal m} {later : S.State},
    Vec.ActsBy A H →
    (S.solve kept (Vec.ofReal b) radius tolerance limit (Vec.zeros m)).eval (answeredBy A) =
      some ((result, d), later) → ∃ e : Fin m → ℝ, d = Vec.ofReal e

namespace ConjugateGradient

variable {A : Vec EReal n → Vec EReal n} {H : (Fin n → ℝ) → Fin n → ℝ} (acts : Vec.ActsBy A H)
  (radius tolerance : ℝ) (limit : Nat)

include acts

/-- From real vectors, an operator that acts by a map is only asked for what the map answers. -/
theorem eval_iterate_realMap : ∀ (remaining : Nat) (x r p : Fin n → ℝ) (gamma : ℝ) (product : Vec EReal n),
    (iterate (radius : EReal) (tolerance : EReal) limit remaining
      (realState x r p gamma product)).eval (answeredBy A) =
    (iterate (radius : EReal) (tolerance : EReal) limit remaining
      (realState x r p gamma product)).eval (answeredBy (Vec.realMap H)) := by
  have divide : ∀ a c : ℝ, (a : EReal) / (c : EReal) = ((a / c : ℝ) : EReal) := fun _ _ => rfl
  intro remaining
  induction remaining with
  | zero => exact fun _ _ _ _ _ => rfl
  | succ remaining ih =>
      intro x r p gamma product
      have residual : ∀ a : ℝ, (Vec.ofReal r).addScaled (-(a : EReal)) (Vec.ofReal (H p)) =
          Vec.ofReal (r + (-a) • H p) := fun a => Vec.addScaled_ofReal r (H p) (-a)
      simp only [iterate, realState, Dialogue.eval_bind, eval_request, acts p, Vec.realMap_ofReal,
        Option.bind_some, Vec.dot_ofReal, stepToBoundary_ofReal, divide, Vec.addScaled_ofReal, residual,
        Vec.normSq_ofReal, Vec.conjugate_ofReal]
      split
      · rfl
      · split
        · rfl
        · split
          · rfl
          · exact ih _ _ _ _ _

theorem eval_solve_realMap (w : Workspace EReal) (b : Fin n → ℝ) :
    (solve w (Vec.ofReal b) (radius : EReal) (tolerance : EReal) limit).eval (answeredBy A) =
      (solve w (Vec.ofReal b) (radius : EReal) (tolerance : EReal) limit).eval
        (answeredBy (Vec.realMap H)) := by
  unfold solve
  dsimp only
  split
  · rfl
  · rw [Vec.norm_ofReal, Vec.normSq_ofReal, Vec.zeros_eq_ofReal, ← EReal.coe_mul]
    exact eval_iterate_realMap acts radius _ limit limit 0 b b _ _

/-- What truncated conjugate gradients come to for an operator is what they return for its map. -/
theorem exists_returns_of_eval {kept : (subsolver (α := EReal)).State} {b : Fin n → ℝ} {out : Vec EReal n}
    {result : SubproblemResult} {d : Vec EReal n} {later : (subsolver (α := EReal)).State}
    (solved : (subsolver.solve kept (Vec.ofReal b) (radius : EReal) (tolerance : EReal) limit out).eval
      (answeredBy A) = some ((result, d), later)) :
    ∃ e products, d = Vec.ofReal e ∧ Returns H b radius tolerance limit result e products := by
  obtain ⟨result', e, products, returned⟩ :
      ∃ result e products, Returns H b radius tolerance limit result e products := by
    by_cases moves : b = 0
    · subst moves
      exact ⟨_, _, _, returns_zero H radius tolerance limit⟩
    · obtain ⟨_, _, _, -, returned⟩ := exists_returns H moves radius tolerance limit
      exact ⟨_, _, _, returned⟩
  obtain ⟨later', came⟩ := returned.eval kept out
  have same := (eval_solve_realMap acts radius tolerance limit kept b).symm.trans solved
  cases came.symm.trans same
  exact ⟨e, products, rfl, returned⟩

omit acts in
/-- Truncated conjugate gradients return real vectors. -/
theorem subsolver_returnsReal : (subsolver : Subsolver EReal).ReturnsReal radius tolerance limit := by
  intro m kept b A H result d later acts solved
  obtain ⟨e, -, same, -⟩ := exists_returns_of_eval acts radius tolerance limit solved
  exact ⟨e, same⟩

end ConjugateGradient

/-! ## Where a search lands -/

/-- A search along a real direction ends with a real step, no longer than the direction, at the point of the
box that it leads to. -/
theorem ProjectedSearch.find_lands {search : ProjectedSearch EReal n} {A : Vec EReal n → Vec EReal n}
    {x d : Fin n → ℝ} (start : search.x = Vec.ofReal x) (direction : search.d = Vec.ofReal d)
    (inside : search.box.Contains (Vec.ofReal x)) {fuel : Nat} {hs : Vec EReal n}
    {found : SearchResult EReal n} (went : (search.find fuel hs).eval (answeredBy A) = some found) :
    ∃ p : Fin n → ℝ, found.step = Vec.ofReal p ∧ found.point = Vec.ofReal (x + p) ∧
      search.box.Contains (Vec.ofReal (x + p)) ∧ p ⬝ᵥ p ≤ d ⬝ᵥ d := by
  obtain ⟨a, positive, full, rfl, -⟩ := find_path start inside direction went
  exact ⟨search.box.path x d a, rfl, rfl, Box.contains_path inside a,
    Box.path_dot_self_le_direction inside positive.le full⟩

/-! ## Passes -/

namespace Refinement

/-- The state is at a real point of the box, with a real step and the product with it. -/
structure State.At {W : Type} (st : State EReal n W) (box : Box EReal n)
    (H : (Fin n → ℝ) → Fin n → ℝ) (x s : Fin n → ℝ) : Prop where
  point : st.x = Vec.ofReal x
  step : st.s = Vec.ofReal s
  image : st.hs = Vec.ofReal (H s)
  inside : box.Contains (Vec.ofReal x)

variable {r : Refinement EReal n} {S : Subsolver EReal} {A : Vec EReal n → Vec EReal n}
  {H : (Fin n → ℝ) → Fin n → ℝ} {g x s : Fin n → ℝ} {st st' : State EReal n S.State}

/-- The gradient of the model in the free variables. -/
theorem State.At.freeGradient (here : st.At r.box H x s) (gradient : r.g = Vec.ofReal g) :
    (r.freeVariables st).gather (r.modelGradient st) =
      Vec.ofReal ((g + H s) ∘ (r.freeVariables st).index) := by
  rw [modelGradient, gradient, here.image, Vec.ofReal_add, IndexSet.gather_ofReal]

/-- **One pass.** The point moves by what is added to the step. That is a vector of the free variables, and
no longer than the solution of the subproblem. -/
theorem Pass.moves (acts : Vec.ActsBy A H) (gradient : r.g = Vec.ofReal g)
    (returns : S.ReturnsReal r.radius r.tolerance r.limit) (here : st.At r.box H x s)
    {d : Vec EReal (r.freeVariables st).size} {found : SearchResult EReal (r.freeVariables st).size}
    (pass : r.Pass S A st d found st') :
    ∃ e p : Fin (r.freeVariables st).size → ℝ, d = Vec.ofReal e ∧ p ⬝ᵥ p ≤ e ⬝ᵥ e ∧
      st'.At r.box H (x + (r.freeVariables st).spread p) (s + (r.freeVariables st).spread p) := by
  obtain ⟨⟨result, kept, solved⟩, ⟨fuel, searched⟩, movedX, movedS, movedHs⟩ := pass
  have distinct := r.freeVariables_distinct st
  rw [here.freeGradient gradient, Vec.ofReal_neg] at solved
  obtain ⟨e, rfl⟩ := returns _ _ _ _ (IndexSet.compress_actsBy distinct acts) solved
  have start : (r.search S st (Vec.ofReal e)).x = Vec.ofReal (x ∘ (r.freeVariables st).index) := by
    rw [search, here.point, IndexSet.gather_ofReal]
  have inside := Box.contains_restrict here.inside (r.freeVariables st)
  obtain ⟨p, step, point, lands, short⟩ := ProjectedSearch.find_lands start rfl inside searched
  rw [point, here.point, IndexSet.scatter_ofReal distinct] at movedX
  rw [step, here.step, IndexSet.accumulate_ofReal distinct] at movedS
  refine ⟨e, p, rfl, short, movedX, movedS, ?_, ?_⟩
  · rw [movedHs, movedS, acts]
  · intro i
    rw [← IndexSet.scatter_ofReal distinct]
    exact Box.Holds.scatter (fun i _ => here.inside i) (fun k _ => lands k) i (Scalar.isNumber _)

/-- Nothing changes outside the free variables of a pass. -/
theorem Pass.stays {d : Vec EReal (r.freeVariables st).size}
    {found : SearchResult EReal (r.freeVariables st).size} (pass : r.Pass S A st d found st')
    {i : Fin n} (away : ∀ k, (r.freeVariables st).index k ≠ i) :
    st'.x.get i = st.x.get i ∧ st'.s.get i = st.s.get i := by
  rw [pass.x, pass.s]
  exact ⟨IndexSet.get_scatter_of_ne _ _ away, IndexSet.get_accumulate_of_ne _ _ away⟩

/-- From a state of exact arithmetic, the passes lead to such states, with the point and the step moved
alike. -/
theorem Reaches.moves (acts : Vec.ActsBy A H) (gradient : r.g = Vec.ofReal g)
    (returns : S.ReturnsReal r.radius r.tolerance r.limit) (here : st.At r.box H x s)
    (reaches : r.Reaches S A st st') : ∃ x' s', st'.At r.box H x' s' ∧ x' - x = s' - s := by
  induction reaches with
  | refl => exact ⟨x, s, here, by rw [sub_self, sub_self]⟩
  | @tail mid out _ last ih =>
      obtain ⟨d, found, pass⟩ := last
      obtain ⟨x', s', there, alike⟩ := ih
      obtain ⟨_, p, -, -, moved⟩ := Pass.moves acts gradient returns there pass
      refine ⟨_, _, moved, ?_⟩
      rw [add_sub_right_comm, add_sub_right_comm, alike]

/-- **A whole run.** From a state of exact arithmetic, whenever a run ends, the point has moved by what was
added to the step, the product is the one with the step, and the point is in the box. -/
theorem run_moves (acts : Vec.ActsBy A H) (gradient : r.g = Vec.ofReal g)
    (returns : S.ReturnsReal r.radius r.tolerance r.limit) (here : st.At r.box H x s) {fuel : Nat}
    {out : RefinementStatus × State EReal n S.State}
    (went : (r.run S fuel st).eval (answeredBy A) = some out) :
    ∃ x' s', out.2.At r.box H x' s' ∧ x' - x = s' - s :=
  (reaches_of_run fuel st went).moves acts gradient returns here

end Refinement

/-! ## The data of a refinement -/

/-- The data of a refinement in exact arithmetic, but for its operator: a box and a point of it, a gradient,
and parameters in their ranges. -/
structure RefinementData (n : Nat) where
  box : Box EReal n
  x : Fin n → ℝ
  inside : box.Contains (Vec.ofReal x)
  g : Fin n → ℝ
  radius : ℝ
  radius_pos : 0 < radius
  mu0 : ℝ
  mu0_pos : 0 < mu0
  mu0_lt : mu0 < 0.5
  tolerance : ℝ
  tolerance_pos : 0 < tolerance
  tolerance_lt : tolerance < 1
  limit : Nat
  limit_pos : 0 < limit

namespace RefinementData

/-- The refinement with these parameters. -/
noncomputable def refinement (m : RefinementData n) : Refinement EReal n where
  box := m.box
  g := Vec.ofReal m.g
  radius := m.radius
  mu0 := m.mu0
  tolerance := m.tolerance
  limit := m.limit

/-- The states of a refinement by conjugate gradients. -/
abbrev State (n : Nat) : Type :=
  Refinement.State EReal n (ConjugateGradient.subsolver (α := EReal)).State

/-- The gradient of the model in the free variables, at a step. -/
noncomputable def slope (m : RefinementData n) (H : (Fin n → ℝ) → Fin n → ℝ) (st : State n)
    (s : Fin n → ℝ) : Fin (m.refinement.freeVariables st).size → ℝ :=
  (m.g + H s) ∘ (m.refinement.freeVariables st).index

variable {m : RefinementData n} {H : (Fin n → ℝ) → Fin n → ℝ} {st : State n} {x s : Fin n → ℝ}

theorem gather_gradient (here : st.At m.box H x s) :
    (m.refinement.freeVariables st).gather (m.refinement.modelGradient st) =
      Vec.ofReal (m.slope H st s) :=
  Refinement.State.At.freeGradient here rfl

/-- The search of a pass along a real direction is one over real vectors. -/
theorem search_ofReal (here : st.At m.box H x s)
    (e : Fin (m.refinement.freeVariables st).size → ℝ) :
    m.refinement.search ConjugateGradient.subsolver st (Vec.ofReal e) =
      .ofReal (m.box.restrict (m.refinement.freeVariables st))
        (x ∘ (m.refinement.freeVariables st).index) e (m.slope H st s) m.mu0 := by
  rw [Refinement.search, gather_gradient here, here.point, IndexSet.gather_ofReal]
  rfl

/-- Every state that passes lead to from a state of exact arithmetic is one. -/
theorem exists_at_of_reaches {A : Vec EReal n → Vec EReal n} (acts : Vec.ActsBy A H)
    (here : st.At m.box H x s) {st' : State n}
    (reaches : m.refinement.Reaches ConjugateGradient.subsolver A st st') :
    ∃ x' s', st'.At m.box H x' s' := by
  obtain ⟨x', s', there, -⟩ := reaches.moves acts rfl
    (ConjugateGradient.subsolver_returnsReal m.radius m.tolerance m.limit) here
  exact ⟨x', s', there⟩

end RefinementData

end BoxNewton
