import Mathlib
import BoxNewton.Proofs.SearchLength
import BoxNewton.Proofs.TruncatedTermination

/-!
# A refinement comes to an end

A refinement has no counter for its passes. What ends it is the count of the subsolver's iterations, so
every pass that goes on has to add to it. In exact arithmetic and with a symmetric operator, definite or
not, it does: the subsolver makes no iteration only where the free gradient of the model vanishes, and then
the step of the pass is zero and the residual is zero too, which is reported as a stationary point
(`SymmetricModel.verdict_of_rests`). So there are at most as many passes as the limit allows iterations
(`SymmetricModel.run_finishes`).

Within a pass the search has to end as well. The solution of the subproblem descends, and it still does
without its entries for free variables that it presses against their bounds: there the slope leads away
from the bound, so those entries only make the slope along the solution larger (`Box.dot_movable_le`).

A run returns if a word has room for its count. The bound on the count shows that it has, unless the limit
is close to the end of the word.
-/

set_option autoImplicit false

namespace BoxNewton

variable {n : Nat}

/-! ## Selected variables -/

namespace IndexSet

variable {set : IndexSet (Fin n)}

theorem size_le (distinct : set.Distinct) : set.size ≤ n := by
  simpa using Fintype.card_le_of_injective set.index distinct

end IndexSet

/-! ## Directions of descent -/

namespace Box

variable {box : Box EReal n} {x w : Fin n → ℝ}

/-- The free variables are free. -/
theorem isFree_restrict (box : Box EReal n) (x g : Vec EReal n)
    (k : Fin (box.freeVariables x g).size) :
    (box.restrict (box.freeVariables x g)).IsFree ((box.freeVariables x g).gather x)
      ((box.freeVariables x g).gather g) k := by
  have member : (box.freeVariables x g).index k ∈ (box.freeVariables x g).toList :=
    Array.getElem_mem_toList _
  rw [IsFree, IndexSet.get_gather, IndexSet.get_gather]
  exact mem_freeVariables.1 member

/-- A free variable that the direction presses against its bound only makes the slope larger. -/
theorem dot_movable_le (free : ∀ i, box.IsFree (Vec.ofReal x) (Vec.ofReal w) i) (e : Fin n → ℝ) :
    w ⬝ᵥ box.movable x e ≤ w ⬝ᵥ e := by
  refine Finset.sum_le_sum fun i _ => ?_
  have free := free i
  rw [IsFree, IsBlocked, Vec.get_ofReal, Vec.get_ofReal, not_or, not_and, not_and, not_le,
    not_le, EReal.coe_neg', EReal.coe_pos] at free
  rw [movable]
  split
  · rename_i blocks
    rw [mul_zero]
    rcases blocks with ⟨down, on⟩ | ⟨up, on⟩
    · exact (mul_pos_of_neg_of_neg (free.1 on) down).le
    · exact (mul_pos (free.2 on) up).le
  · exact le_rfl

end Box

namespace ConjugateGradient

variable {radius tolerance : ℝ} {limit : Nat}

/-- What a call returns for the negative of a slope: nothing if there is none, else a direction of
descent that has cost an iteration. -/
structure Descends (w : Fin n → ℝ) (limit : Nat) (result : SubproblemResult) (e : Fin n → ℝ) :
    Prop where
  rests : w = 0 → e = 0
  descends : w ≠ 0 → 0 < result.iterations ∧ w ⬝ᵥ e < 0
  within_limit : result.iterations ≤ limit
  within_dimension : result.iterations ≤ n

/-- **Every call with a symmetric operator returns such a direction**, whatever earlier calls have left
behind. -/
theorem exists_descends (A : SymmetricOperator n) (w : Fin n → ℝ) (positive : 0 < radius)
    (tight : 0 ≤ tolerance) (allowed : 0 < limit) :
    ∃ result e, Descends w limit result e ∧
      ∀ (kept : (subsolver (α := EReal)).State) (out : Vec EReal n), ∃ later,
        (subsolver.solve kept (Vec.ofReal (-w)) radius tolerance limit out).eval
          (answeredBy (Vec.realMap A)) = some ((result, Vec.ofReal e), later) := by
  by_cases rests : w = 0
  · subst rests
    have returned : Returns A (-0) radius tolerance limit ⟨.converged, 0⟩ 0 0 := by
      rw [neg_zero]
      exact returns_zero A radius tolerance limit
    exact ⟨_, _, ⟨fun _ => rfl, fun moves => absurd rfl moves, Nat.zero_le _, Nat.zero_le _⟩,
      returned.eval⟩
  have moves : -w ≠ 0 := neg_ne_zero.2 rests
  obtain ⟨status, products, e, ends, returned⟩ := exists_returns A moves radius tolerance limit
  have tight' : 0 ≤ tolerance * √(-w ⬝ᵥ -w) := mul_nonneg tight (Real.sqrt_nonneg _)
  refine ⟨_, e, ⟨fun zero => absurd zero rests, fun _ => ⟨?_, ?_⟩, ends.products_le, ?_⟩,
    returned.eval⟩
  · cases ends with
    | limit => exact absurd allowed (lt_irrefl 0)
    | stop => exact Nat.one_pos
    | further => exact Nat.succ_pos _
  · obtain ⟨k, rfl⟩ := Nat.exists_eq_succ_of_ne_zero allowed.ne'
    obtain ⟨y, steepest, better⟩ := ends.exists_steepest tight' moves positive
    have climbs := steepest.climbs.trans_le better.further
    rwa [neg_dotProduct, neg_pos] at climbs
  · rcases le_total n limit with large | small
    · have counted := (ends.within_dimension tight' (Position.searches_start A moves positive)
        (by rwa [finrank_bot, zero_add])).2
      rwa [finrank_bot, zero_add] at counted
    · exact ends.products_le.trans small

end ConjugateGradient

/-! ## The refinement -/

/-- The data of a refinement with a symmetric Hessian, and the step that has led to the point that it starts
from. -/
structure SymmetricModel (n : Nat) extends RefinementData n where
  s : Fin n → ℝ
  hessian : SymmetricOperator n

namespace SymmetricModel

open RefinementData (State)

variable (m : SymmetricModel n)

/-- The Hessian as the operator that products are asked from. -/
noncomputable def operator : Vec EReal n → Vec EReal n := Vec.realMap m.hessian

theorem operator_actsBy : Vec.ActsBy m.operator m.hessian := Vec.realMap_ofReal m.hessian

/-- The state that the refinement starts from, with what the subsolver has kept. -/
noncomputable def start (kept : (ConjugateGradient.subsolver (α := EReal)).State) : State n where
  x := Vec.ofReal m.x
  s := Vec.ofReal m.s
  hs := Vec.ofReal (m.hessian m.s)
  iterations := 0
  subsolver := kept

theorem start_at (kept : (ConjugateGradient.subsolver (α := EReal)).State) :
    (m.start kept).At m.box m.hessian m.x m.s :=
  ⟨rfl, rfl, rfl, m.inside⟩

variable {m} {st st' : State n} {x s : Fin n → ℝ}

/-- **One pass.** From a state of exact arithmetic the subsolver returns and the search along its solution
ends. Where the slope vanishes, the step is zero. -/
theorem exists_search (here : st.At m.box m.hessian x s) :
    ∃ result e later found, ConjugateGradient.Descends (m.slope m.hessian st s) m.limit result e ∧
      (ConjugateGradient.subsolver.solve st.subsolver
        (-(m.refinement.freeVariables st).gather (m.refinement.modelGradient st))
        m.refinement.radius m.refinement.tolerance m.refinement.limit (Vec.zeros _)).eval
          (answeredBy ((m.refinement.freeVariables st).compress m.operator)) =
            some ((result, Vec.ofReal e), later) ∧
      (∃ enough, ∀ fuel, enough ≤ fuel →
        ((m.refinement.search ConjugateGradient.subsolver st (Vec.ofReal e)).find fuel
          (Vec.zeros _)).eval (answeredBy ((m.refinement.freeVariables st).compress m.operator)) =
            some found) ∧
      (m.slope m.hessian st s = 0 → found.step = Vec.ofReal 0) := by
  have distinct := m.refinement.freeVariables_distinct st
  have compressed : (m.refinement.freeVariables st).compress m.operator =
      Vec.realMap (m.hessian.compress (m.refinement.freeVariables st)) :=
    IndexSet.compress_realMap distinct m.hessian
  have acts := Vec.realMap_ofReal (m.hessian.compress (m.refinement.freeVariables st))
  have inside := Box.contains_restrict here.inside (m.refinement.freeVariables st)
  obtain ⟨result, e, descends, solved⟩ := ConjugateGradient.exists_descends
    (m.hessian.compress (m.refinement.freeVariables st)) (m.slope m.hessian st s) m.radius_pos
    m.tolerance_pos.le m.limit_pos
  obtain ⟨later, solved⟩ := solved st.subsolver (Vec.zeros _)
  rw [← Vec.ofReal_neg, ← RefinementData.gather_gradient here, ← compressed] at solved
  by_cases rests : m.slope m.hessian st s = 0
  · obtain rfl := descends.rests rests
    have decreases : (m.box.restrict (m.refinement.freeVariables st)).Decreases
        (x ∘ (m.refinement.freeVariables st).index) 0 (m.slope m.hessian st s)
        (m.hessian.compress (m.refinement.freeVariables st)) m.mu0 1 := by
      rw [Box.decreases_iff, Box.path_zero inside]
      simp
    have found : ∀ fuel, 0 < fuel → _ := fun _ enough =>
      ProjectedSearch.find_of_decreases inside acts decreases enough
    rw [← RefinementData.search_ofReal here, ← compressed, Box.path_zero inside] at found
    exact ⟨result, 0, later, _, descends, solved, ⟨1, fun fuel more => found fuel more _⟩,
      fun _ => rfl⟩
  · have free : ∀ k, (m.box.restrict (m.refinement.freeVariables st)).IsFree
        (Vec.ofReal (x ∘ (m.refinement.freeVariables st).index)) (Vec.ofReal (m.slope m.hessian st s)) k := by
      intro k
      rw [← RefinementData.gather_gradient here, ← IndexSet.gather_ofReal, ← here.point]
      exact Box.isFree_restrict _ _ _ k
    have less := (Box.dot_movable_le free e).trans_lt (descends.descends rests).2
    obtain ⟨a, -, -, -, enough, found⟩ := ProjectedSearch.find_of_halts inside acts
      (ProjectedSearch.exists_halts (m.hessian.compress (m.refinement.freeVariables st)).map inside acts
        (m.mu0_lt.trans (by norm_num)) less)
    rw [← RefinementData.search_ofReal here, ← compressed] at found
    exact ⟨result, e, later, _, descends, solved, ⟨enough, fun fuel more => found fuel more _⟩,
      fun zero => absurd zero rests⟩

/-- So there is a pass from every state of exact arithmetic. -/
theorem exists_countedPass (here : st.At m.box m.hessian x s) :
    ∃ result d found st', m.refinement.CountedPass ConjugateGradient.subsolver m.operator st result d
      found st' := by
  obtain ⟨result, e, later, found, -, solved, ⟨enough, searched⟩, -⟩ := exists_search here
  exact ⟨result, Vec.ofReal e, found,
    { x := (m.refinement.freeVariables st).scatter found.point st.x
      s := (m.refinement.freeVariables st).accumulate found.step st.s
      hs := m.operator ((m.refinement.freeVariables st).accumulate found.step st.s)
      iterations := st.iterations + result.iterations
      subsolver := later },
    ⟨⟨_, _, solved⟩, ⟨enough, searched enough le_rfl⟩, rfl, rfl, rfl⟩, solved, rfl⟩

section Pass

variable {result : SubproblemResult} {d : Vec EReal (m.refinement.freeVariables st).size}
  {found : SearchResult EReal (m.refinement.freeVariables st).size}

/-- A pass leads to a state of exact arithmetic. -/
theorem exists_at (here : st.At m.box m.hessian x s)
    (pass : m.refinement.CountedPass ConjugateGradient.subsolver m.operator st result d found st') :
    ∃ x' s', st'.At m.box m.hessian x' s' := by
  obtain ⟨_, p, -, -, moved⟩ := Refinement.Pass.moves m.operator_actsBy rfl
    (ConjugateGradient.subsolver_returnsReal m.radius m.tolerance m.limit) here pass.toPass
  exact ⟨_, _, moved⟩

/-- The subsolver keeps to its limit, and to the number of variables. -/
theorem iterations_le (here : st.At m.box m.hessian x s)
    (pass : m.refinement.CountedPass ConjugateGradient.subsolver m.operator st result d found st') :
    result.iterations ≤ min m.limit n := by
  obtain ⟨result', e, later, found', descends, solved, -, -⟩ := exists_search here
  have distinct := m.refinement.freeVariables_distinct st
  have reported := solved.symm.trans pass.reported
  simp only [Option.some.injEq, Prod.mk.injEq] at reported
  rw [← reported.1.1]
  exact le_min descends.within_limit (descends.within_dimension.trans (IndexSet.size_le distinct))

/-- **A pass without an iteration is the last one**: it finds nothing to descend, leaves everything as it
is and reports a stationary point. -/
theorem verdict_of_rests (here : st.At m.box m.hessian x s)
    (pass : m.refinement.CountedPass ConjugateGradient.subsolver m.operator st result d found st')
    (rests : result.iterations = 0) :
    m.refinement.verdict (m.refinement.norms ConjugateGradient.subsolver st st') result
      st'.iterations = some .stationaryPoint := by
  obtain ⟨result', e, later, found', descends, solved, ⟨enough, searched⟩, still⟩ :=
    exists_search here
  have reported := solved.symm.trans pass.reported
  simp only [Option.some.injEq, Prod.mk.injEq] at reported
  obtain ⟨⟨rfl, rfl⟩, -⟩ := reported
  have flat : m.slope m.hessian st s = 0 := by
    by_contra moves
    exact (descends.descends moves).1.ne' rests
  obtain ⟨fuel, went⟩ := pass.searched
  have ended := ProjectedSearch.find_mono went (le_max_left fuel enough)
  rw [searched _ (le_max_right fuel enough)] at ended
  obtain rfl := Option.some.inj ended
  have distinct := m.refinement.freeVariables_distinct st
  have step : st'.s = Vec.ofReal s := by
    rw [pass.s, still flat, here.step, IndexSet.accumulate_ofReal distinct, map_zero, add_zero]
  have same : m.refinement.modelGradient st' = m.refinement.modelGradient st := by
    rw [Refinement.modelGradient, pass.hs, step, SymmetricModel.operator, Vec.realMap_ofReal,
      ← here.image]
    rfl
  have vanishes : ((m.refinement.freeVariables st).gather (m.refinement.modelGradient st)).norm =
      0 := by
    rw [RefinementData.gather_gradient here, flat, Vec.norm_ofReal, dotProduct_zero, Real.sqrt_zero]
    rfl
  rw [Refinement.verdict, Refinement.norms, same, vanishes, mul_zero, if_pos le_rfl]

/-- So a pass that does not end the refinement has made an iteration. -/
theorem iterations_lt (here : st.At m.box m.hessian x s)
    (pass : m.refinement.CountedPass ConjugateGradient.subsolver m.operator st result d found st')
    (goes : m.refinement.verdict (m.refinement.norms ConjugateGradient.subsolver st st') result
      st'.iterations = none) : st.iterations < st'.iterations := by
  rw [pass.counted]
  refine Nat.lt_add_of_pos_right (Nat.pos_of_ne_zero fun rests => ?_)
  rw [verdict_of_rests here pass rests] at goes
  cases goes

end Pass

/-! ## Termination -/

/-- From a state with iterations left, there are at most as many passes as there are iterations left, for a
pass that goes on uses up one of them at least. -/
theorem exists_ends : ∀ (left : Nat) (st : State n) {x s : Fin n → ℝ},
    st.At m.box m.hessian x s → st.iterations < m.limit → m.limit ≤ st.iterations + left →
      ∃ passes status out, passes ≤ left ∧
        m.refinement.Ends ConjugateGradient.subsolver m.operator passes st status out ∧
        out.iterations ≤ m.limit - 1 + min m.limit n := by
  intro left
  induction left with
  | zero => exact fun st _ _ _ below within => absurd below within.not_gt
  | succ left ih =>
      intro st x s here below within
      cases empty : (m.refinement.freeVariables st).isEmpty with
      | true => exact ⟨0, _, st, Nat.zero_le _, .nothingFree empty, by omega⟩
      | false =>
          obtain ⟨result, d, found, st', pass⟩ := exists_countedPass here
          have counted := pass.counted
          have limited := iterations_le here pass
          cases reason : m.refinement.verdict
              (m.refinement.norms ConjugateGradient.subsolver st st') result st'.iterations with
          | some status =>
              exact ⟨1, status, st', by omega, .stops empty pass reason, by omega⟩
          | none =>
              have grows := iterations_lt here pass reason
              obtain ⟨x', s', there⟩ := exists_at here pass
              obtain ⟨passes, status, out, few, ends, bound⟩ :=
                ih st' there (Refinement.lt_limit_of_verdict reason) (by omega)
              exact ⟨passes + 1, status, out, by omega, .further empty pass reason ends, bound⟩

/-- **The refinement terminates.** It ends after at most as many passes as the limit allows iterations, with
a bound on its count, and the run returns this end. From every state on the way there is a pass, whose
search ends; if the subsolver has made no iteration in it, it reports a stationary point, and if it goes
on, the count has grown. -/
theorem run_finishes (m : SymmetricModel n)
    (kept : (ConjugateGradient.subsolver (α := EReal)).State) :
    (∃ passes status out, passes ≤ m.limit ∧
      m.refinement.Ends ConjugateGradient.subsolver m.operator passes (m.start kept) status out ∧
      out.iterations ≤ m.limit - 1 + min m.limit n ∧
      (Storage.FitsWord out.iterations → ∃ enough, ∀ fuel, enough ≤ fuel →
        (m.refinement.run ConjugateGradient.subsolver fuel (m.start kept)).eval
          (answeredBy m.operator) = some (status, out))) ∧
    ∀ st, m.refinement.Reaches ConjugateGradient.subsolver m.operator (m.start kept) st →
      (∃ result d found st', m.refinement.CountedPass ConjugateGradient.subsolver m.operator st result
        d found st') ∧
      ∀ result d found st',
        m.refinement.CountedPass ConjugateGradient.subsolver m.operator st result d found st' →
          (∃ enough, ∀ fuel, enough ≤ fuel →
            ((m.refinement.search ConjugateGradient.subsolver st d).find fuel (Vec.zeros _)).eval
              (answeredBy ((m.refinement.freeVariables st).compress m.operator)) = some found) ∧
          (result.iterations = 0 →
            m.refinement.verdict (m.refinement.norms ConjugateGradient.subsolver st st') result
              st'.iterations = some .stationaryPoint) ∧
          (m.refinement.verdict (m.refinement.norms ConjugateGradient.subsolver st st') result
            st'.iterations = none → st.iterations < st'.iterations) := by
  constructor
  · obtain ⟨passes, status, out, few, ends, bound⟩ :=
      exists_ends m.limit (m.start kept) (m.start_at kept) m.limit_pos (Nat.le_add_left _ _)
    exact ⟨passes, status, out, few, ends, bound, ends.eval_run⟩
  · intro st reaches
    obtain ⟨x, s, here⟩ :=
      RefinementData.exists_at_of_reaches m.operator_actsBy (m.start_at kept) reaches
    refine ⟨exists_countedPass here, ?_⟩
    intro result d found st' pass
    obtain ⟨enough, searched⟩ := pass.searched
    exact ⟨⟨enough, fun fuel more => ProjectedSearch.find_mono searched more⟩,
      verdict_of_rests here pass, iterations_lt here pass⟩

/-! ### A saddle -/

/-- The model with the operator that exchanges two variables, in a box without bounds. -/
noncomputable def saddle : SymmetricModel 2 where
  box := .unbounded 2
  x := 0
  inside := Box.contains_unbounded _
  s := 0
  g := fun _ => 1
  hessian := ConjugateGradient.exchange
  radius := 1
  radius_pos := Real.zero_lt_one
  mu0 := 0.25
  mu0_pos := by norm_num
  mu0_lt := by norm_num
  tolerance := 0.5
  tolerance_pos := by norm_num
  tolerance_lt := by norm_num
  limit := 2
  limit_pos := Nat.two_pos

/-- There the count fits, so the refinement returns. -/
theorem run_finishes_saddle :
    ∃ passes status out enough, passes ≤ 2 ∧
      saddle.refinement.Ends ConjugateGradient.subsolver saddle.operator passes
        (saddle.start ConjugateGradient.subsolver.initial) status out ∧
      ∀ fuel, enough ≤ fuel →
        (saddle.refinement.run ConjugateGradient.subsolver fuel
          (saddle.start ConjugateGradient.subsolver.initial)).eval (answeredBy saddle.operator) =
            some (status, out) := by
  obtain ⟨passes, status, out, few, ends, bound, returns⟩ :=
    (saddle.run_finishes ConjugateGradient.subsolver.initial).1
  have fits : Storage.FitsWord out.iterations := bound.trans_lt (by decide)
  obtain ⟨enough, went⟩ := returns fits
  exact ⟨passes, status, out, enough, few, ends, went⟩

end SymmetricModel

end BoxNewton
