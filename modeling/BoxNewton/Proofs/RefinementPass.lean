import Mathlib
import BoxNewton.Proofs.Evaluation
import BoxNewton.Proofs.ExactNumbers
import BoxNewton.Refinement

/-!
# Passes of a refinement

What a refinement with a fixed operator goes through. A pass is described by the solution of its
subproblem, by where the search along it ended and by the state it leads to (`Refinement.Pass`), and
further by what the subsolver reported and what was counted (`Refinement.CountedPass`). After each pass
there is a reason to stop or there is none (`Refinement.verdict`), so that a run goes from state to state by
passes and ends after some number of them (`Refinement.Ends`).

Both directions hold. What a run comes to is where passes end (`Refinement.ends_of_run`), and where passes
end is what the run comes to with fuel enough, as long as the count fits in its word
(`Refinement.Ends.eval_run`). Where nothing is free there is no pass at all
(`Refinement.eval_run_of_isEmpty`).
-/

set_option autoImplicit false

namespace BoxNewton

/-- If the only variable is not free, none is. -/
theorem Box.isEmpty_freeVariables {α : Type} [Scalar α] {box : Box α 1} {x g : Vec α 1}
    (blocked : ¬ box.IsFree x g 0) : (box.freeVariables x g).isEmpty = true := by
  have one : List.finRange 1 = [0] := rfl
  simp [freeVariables, one, blocked, IndexSet.ofList, IndexSet.isEmpty]

/-! ## Fuel

A search that has come to an end comes to the same one with more fuel. -/

namespace ProjectedSearch

variable {α : Type} [Scalar α] {n : Nat} {search : ProjectedSearch α n} {A : Vec α n → Vec α n}

theorem backtrack_mono : ∀ {fuel fuel' : Nat} {length : α} {hs : Vec α n} {reached : α},
    (search.backtrack fuel length hs).eval (answeredBy A) = some reached → fuel ≤ fuel' →
      (search.backtrack fuel' length hs).eval (answeredBy A) = some reached := by
  intro fuel
  induction fuel with
  | zero => exact fun went _ => by cases went
  | succ fuel ih =>
      intro fuel' length hs reached went more
      obtain ⟨fuel', rfl⟩ := Nat.exists_eq_add_of_le' (Nat.le_of_add_left_le more)
      unfold backtrack at went ⊢
      split
      · rename_i above
        simp only [if_pos above, ModelValue.measure, Dialogue.eval_bind, eval_request,
          Option.bind_some, Dialogue.eval_pure] at went ⊢
        split
        · rename_i holds
          rwa [if_pos holds] at went
        · rename_i fails
          rw [if_neg fails] at went
          exact ih went (Nat.le_of_succ_le_succ more)
      · rename_i notAbove
        rwa [if_neg notAbove] at went

theorem find_mono {fuel fuel' : Nat} {hs : Vec α n} {found : SearchResult α n}
    (went : (search.find fuel hs).eval (answeredBy A) = some found) (more : fuel ≤ fuel') :
    (search.find fuel' hs).eval (answeredBy A) = some found := by
  unfold find at went ⊢
  rw [Dialogue.eval_bind, Option.bind_eq_some_iff] at went ⊢
  obtain ⟨reached, walked, rest⟩ := went
  exact ⟨reached, backtrack_mono walked more, rest⟩

end ProjectedSearch

/-! ## One pass -/

namespace Refinement

section Terms

variable {α : Type} [Scalar α] {n : Nat} (r : Refinement α n) (S : Subsolver α)
  (A : Vec α n → Vec α n)

theorem freeVariables_distinct {σ : Type} (st : State α n σ) : (r.freeVariables st).Distinct :=
  Box.freeVariables_distinct r.box st.x (r.modelGradient st)

/-- The search of a pass along a direction. -/
def search (st : State α n S.State) (d : Vec α (r.freeVariables st).size) :
    ProjectedSearch α (r.freeVariables st).size where
  box := r.box.restrict (r.freeVariables st)
  x := (r.freeVariables st).gather st.x
  d
  g := (r.freeVariables st).gather (r.modelGradient st)
  mu0 := r.mu0

/-- One pass with a fixed operator: from a state, along a solution of the subproblem, to the end of a
search and the next state. -/
structure Pass (st : State α n S.State) (d : Vec α (r.freeVariables st).size)
    (found : SearchResult α (r.freeVariables st).size) (st' : State α n S.State) : Prop where
  solved : ∃ result state,
    (S.solve st.subsolver (-(r.freeVariables st).gather (r.modelGradient st)) r.radius r.tolerance
      r.limit (Vec.zeros _)).eval (answeredBy ((r.freeVariables st).compress A)) =
        some ((result, d), state)
  searched : ∃ fuel, ((r.search S st d).find fuel (Vec.zeros _)).eval
    (answeredBy ((r.freeVariables st).compress A)) = some found
  x : st'.x = (r.freeVariables st).scatter found.point st.x
  s : st'.s = (r.freeVariables st).accumulate found.step st.s
  hs : st'.hs = A st'.s

/-- One pass, with what the subsolver reports and what the refinement counts. -/
structure CountedPass (st : State α n S.State) (result : SubproblemResult)
    (d : Vec α (r.freeVariables st).size) (found : SearchResult α (r.freeVariables st).size)
    (st' : State α n S.State) : Prop extends r.Pass S A st d found st' where
  reported : (S.solve st.subsolver (-(r.freeVariables st).gather (r.modelGradient st)) r.radius
    r.tolerance r.limit (Vec.zeros _)).eval (answeredBy ((r.freeVariables st).compress A)) =
      some ((result, d), st'.subsolver)
  counted : st'.iterations = st.iterations + result.iterations

/-- The norms of the gradient of the model in the free variables, before and after a pass. -/
def norms (st st' : State α n S.State) : α × α :=
  (((r.freeVariables st).gather (r.modelGradient st)).norm,
    ((r.freeVariables st).gather (r.modelGradient st')).norm)

/-- The reason to stop after a pass, if there is one. -/
def verdict (norms : α × α) (result : SubproblemResult) (iterations : Nat) :
    Option RefinementStatus :=
  if norms.2 ≤ r.tolerance * norms.1 then some .stationaryPoint
  else if result.status = .onBoundary then some .onBoundary
  else if r.limit ≤ iterations then some .maxIterations
  else none

/-- Where the passes from a state end, with their number. -/
inductive Ends : Nat → State α n S.State → RefinementStatus → State α n S.State → Prop where
  /-- There is no pass where nothing is free. -/
  | nothingFree {st : State α n S.State} (empty : (r.freeVariables st).isEmpty = true) :
      Ends 0 st .stationaryPoint st
  | stops {st st' : State α n S.State} {result : SubproblemResult}
      {d : Vec α (r.freeVariables st).size} {found : SearchResult α (r.freeVariables st).size}
      {status : RefinementStatus} (nonempty : (r.freeVariables st).isEmpty = false)
      (pass : r.CountedPass S A st result d found st')
      (reason : r.verdict (r.norms S st st') result st'.iterations = some status) :
      Ends 1 st status st'
  | further {passes : Nat} {st st' out : State α n S.State} {result : SubproblemResult}
      {d : Vec α (r.freeVariables st).size} {found : SearchResult α (r.freeVariables st).size}
      {status : RefinementStatus} (nonempty : (r.freeVariables st).isEmpty = false)
      (pass : r.CountedPass S A st result d found st')
      (none : r.verdict (r.norms S st st') result st'.iterations = none)
      (rest : Ends passes st' status out) : Ends (passes + 1) st status out

/-- The states that the passes of a refinement go through. -/
def Reaches : State α n S.State → State α n S.State → Prop :=
  Relation.ReflTransGen fun st st' => ∃ d found, r.Pass S A st d found st'

variable {r S A}

/-- A quantity that has risen between two states has risen in one of the passes between them. -/
theorem Reaches.value_le_or_rises {st out : State α n S.State} (reaches : r.Reaches S A st out)
    {β : Type} [LinearOrder β] (value : State α n S.State → β) :
    value out ≤ value st ∨ ∃ st₁ d found st₂, r.Reaches S A st st₁ ∧ r.Pass S A st₁ d found st₂ ∧
      r.Reaches S A st₂ out ∧ value st₁ < value st₂ := by
  induction reaches with
  | refl => exact .inl le_rfl
  | @tail mid out reaches last ih =>
      rcases ih with low | ⟨st₁, d₁, found₁, st₂, before, pass, after, rises⟩
      · obtain ⟨d, found, pass⟩ := last
        rcases le_or_gt (value out) (value mid) with lower | higher
        · exact .inl (lower.trans low)
        · exact .inr ⟨mid, d, found, out, reaches, pass, .refl, higher⟩
      · exact .inr ⟨st₁, d₁, found₁, st₂, before, pass, after.tail last, rises⟩

/-! ## What a pass comes to -/

/-- What a pass does, what it reports and what it counts. With the compressed operator the solution and the
search come out of the same dialogue. -/
theorem countedPass_of_eval {fuel : Nat} {st st' : State α n S.State} {result : SubproblemResult}
    {norms : α × α}
    (went : (r.pass S fuel st (r.freeVariables st)).eval (answeredBy A) =
      some (st', result, norms)) :
    (∃ d found, r.CountedPass S A st result d found st') ∧ norms = r.norms S st st' := by
  simp only [pass, Dialogue.eval_bind, eval_request, Dialogue.eval_remark, Dialogue.eval_pure,
    Option.bind_some, Option.bind_eq_some_iff, Option.some.injEq, Prod.mk.injEq] at went
  obtain ⟨⟨⟨⟨result, state⟩, found⟩, full⟩, directed, iterations, added, rfl, rfl, rfl⟩ := went
  have direct := congrArg (Option.map Prod.fst) directed
  rw [eval_restricted] at direct
  simp only [Refinement.direct, Dialogue.eval_bind, Dialogue.eval_pure, Option.map_some,
    Option.bind_eq_some_iff, Option.some.injEq] at direct
  obtain ⟨⟨⟨result', d⟩, state'⟩, solved, found', searched, same⟩ := direct
  cases same
  refine ⟨⟨d, found, ⟨⟨_, _, solved⟩, ⟨fuel, searched⟩, rfl, rfl, rfl⟩, solved, ?_⟩, rfl⟩
  exact Dialogue.eq_of_eval_addCount added

/-- What the solution of the subproblem and the search along it come to determines the pass. -/
theorem eval_pass {fuel : Nat} {st : State α n S.State} {free : IndexSet (Fin n)}
    {result : SubproblemResult} {d : Vec α free.size} {state : S.State}
    {found : SearchResult α free.size}
    (solved : (S.solve st.subsolver (-free.gather (r.modelGradient st)) r.radius r.tolerance r.limit
      (Vec.zeros _)).eval (answeredBy (free.compress A)) = some ((result, d), state))
    (searched : (ProjectedSearch.find
      { box := r.box.restrict free, x := free.gather st.x, d
        g := free.gather (r.modelGradient st), mu0 := r.mu0 } fuel (Vec.zeros _)).eval
          (answeredBy (free.compress A)) = some found)
    (fits : Storage.FitsWord (st.iterations + result.iterations)) :
    (r.pass S fuel st free).eval (answeredBy A) = some
      ({ x := free.scatter found.point st.x, s := free.accumulate found.step st.s
         hs := A (free.accumulate found.step st.s), iterations := st.iterations + result.iterations
         subsolver := state }, result, (free.gather (r.modelGradient st)).norm,
        (free.gather (r.g + A (free.accumulate found.step st.s))).norm) := by
  have direct : (r.direct S fuel st free).eval (answeredBy (free.compress A)) =
      some ((result, state), found) := by
    simp only [Refinement.direct, Dialogue.eval_bind, solved, Option.bind_some, searched,
      Dialogue.eval_pure]
  rw [← eval_restricted free A _ (Vec.zeros n), Option.map_eq_some_iff] at direct
  obtain ⟨⟨_, full⟩, directed, rfl⟩ := direct
  simp only [pass, Dialogue.eval_bind, directed, Dialogue.eval_addCount fits, eval_request,
    Dialogue.eval_remark, Dialogue.eval_pure, Option.bind_some]
  rfl

/-- A pass is carried out by any search that has fuel enough for it. -/
theorem CountedPass.eval_pass {st st' : State α n S.State} {result : SubproblemResult}
    {d : Vec α (r.freeVariables st).size} {found : SearchResult α (r.freeVariables st).size}
    (pass : r.CountedPass S A st result d found st') (fits : Storage.FitsWord st'.iterations) :
    ∃ enough, ∀ fuel, enough ≤ fuel →
      (r.pass S fuel st (r.freeVariables st)).eval (answeredBy A) =
        some (st', result, r.norms S st st') := by
  obtain ⟨⟨-, ⟨enough, searched⟩, movedX, movedS, movedHs⟩, reported, counted⟩ := pass
  rw [counted] at fits
  refine ⟨enough, fun fuel more => ?_⟩
  rw [Refinement.eval_pass reported (ProjectedSearch.find_mono searched more) fits]
  obtain ⟨x, s, hs, iterations, subsolver⟩ := st'
  dsimp only at movedX movedS movedHs counted
  subst movedX movedS movedHs counted
  rfl

/-! ## Runs -/

/-- One pass of a run: it stops for a reason, or it goes on. -/
theorem eval_run_succ {fuel : Nat} {st st' : State α n S.State} {result : SubproblemResult}
    {norms : α × α}
    (passed : (r.pass S fuel st (r.freeVariables st)).eval (answeredBy A) =
      some (st', result, norms))
    (nonempty : (r.freeVariables st).isEmpty = false) :
    (r.run S (fuel + 1) st).eval (answeredBy A) =
      (r.verdict norms result st'.iterations).elim ((r.run S fuel st').eval (answeredBy A))
        fun status => some (status, st') := by
  rw [run, verdict]
  dsimp only
  rw [nonempty, if_neg Bool.false_ne_true, Dialogue.eval_bind, passed, Option.bind_some]
  dsimp only
  split
  · rfl
  · split
    · rfl
    · split <;> rfl

/-- A run from a state without free variables ends there. -/
theorem eval_run_of_isEmpty (fuel : Nat) {st : State α n S.State}
    (nothing : (r.freeVariables st).isEmpty = true) :
    (r.run S (fuel + 1) st).eval (answeredBy A) = some (.stationaryPoint, st) := by
  unfold run
  dsimp only
  rw [if_pos nothing, Dialogue.eval_bind, Dialogue.eval_remark]
  rfl

/-- Without iterations left there is a reason to stop. -/
theorem exists_verdict (norms : α × α) (result : SubproblemResult) {iterations : Nat}
    (used : r.limit ≤ iterations) : ∃ status, r.verdict norms result iterations = some status := by
  rw [verdict, if_pos used]
  split
  · exact ⟨_, rfl⟩
  · split <;> exact ⟨_, rfl⟩

/-- A run goes on only while iterations are left. -/
theorem lt_limit_of_verdict {norms : α × α} {result : SubproblemResult} {iterations : Nat}
    (goes : r.verdict norms result iterations = none) : iterations < r.limit := by
  unfold verdict at goes
  split at goes
  · cases goes
  · split at goes
    · cases goes
    · split at goes
      · cases goes
      · rename_i below
        exact not_le.1 below

/-- A run whose first pass uses up the iterations of the subsolver ends after it. -/
theorem eval_run_of_pass {fuel : Nat} {st st' : State α n S.State} {result : SubproblemResult}
    {norms : α × α}
    (passed : (r.pass S fuel st (r.freeVariables st)).eval (answeredBy A) =
      some (st', result, norms))
    (nonempty : (r.freeVariables st).isEmpty = false) (used : r.limit ≤ st'.iterations) :
    ∃ status, (r.run S (fuel + 1) st).eval (answeredBy A) = some (status, st') := by
  obtain ⟨status, reason⟩ := exists_verdict norms result used
  refine ⟨status, ?_⟩
  rw [eval_run_succ passed nonempty, reason]
  rfl

/-- What a run comes to is where passes end. -/
theorem ends_of_run : ∀ (fuel : Nat) (st : State α n S.State) {status : RefinementStatus}
    {out : State α n S.State}, (r.run S fuel st).eval (answeredBy A) = some (status, out) →
      ∃ passes, r.Ends S A passes st status out := by
  intro fuel
  induction fuel with
  | zero => exact fun _ _ _ went => by cases went
  | succ fuel ih =>
      intro st status out went
      cases empty : (r.freeVariables st).isEmpty with
      | true =>
          rw [eval_run_of_isEmpty fuel empty] at went
          cases went
          exact ⟨0, .nothingFree empty⟩
      | false =>
          cases passed : (r.pass S fuel st (r.freeVariables st)).eval (answeredBy A) with
          | none =>
              unfold run at went
              simp [empty, passed] at went
          | some outcome =>
              obtain ⟨st', result, norms⟩ := outcome
              obtain ⟨⟨d, found, pass⟩, rfl⟩ := countedPass_of_eval passed
              rw [eval_run_succ passed empty] at went
              cases reason : r.verdict (r.norms S st st') result st'.iterations with
              | some status' =>
                  rw [reason] at went
                  cases went
                  exact ⟨1, .stops empty pass reason⟩
              | none =>
                  rw [reason] at went
                  obtain ⟨passes, rest⟩ := ih st' went
                  exact ⟨passes + 1, .further empty pass reason rest⟩

/-- Counts only grow. -/
theorem Ends.iterations_le {passes : Nat} {st out : State α n S.State} {status : RefinementStatus}
    (ends : r.Ends S A passes st status out) : st.iterations ≤ out.iterations := by
  induction ends with
  | nothingFree => exact le_rfl
  | stops _ pass => exact pass.counted ▸ Nat.le_add_right _ _
  | further _ pass _ _ ih => exact (pass.counted ▸ Nat.le_add_right _ _ : _).trans ih

/-- Where passes end is what a run comes to, once it has fuel enough and if a word has room for the
count. -/
theorem Ends.eval_run {passes : Nat} {st out : State α n S.State} {status : RefinementStatus}
    (ends : r.Ends S A passes st status out) (fits : Storage.FitsWord out.iterations) :
    ∃ enough, ∀ fuel, enough ≤ fuel →
      (r.run S fuel st).eval (answeredBy A) = some (status, out) := by
  induction ends with
  | nothingFree empty =>
      refine ⟨1, fun fuel more => ?_⟩
      obtain ⟨fuel, rfl⟩ := Nat.exists_eq_add_of_le' more
      exact eval_run_of_isEmpty fuel empty
  | stops nonempty pass reason =>
      obtain ⟨enough, passed⟩ := pass.eval_pass fits
      refine ⟨enough + 1, fun fuel more => ?_⟩
      obtain ⟨fuel, rfl⟩ := Nat.exists_eq_add_of_le' (Nat.le_of_add_left_le more)
      rw [eval_run_succ (passed fuel (Nat.le_of_succ_le_succ more)) nonempty, reason]
      rfl
  | further nonempty pass reason rest ih =>
      obtain ⟨enough, passed⟩ := pass.eval_pass (rest.iterations_le.trans_lt fits)
      obtain ⟨later, went⟩ := ih fits
      refine ⟨max enough later + 1, fun fuel more => ?_⟩
      obtain ⟨fuel, rfl⟩ := Nat.exists_eq_add_of_le' (Nat.le_of_add_left_le more)
      have within := Nat.le_of_succ_le_succ more
      rw [eval_run_succ (passed fuel ((le_max_left _ _).trans within)) nonempty, reason]
      exact went fuel ((le_max_right _ _).trans within)

/-- A refinement goes through passes. -/
theorem Ends.reaches {passes : Nat} {st out : State α n S.State} {status : RefinementStatus}
    (ends : r.Ends S A passes st status out) : r.Reaches S A st out := by
  induction ends with
  | nothingFree => exact .refl
  | stops _ pass => exact .single ⟨_, _, pass.toPass⟩
  | further _ pass _ _ ih => exact .head ⟨_, _, pass.toPass⟩ ih

theorem reaches_of_run (fuel : Nat) (st : State α n S.State)
    {out : RefinementStatus × State α n S.State}
    (went : (r.run S fuel st).eval (answeredBy A) = some out) : r.Reaches S A st out.2 := by
  obtain ⟨passes, ends⟩ := ends_of_run fuel st went
  exact ends.reaches

end Terms

end Refinement

end BoxNewton
