import Mathlib
import BoxNewton.Proofs.Counterparts
import BoxNewton.Proofs.CurrentPoint
import BoxNewton.Proofs.EvaluationLog

/-!
# Values and gradients together or apart

A minimization may ask for values and gradients together or apart. Then the gradient at a trial point comes
at another time and is kept in another place, and it may not be asked for at all. If the objective answers
by two functions `f` and `f'` whichever way it is asked, this makes no difference: the same is seen of both
minimizations but for the number of gradients, and where they are asked for together, this is the number
of values (`Solver.solve_together`).

For the comparison the questions for values and gradients are private, because the answers to them are
known. Between the evaluation at a trial point and the decision about the step, the second minimization has
the gradient there in its buffer; this is all that has to be known of the buffers.
-/

set_option autoImplicit false

namespace BoxNewton

open Dialogue (Comparison Alike alike_pure)

variable {α : Type} [Scalar α] {S : Subsolver α} {n : Nat}

/-- The report without the number of gradients. -/
def Report.ungraded {α : Type} (report : Report α) : Report α :=
  { report with evaluations.gradient := 0 }

namespace Query

/-- The comparison in which the answers for values and gradients are known. The number of gradients is not
seen, and neither is the vector that a product replaces. -/
def knowing (f : Vec α n → α) (f' : Vec α n → Vec α n) :
    Comparison (Query α n) Query.Reply (Query α n) where
  view q := match q with
    | .product x v _ => some (.product x v (Vec.zeros n))
    | .observe x g report => some (.observe x g report.ungraded)
    | .outOfTime limit => some (.outOfTime limit)
    | _ => none
  known q a := match q, a with
    | .value x, fx => fx = f x
    | .gradient x _, g => g = f' x
    | .valueGradient x _, both => both = (f x, f' x)
    | _, _ => True

end Query

/-- The second minimization has the gradient at the trial point in its buffer. -/
def Kinship.known (S : Subsolver α) (f' : Vec α n → Vec α n) : Kinship α S n where
  counts _ _ := True
  kin := Eq
  fetched y _ g := g = f' y

/-- **Whether gradients come with values does not matter to what is seen.** -/
theorem interplay_together (S : Subsolver α) (options : Options α) (f : Vec α n → α)
    (f' : Vec α n → Vec α n) :
    Interplay (Query.knowing f f') (Kinship.known S f') (options.asking false) true where
  product x v out out' := ⟨_, rfl, rfl⟩
  clock limit := ⟨_, rfl, rfl⟩
  shown x g report gradients _ := ⟨_, rfl, rfl⟩
  respects := S.respects_eq
  counted := trivial
  start x out out' := by
    refine .left _ rfl ?_
    rintro fx rfl
    refine .left _ rfl ?_
    rintro g rfl
    refine .right _ rfl ?_
    rintro both rfl
    exact .done rfl
  evaluate st p p' y sets related := by
    obtain ⟨u, rfl, -, kin⟩ := related
    unfold Setting.evaluate
    rw [sets]
    refine .left _ rfl ?_
    rintro fx rfl
    refine .right _ rfl ?_
    rintro both rfl
    let v : Unshared α S n := { u with gradients := u.gradients + 1, buffers.combined := f' y }
    exact .done ⟨rfl, ⟨v, rfl, trivial, kin⟩, rfl⟩
  atTrial st y b b' asked asked' sets given _ := by
    unfold Setting.gradientAtTrial
    rw [sets]
    refine .left _ rfl ?_
    rintro g rfl
    exact .done ⟨given.symm, trivial⟩
  accepted st p p' y judged sets related given := by
    unfold Setting.acceptedGradient
    cases judged with
    | some g => exact .done ⟨rfl, related⟩
    | none =>
        rw [sets]
        refine .left _ rfl ?_
        rintro g rfl
        obtain ⟨u, rfl, -, kin⟩ := related
        exact .done ⟨given.symm, u, rfl, trivial, kin⟩

/-! ## Worlds -/

/-- The product of the Hessian does not depend on the vector that it replaces. -/
def Objective.OverwritesProducts (o : Objective α) (n : Nat) : Prop :=
  ∀ x v out out' : Vec α n,
    o.product x.toArray v.toArray out.toArray = o.product x.toArray v.toArray out'.toArray

/-- The observer does not look at the number of gradients. -/
def Observer.IgnoresGradients {ω : Type} (observer : Observer α ω) : Prop :=
  ∀ x g (report report' : Report α) w, report.ungraded = report'.ungraded →
    observer.observe x g report w = observer.observe x g report' w

theorem Query.knowing_fits {ω : Type} {o : Objective α} {f : Vec α n → α}
    {f' : Vec α n → Vec α n} (computes : o.Computes f f') (overwrites : o.OverwritesProducts n)
    {observer : Observer α ω} (ignores : observer.IgnoresGradients) (clock : Clock ω) :
    (Query.knowing f f').Fits (o.answer observer clock) where
  unseen q w unseen := by
    cases q with
    | value x =>
        refine ⟨f x, ?_, rfl⟩
        simp only [Objective.answer, computes.value]
        rfl
    | gradient x out =>
        refine ⟨f' x, ?_, rfl⟩
        simp only [Objective.answer, computes.gradient, Dialogue.liftM_ok, bind, Except.bind,
          Vec.ofArray?_toArray]
        rfl
    | valueGradient x out =>
        refine ⟨(f x, f' x), ?_, rfl⟩
        simp only [Objective.answer, computes.valueGradient, Dialogue.liftM_ok, bind, Except.bind,
          Vec.ofArray?_toArray]
        rfl
    | product | observe | outOfTime => cases unseen
  shared q q' typed w shared := by
    obtain ⟨view, sees, sees'⟩ := shared
    cases q with
    | value | gradient | valueGradient => cases sees
    | product x v out =>
        cases sees
        cases q' with
        | product x' v' out' =>
            cases sees'
            rw [Dialogue.map_cast]
            simp only [Objective.answer, overwrites x v out' out]
        | value | gradient | valueGradient | observe | outOfTime => cases sees'
    | observe x g report =>
        cases sees
        cases q' with
        | observe x' g' report' =>
            simp only [Query.knowing, Option.some.injEq, Query.observe.injEq] at sees'
            obtain ⟨rfl, rfl, same⟩ := sees'
            rw [Dialogue.map_cast]
            simp only [Objective.answer, ignores _ _ report' report w same]
        | value | gradient | valueGradient | product | outOfTime => cases sees'
    | outOfTime limit =>
        cases sees
        cases q' with
        | outOfTime limit' =>
            cases sees'
            rw [Dialogue.map_cast]
        | value | gradient | valueGradient | product | observe => cases sees'

/-! ## Minimizations -/

/-- The same minimizer, but for whether it asks for values and gradients together. -/
def Solver.asking (solver : Solver α S) (combined : Bool) : Solver α S :=
  { solver with options := solver.options.asking combined }

/-- **Values and gradients together or apart.** Where the answers for values and gradients are known, two
minimizations are alike of which one asks for them apart and the other one together. If an objective answers
by two functions and the observer does not look at the number of gradients, the same is seen of both runs but
for this number, which is that of the values where they are asked for together. -/
theorem Solver.solve_together (solver : Solver α S) (p : Problem α) (dom : Domain α) (x : Array α)
    (fuel : Nat) (f : Vec α dom.dim → α) (f' : Vec α dom.dim → Vec α dom.dim) :
    let apart := solver.asking false
    let together := solver.asking true
    SolveAlike (Query.knowing f f') (Kinship.known S f') (apart.solve p dom x fuel)
      (together.solve p dom x fuel) ∧
    ∀ {ω : Type} (observer : Observer α ω) (clock : Clock ω) (w : ω),
      p.objective.Computes f f' → p.objective.OverwritesProducts dom.dim →
      observer.IgnoresGradients →
        (together.run p dom x observer clock fuel w).map
            (Solution.accountOf (Query.knowing f f') Report.ungraded) =
          (apart.run p dom x observer clock fuel w).map
            (Solution.accountOf (Query.knowing f f') Report.ungraded) ∧
        ∀ solution, together.run p dom x observer clock fuel w = .ok (.ok solution) →
          (∀ y g report, .observe y g report ∈ solution.transcript.asked →
            report.evaluations.gradient = report.evaluations.objective) ∧
          solution.report.evaluations.gradient = solution.report.evaluations.objective := by
  intro apart together
  have plays : Interplay (Query.knowing f f') (Kinship.known S f') apart.options true :=
    interplay_together S solver.options f f'
  have starts : (Kinship.known S f').Starts (apart.state.resize dom.dim)
      (together.state.resize dom.dim) := ⟨rfl, rfl⟩
  refine ⟨solve_alike plays rfl starts x fuel, ?_⟩
  intro ω observer clock w computes overwrites ignores
  refine ⟨run_alike plays rfl starts x fuel
    (Query.knowing_fits computes overwrites ignores clock) (fun _ _ _ => rfl) w, ?_⟩
  intro solution ran
  obtain ⟨shown, found, log, -, ⟨ends, -⟩, -, same, -⟩ :=
    run_keeps (fun _ _ => True) (fun d made => solve_logs made)
      (fun _ _ _ _ _ _ _ => ⟨trivial, trivial⟩) trivial ran
  refine ⟨?_, same ▸ ends.together⟩
  intro y g report here
  obtain ⟨log, promised⟩ := shown _ here
  exact Query.logging_together promised

theorem Sphere.overwritesProducts : (Sphere.objective : Objective α).OverwritesProducts n :=
  fun x v out out' => (Sphere.product x v out).trans (Sphere.product x v out').symm

omit [Scalar α] in
theorem Observer.silent_ignoresGradients {ω : Type} :
    (Observer.silent : Observer α ω).IgnoresGradients := by
  intro x g report report' w same
  have status : report.ungraded.status = report'.ungraded.status := congrArg Report.status same
  exact congrArg (fun status => ((x, g, status), w)) status

/-- The sphere on a box: the run that asks for values and gradients together counts as many of both, and
but for this the same is seen of it as of the other one. -/
theorem solve_together_cappedSphere :
    ∃ together apart,
      (cappedSphereSolver.asking true).run cappedSphere cappedSphere.domain #[5] .silent
        .stopped 9 () = .ok (.ok together) ∧
      (cappedSphereSolver.asking false).run cappedSphere cappedSphere.domain #[5] .silent
        .stopped 9 () = .ok (.ok apart) ∧
      together.account (Query.knowing (fun x => 0.5 * x.normSq) id) Report.ungraded =
        apart.account (Query.knowing (fun x => 0.5 * x.normSq) id) Report.ungraded ∧
      together.report.evaluations.gradient = together.report.evaluations.objective := by
  have ends : (((cappedSphereSolver.asking false).run cappedSphere cappedSphere.domain #[5] .silent
      .stopped 9 ()).toOption.bind Except.toOption).any fun _ => true := by
    decide +kernel
  obtain ⟨apart, ran, -⟩ := exists_solution_of_any ends
  obtain ⟨same, counts⟩ := (cappedSphereSolver.solve_together cappedSphere cappedSphere.domain #[5] 9
    (fun x => 0.5 * x.normSq) id).2 .silent .stopped () Sphere.computes
      Sphere.overwritesProducts Observer.silent_ignoresGradients
  rw [ran] at same
  obtain ⟨together, ran', same⟩ := Solution.exists_of_accountOf same
  exact ⟨together, apart, ran', ran, same, (counts together ran').2⟩

end BoxNewton
