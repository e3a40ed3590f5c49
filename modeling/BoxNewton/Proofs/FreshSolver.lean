import Mathlib
import BoxNewton.Proofs.CombinedEvaluation

/-!
# Minimizers that were used before

A minimizer keeps its vectors, its trust region, the length of the last Cauchy step and the vector of
conjugate gradients from one minimization to the next. A minimization reads none of them before it has
overwritten it, so a minimizer that was reset goes on like a fresh one, whatever it was used for
(`Solver.reset_solvesLike`). Without a secant memory there is nothing to reset.

The vectors that answers are written into are handed to the objective as they are. An objective that leaves
some of their entries alone brings back what was there, and this does show (`stale_gradient_shows`): the
runs are compared for objectives that overwrite these vectors.
-/

set_option autoImplicit false

namespace BoxNewton

open Dialogue (Comparison Alike alike_refl alike_pure alike_remark)

variable {α : Type} [Scalar α] {S : Subsolver α} {n : Nat}

/-! ## Conjugate gradients -/

namespace ConjugateGradient

/-- The iterations do not depend on the vector that their first product replaces. -/
theorem iterate_alike (radius tolerance : α) (limit remaining : Nat) (s : State α n)
    (out : Vec α n) :
    Alike (.seeing Product.direction) (fun found found' => found.1 = found'.1)
      (iterate radius tolerance limit remaining s)
      (iterate radius tolerance limit remaining { s with product := out }) := by
  cases remaining with
  | zero => exact (alike_remark _ _).bind_eq fun _ => alike_pure rfl
  | succ remaining =>
      refine (Product.request_alike s.p s.product out).bind_eq fun ap => ?_
      exact (alike_refl _ _).mono fun _ _ same => congrArg Prod.fst same

/-- Earlier systems do not matter. -/
theorem subsolver_respects : (subsolver (α := α)).Respects fun _ _ => True := by
  intro n w w' b radius tolerance limit out _
  refine Alike.ite Iff.rfl (fun _ => alike_pure ⟨rfl, trivial⟩) fun _ => ?_
  refine (iterate_alike radius (tolerance * b.norm) limit limit
    ⟨Vec.zeros n, b, b, b.normSq, w.buffer n⟩ (w'.buffer n)).mono ?_
  exact fun _ _ same => ⟨same, trivial⟩

end ConjugateGradient

/-! ## The comparison -/

namespace Query

/-- The question without the vector to be filled. -/
def blank : Query α n → Query α n
  | .value x => .value x
  | .gradient x _ => .gradient x (Vec.zeros n)
  | .valueGradient x _ => .valueGradient x (Vec.zeros n)
  | .product x v _ => .product x v (Vec.zeros n)
  | .observe x g report => .observe x g report
  | .outOfTime limit => .outOfTime limit

/-- The comparison in which nothing is private and vectors to be filled are not seen. -/
abbrev blanking : Comparison (Query α n) Query.Reply (Query α n) := .seeing blank

theorem askGradient_alike (x out out' : Vec α n) :
    Alike blanking Eq (askGradient x out) (askGradient x out') := by
  have shared : blanking.Shares (.gradient x out) (.gradient x out') := ⟨_, rfl, rfl⟩
  exact (Dialogue.alike_question shared rfl).mono fun _ _ same => same.symm

theorem askBoth_alike (x out out' : Vec α n) :
    Alike blanking Eq (askBoth x out) (askBoth x out') := by
  have shared : blanking.Shares (.valueGradient x out) (.valueGradient x out') := ⟨_, rfl, rfl⟩
  exact (Dialogue.alike_question shared rfl).mono fun _ _ same => same.symm

end Query

/-- The same gradients are counted, and those that come with values are the same. -/
def Kinship.overwriting (kin : S.State → S.State → Prop) (combined : Bool) : Kinship α S n where
  counts := Eq
  kin := kin
  fetched _ g g' := combined = true → g = g'

/-- **What is kept from earlier minimizations does not matter to what is seen.** -/
theorem interplay_overwriting {kin : S.State → S.State → Prop} (respects : S.Respects kin)
    (options : Options α) :
    Interplay (n := n) Query.blanking (Kinship.overwriting kin options.combinedEvaluation) options
      options.combinedEvaluation where
  product x v out out' := ⟨_, rfl, rfl⟩
  clock limit := ⟨_, rfl, rfl⟩
  shown x g report gradients counts := by
    cases counts
    exact ⟨_, rfl, rfl⟩
  respects := respects
  counted := rfl
  start x out out' := by
    unfold askStart Options.asking
    cases options.combinedEvaluation with
    | true => exact Query.askBoth_alike x out out'
    | false =>
        refine (alike_refl _ _).bind_eq fun fx => ?_
        exact (Query.askGradient_alike x out out').bind_eq fun g => alike_pure rfl
  evaluate st p p' y sets related := by
    obtain ⟨u, rfl, counts, kin⟩ := related
    unfold Setting.evaluate Setting.asking Options.asking
    rw [sets]
    cases options.combinedEvaluation with
    | true =>
        refine (Query.askBoth_alike y _ _).bind_eq fun both => alike_pure ?_
        let v : Unshared α S n :=
          { u with gradients := u.gradients + 1, buffers.combined := both.2 }
        exact ⟨rfl, ⟨v, rfl, congrArg (· + 1) counts, kin⟩, fun _ => rfl⟩
    | false =>
        refine (alike_refl _ _).bind_eq fun fx => alike_pure ?_
        exact ⟨rfl, ⟨u, rfl, counts, kin⟩, nofun⟩
  atTrial st y b b' asked asked' sets given counts := by
    cases counts
    unfold Setting.gradientAtTrial Setting.asking Options.asking
    rw [sets]
    cases together : options.combinedEvaluation with
    | true => exact alike_pure ⟨given together, rfl⟩
    | false => exact (Query.askGradient_alike y _ _).bind_eq fun g => alike_pure ⟨rfl, rfl⟩
  accepted st p p' y judged sets related given := by
    unfold Setting.acceptedGradient Setting.asking Options.asking
    cases judged with
    | some g => exact alike_pure ⟨rfl, related⟩
    | none =>
        rw [sets]
        cases together : options.combinedEvaluation with
        | true => exact alike_pure ⟨given together, related⟩
        | false =>
            obtain ⟨u, rfl, counts, kin⟩ := related
            refine (Query.askGradient_alike y _ _).bind_eq fun g => alike_pure ?_
            exact ⟨rfl, { u with gradients := u.gradients + 1 }, rfl, congrArg (· + 1) counts, kin⟩

/-! ## Worlds -/

/-- What the objective writes into a vector does not depend on what was there. -/
structure Objective.Overwrites (o : Objective α) (n : Nat) : Prop where
  gradient : ∀ x out out' : Vec α n,
    o.gradient x.toArray out.toArray = o.gradient x.toArray out'.toArray
  valueGradient : ∀ x out out' : Vec α n,
    o.valueGradient x.toArray out.toArray = o.valueGradient x.toArray out'.toArray
  product : o.OverwritesProducts n

theorem Query.blanking_fits {ω : Type} {o : Objective α} (overwrites : o.Overwrites n)
    (observer : Observer α ω) (clock : Clock ω) :
    Query.blanking.Fits (o.answer (n := n) observer clock) where
  unseen q w unseen := by cases unseen
  shared q q' typed w shared := by
    obtain ⟨view, sees, sees'⟩ := shared
    have same : q'.blank = q.blank := Option.some_injective _ (sees'.trans sees.symm)
    cases q with
    | value x =>
        cases q' with
        | value x' =>
            cases same
            rw [Dialogue.map_cast]
        | gradient | valueGradient | product | observe | outOfTime => cases same
    | gradient x out =>
        cases q' with
        | gradient x' out' =>
            cases same
            rw [Dialogue.map_cast]
            simp only [Objective.answer, overwrites.gradient x out' out]
        | value | valueGradient | product | observe | outOfTime => cases same
    | valueGradient x out =>
        cases q' with
        | valueGradient x' out' =>
            cases same
            rw [Dialogue.map_cast]
            simp only [Objective.answer, overwrites.valueGradient x out' out]
        | value | gradient | product | observe | outOfTime => cases same
    | product x v out =>
        cases q' with
        | product x' v' out' =>
            cases same
            rw [Dialogue.map_cast]
            simp only [Objective.answer, overwrites.product x v out' out]
        | value | gradient | valueGradient | observe | outOfTime => cases same
    | observe x g report =>
        cases q' with
        | observe x' g' report' =>
            cases same
            rw [Dialogue.map_cast]
        | value | gradient | valueGradient | product | outOfTime => cases same
    | outOfTime limit =>
        cases q' with
        | outOfTime limit' =>
            cases same
            rw [Dialogue.map_cast]
        | value | gradient | valueGradient | product | observe => cases same

theorem Sphere.overwrites : (Sphere.objective : Objective α).Overwrites n where
  gradient x out out' := (Sphere.computes.gradient x out).trans (Sphere.computes.gradient x out').symm
  valueGradient x out out' :=
    (Sphere.computes.valueGradient x out).trans (Sphere.computes.valueGradient x out').symm
  product := Sphere.overwritesProducts

/-! ## Histories -/

/-- Holds of the models of the Hessian that have learnt nothing. -/
def HessianModel.IsEmpty : HessianModel α n → Prop
  | exact => True
  | secant memory => memory = .empty n memory.capacity memory.capacity_pos

namespace HessianModel

/-- Models that have learnt nothing differ at most in their room. -/
theorem IsEmpty.eq {model model' : HessianModel α n} (empty : model.IsEmpty)
    (empty' : model'.IsEmpty) (room : model.capacity? = model'.capacity?) : model = model' := by
  cases model with
  | exact =>
      cases model' with
      | exact => rfl
      | secant memory' => cases room
  | secant memory =>
      cases model' with
      | exact => cases room
      | secant memory' =>
          have same : memory.capacity = memory'.capacity := Option.some_injective _ room
          have empty : memory = .empty n memory.capacity memory.capacity_pos := empty
          have empty' : memory' = .empty n memory'.capacity memory'.capacity_pos := empty'
          rw [empty, empty']
          simp only [same]

theorem isEmpty_reset (model : HessianModel α n) : model.reset.IsEmpty := by
  cases model with
  | exact => trivial
  | secant memory => rfl

theorem capacity_reset (model : HessianModel α n) : model.reset.capacity? = model.capacity? := by
  cases model <;> rfl

/-- The objective learns nothing. -/
theorem isEmpty_of_exact {model : HessianModel α n} (exact : model.capacity? = none) :
    model.IsEmpty := by
  cases model with
  | exact => trivial
  | secant memory => cases exact

end HessianModel

theorem SolverState.resize_isEmpty {state : SolverState α S n} (empty : state.model.IsEmpty)
    (m : Nat) : (state.resize m).model.IsEmpty := by
  unfold resize
  split
  · rename_i same
    subst same
    exact empty
  · cases model : state.model with
    | exact => trivial
    | secant memory => rfl

namespace Solver

/-- Holds of the minimizers that were just made, with these options and so much room for secant pairs, if
they are used in place of the products of the Hessian. -/
inductive Made (S : Subsolver α) (options : Options α) : Option Nat → Solver α S → Prop where
  | exact (dim : Nat) : Made S options none (.new S options dim)
  | secant {dim capacity : Nat} {solver : Solver α S}
      (made : (Solver.new S options dim).usingSecantMemory? capacity = .ok solver) :
      Made S options (some capacity) solver

/-- Holds of the minimizers that were made and then used: reset, or told to minimize, whatever the answers
were. A refusal hands back the minimizer, too. -/
inductive Used (S : Subsolver α) (options : Options α) (room : Option Nat) :
    Solver α S → Prop where
  | made {solver : Solver α S} (made : Made S options room solver) : Used S options room solver
  | reset {solver : Solver α S} (used : Used S options room solver) : Used S options room solver.reset
  | refused {solver : Solver α S} (used : Used S options room solver) (p : Problem α)
      (dom : Domain α) (x : Array α) (fuel : Nat) {refused : Refused (Loan α S)}
      (refusal : solver.solve p dom x fuel = .error refused) : Used S options room refused.left.solver
  | solved {solver : Solver α S} (used : Used S options room solver) (p : Problem α)
      (dom : Domain α) (x : Array α) (fuel : Nat)
      {d : SolverDialogue α dom.dim (Minimum α S dom.dim)}
      (made : solver.solve p dom x fuel = .ok d) {ω : Type}
      (world : (q : Query α dom.dim) → ω → Except Dialogue.Stop (q.Reply × ω)) (w w' : ω)
      {found : Minimum α S dom.dim} {t : Dialogue.Transcript (Note α) (Query α dom.dim)}
      (ran : d.run world w {} = .ok (found, w', t)) :
      Used S options room ⟨solver.options, dom.dim, found.state⟩

variable {options : Options α} {room : Option Nat} {solver : Solver α S}

/-- Holds of a minimizer with these options and this room. -/
structure Chosen (solver : Solver α S) (options : Options α) (room : Option Nat) : Prop where
  sameOptions : solver.options = options
  sameRoom : solver.state.model.capacity? = room

theorem Made.chosen (made : Made S options room solver) :
    solver.Chosen options room ∧ solver.state.model.IsEmpty := by
  cases made with
  | exact dim => exact ⟨⟨rfl, rfl⟩, trivial⟩
  | @secant dim capacity _ made =>
      unfold usingSecantMemory? SecantMemory.empty? at made
      split at made
      · split at made
        · cases made
          exact ⟨⟨rfl, rfl⟩, rfl⟩
        · cases made
      · cases made

/-- **Use changes neither the options nor the choice of the model.** -/
theorem Used.chosen (used : Used S options room solver) : solver.Chosen options room := by
  induction used with
  | made made => exact made.chosen.1
  | reset _ ih => exact ⟨ih.sameOptions, (HessianModel.capacity_reset _).trans ih.sameRoom⟩
  | refused _ p dom x fuel refusal ih => exact solve_refused refusal ▸ ih
  | solved _ p dom x fuel made world w w' ran ih =>
      obtain ⟨asked, -, -, -, room⟩ := (solve_logs made).run_record (fun _ _ _ _ _ _ => trivial)
        (fun _ _ _ => rfl) ran
      exact ⟨ih.sameOptions, room.trans ih.sameRoom⟩

/-- A run is a use. -/
theorem Used.run {ω : Type} {p : Problem α} {dom : Domain α} {x : Array α} {observer : Observer α ω}
    {clock : Clock ω} {fuel : Nat} {w : ω} {solution : Solution α S ω dom.dim}
    (used : Used S options room solver)
    (ran : solver.run p dom x observer clock fuel w = .ok (.ok solution)) :
    Used S options room solution.solver := by
  obtain ⟨d, found, made, went, -, -, after⟩ := run_ok ran
  rw [after]
  exact .solved used p dom x fuel made _ w _ went

/-- Holds when a minimization has the same outcome on two minimizers: the same is refused, the dialogues are
alike whatever the answers are, and if the objective overwrites vectors, the same is seen of both runs. -/
structure SolvesLike (solver solver' : Solver α S) (kin : S.State → S.State → Prop) (p : Problem α)
    (dom : Domain α) (x : Array α) (fuel : Nat) : Prop where
  solve : SolveAlike Query.blanking (Kinship.overwriting kin solver'.options.combinedEvaluation)
    (solver'.solve p dom x fuel) (solver.solve p dom x fuel)
  run : ∀ {ω : Type} (observer : Observer α ω) (clock : Clock ω) (w : ω),
    p.objective.Overwrites dom.dim →
      (solver.run p dom x observer clock fuel w).map (Solution.accountOf Query.blanking id) =
        (solver'.run p dom x observer clock fuel w).map (Solution.accountOf Query.blanking id)

/-- Minimizers whose models have learnt nothing go on alike. -/
theorem solvesLike_of_isEmpty {solver' : Solver α S} {kin : S.State → S.State → Prop}
    (respects : S.Respects kin) (related : ∀ w w', kin w w') (chosen : solver.Chosen options room)
    (chosen' : solver'.Chosen options room) (empty : solver.state.model.IsEmpty)
    (empty' : solver'.state.model.IsEmpty) (p : Problem α) (dom : Domain α) (x : Array α) (fuel : Nat) :
    solver.SolvesLike solver' kin p dom x fuel := by
  have asks : solver.options =
      solver'.options.asking solver'.options.combinedEvaluation := by
    rw [chosen.sameOptions, chosen'.sameOptions]
    rfl
  have rooms : (solver.state.resize dom.dim).model.capacity? =
      (solver'.state.resize dom.dim).model.capacity? := by
    rw [SolverState.resize_capacity, SolverState.resize_capacity, chosen.sameRoom, chosen'.sameRoom]
  have starts : (Kinship.overwriting kin solver'.options.combinedEvaluation).Starts
      (solver'.state.resize dom.dim) (solver.state.resize dom.dim) :=
    ⟨(SolverState.resize_isEmpty empty _).eq (SolverState.resize_isEmpty empty' _) rooms, related _ _⟩
  have plays := interplay_overwriting (n := dom.dim) respects solver'.options
  refine ⟨solve_alike plays asks starts x fuel, ?_⟩
  intro ω observer clock w overwrites
  refine run_alike plays asks starts x fuel (Query.blanking_fits overwrites observer clock) ?_ w
  rintro report gradients counts
  cases counts
  rfl

/-- **A minimizer that was reset is like a fresh one.** Whatever a minimizer with conjugate gradients was
used for, once it was reset, every minimization has the same outcome as on a minimizer that was just made
with the same options and the same room for secant pairs. Without a secant memory, the same holds without
the reset. -/
theorem reset_solvesLike {fresh used : Solver α ConjugateGradient.subsolver}
    (history : used.Used _ options room) (new : fresh.Made _ options room) (p : Problem α)
    (dom : Domain α) (x : Array α) (fuel : Nat) :
    used.reset.SolvesLike fresh (fun _ _ => True) p dom x fuel ∧
      (room = none → used.SolvesLike fresh (fun _ _ => True) p dom x fuel) := by
  have chosen := history.chosen
  obtain ⟨chosen', empty'⟩ := new.chosen
  have respects : (ConjugateGradient.subsolver (α := α)).Respects fun _ _ => True :=
    ConjugateGradient.subsolver_respects
  constructor
  · exact solvesLike_of_isEmpty respects (fun _ _ => trivial) history.reset.chosen chosen'
      (HessianModel.isEmpty_reset _) empty' p dom x fuel
  · rintro rfl
    exact solvesLike_of_isEmpty respects (fun _ _ => trivial) chosen chosen'
      (HessianModel.isEmpty_of_exact chosen.sameRoom) empty' p dom x fuel

end Solver

/-- The sphere on a box, for a second time: with and without a reset the same is seen as for the first
time. -/
theorem reset_solvesLike_cappedSphere :
    ∃ first again later : Solution Float ConjugateGradient.subsolver Unit 1,
      cappedSphereSolver.run cappedSphere cappedSphere.domain #[5] .silent .stopped 9 () =
        .ok (.ok first) ∧
      first.solver.reset.run cappedSphere cappedSphere.domain #[5] .silent .stopped 9 () =
        .ok (.ok again) ∧
      first.solver.run cappedSphere cappedSphere.domain #[5] .silent .stopped 9 () =
        .ok (.ok later) ∧
      again.account Query.blanking id = first.account Query.blanking id ∧
      later.account Query.blanking id = first.account Query.blanking id := by
  have ends : ((cappedSphereSolver.run cappedSphere cappedSphere.domain #[5] .silent
      .stopped 9 ()).toOption.bind Except.toOption).any fun _ => true := by
    decide +kernel
  obtain ⟨first, ran, -⟩ := exists_solution_of_any ends
  have new : cappedSphereSolver.Made _ .standard none := .exact 1
  obtain ⟨reset, plain⟩ := Solver.reset_solvesLike (Solver.Used.made new |>.run ran) new cappedSphere
    cappedSphere.domain #[5] 9
  have again := reset.run .silent .stopped () Sphere.overwrites
  have later := (plain rfl).run .silent .stopped () Sphere.overwrites
  rw [ran] at again later
  obtain ⟨s, ran', same⟩ := Solution.exists_of_accountOf again
  obtain ⟨s', ran'', same'⟩ := Solution.exists_of_accountOf later
  exact ⟨first, s, s', ran, ran', ran'', same, same'⟩

/-! ## Vectors that are not overwritten -/

/-- The cube in three variables around the origin. -/
def cube : Domain Float where
  dim := 3
  dim_pos := by decide
  box := { lower := fun _ => -1, upper := fun _ => 1, ordered := fun _ => by decide }

/-- The third variable, to be minimized on the cube. -/
def heightOnCube : Problem Float := .minimize (Linear.objective #v[0, 0, 1]) cube

/-- The Rosenbrock function of two variables. On the cube it leaves the third entry of a gradient alone. -/
def valley : Problem Float := .minimize (Rosenbrock.objective 2) (.unbounded 2 (by decide))

/-- A minimizer that looks at the starting point only. -/
def lookingSolver : Solver Float ConjugateGradient.subsolver :=
  .new _ { Options.standard with maxIterations := 0 } 3

/-- After the third variable was minimized and the minimizer was reset, its gradient still has a one in the
third entry. So the minimum of the valley does not count as a first-order point, while for a fresh minimizer
it does. -/
theorem stale_gradient_shows :
    lookingSolver.Made _ lookingSolver.options none ∧
    ∃ used : Solver Float ConjugateGradient.subsolver, used.Used _ lookingSolver.options none ∧
      ∃ again fresh,
        used.reset.run valley cube #[1, 1, 0] .silent .stopped 1 () = .ok (.ok again) ∧
        lookingSolver.run valley cube #[1, 1, 0] .silent .stopped 1 () = .ok (.ok fresh) ∧
        again.report.status = .maxIterations ∧ fresh.report.status = .firstOrder := by
  have new : lookingSolver.Made _ lookingSolver.options none := .exact 3
  have ends : ((lookingSolver.run heightOnCube cube #[0, 0, 0] .silent .stopped 1
      ()).toOption.bind Except.toOption).any fun first =>
        ((first.solver.reset.run valley cube #[1, 1, 0] .silent .stopped 1
          ()).toOption.bind Except.toOption).any (·.report.status = .maxIterations) := by
    decide +kernel
  have ends' : ((lookingSolver.run valley cube #[1, 1, 0] .silent .stopped 1
      ()).toOption.bind Except.toOption).any (·.report.status = .firstOrder) := by
    decide +kernel
  obtain ⟨first, ran, goes⟩ := exists_solution_of_any ends
  obtain ⟨again, ran', stopped⟩ := exists_solution_of_any goes
  obtain ⟨fresh, ran'', stationary⟩ := exists_solution_of_any ends'
  exact ⟨new, first.solver, .run (.made new) ran, again, fresh, ran', ran'',
    of_decide_eq_true stopped, of_decide_eq_true stationary⟩

end BoxNewton
