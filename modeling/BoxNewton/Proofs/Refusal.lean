import Mathlib
import BoxNewton.Proofs.Feasibility
import BoxNewton.Proofs.Products

/-!
# Refusals

A minimization is refused if the problem is not a minimization, has other constraints, or has another
dimension than the point; and then if an option is out of its range. Each thing that can be wrong comes
with the condition that it reports (`Solver.Passes`), and the conditions are checked in one order
(`SolveError.inOrder`): reported is the first one that does not hold (`Solver.solve_error_iff`). All ranges
are comparisons that must hold, so this goes for options that are not numbers as well.

The checks come before the minimizer is made one for the dimension of the domain, so a refusal hands back
the minimizer and the point that were lent (`Solver.solve_refused`). It depends on nothing but the problem's
kind, the dimensions and the options, and comes before the first question. So it is the same for every
objective, observer, clock and world (`Solver.solve_refuses`). What is not refused asks for the value at the
start at once.
-/

set_option autoImplicit false

namespace BoxNewton

variable {α : Type} [Scalar α] {S : Subsolver α}

/-! ## What is checked -/

/-- The range that a fault of the options is about. -/
def Options.Meets (o : Options α) : OptionFault → Prop
  | .mu0 => 0 < o.mu0 ∧ o.mu0 < 0.5
  | .mu1 => 0 < o.mu1
  | .sigma => 1 < o.sigma
  | .innerTolerance => 0 < o.innerTolerance ∧ o.innerTolerance < 1
  | .tolerances => 0 ≤ o.absoluteTolerance ∧ 0 ≤ o.relativeTolerance
  | .maxInnerIterations => 0 < o.maxInnerIterations
  | .largestRadius => 0 < o.region.largestRadius
  | .thresholds => 0 < o.region.acceptFrom ∧ o.region.acceptFrom ≤ o.region.shrinkBelow ∧
      o.region.shrinkBelow < o.region.growFrom ∧ o.region.growFrom < 1
  | .factors => 0 < o.region.strongShrink ∧ o.region.strongShrink < o.region.mildShrink ∧
      o.region.mildShrink < 1 ∧ 1 < o.region.growth

/-- The condition that an error is about, for a problem on a domain and a point of some size. -/
def Solver.Passes (solver : Solver α S) (p : Problem α) (dom : Domain α) (size : Nat) :
    SolveError → Prop
  | .problem .notMinimization => p.sense = .minimize
  | .problem .otherConstraints => p.hasOtherConstraints = false
  | .problem .invalidDimension => size = dom.dim
  | .options fault => solver.options.Meets fault

/-- The faults of the options, in the order in which they are checked. -/
def OptionFault.inOrder : List OptionFault :=
  [.mu0, .mu1, .sigma, .innerTolerance, .tolerances, .maxInnerIterations, .largestRadius, .thresholds,
    .factors]

/-- What can be wrong with a problem, in the order in which it is checked. -/
def ProblemError.inOrder : List ProblemError := [.notMinimization, .otherConstraints, .invalidDimension]

/-- The errors, in the order in which they are checked. -/
def SolveError.inOrder : List SolveError :=
  ProblemError.inOrder.map .problem ++ OptionFault.inOrder.map .options

theorem SolveError.mem_inOrder (e : SolveError) : e ∈ SolveError.inOrder := by
  cases e with
  | problem error => cases error <;> decide
  | options fault => cases fault <;> decide

instance (o : Options α) : DecidablePred o.Meets
  | .mu0 | .innerTolerance | .tolerances | .thresholds | .factors => inferInstanceAs (Decidable (_ ∧ _))
  | .mu1 | .sigma | .maxInnerIterations | .largestRadius => inferInstanceAs (Decidable (_ < _))

instance (solver : Solver α S) (p : Problem α) (dom : Domain α) (size : Nat) :
    DecidablePred (solver.Passes p dom size)
  | .problem .notMinimization | .problem .otherConstraints | .problem .invalidDimension =>
      inferInstanceAs (Decidable (_ = _))
  | .options fault => inferInstanceAs (Decidable (solver.options.Meets fault))

/-! ## Checks in order -/

/-- The first of some conditions that does not hold is the one that is tested first, or the first one of
the others. -/
theorem find?_not_cons {ε : Type} (passes : ε → Prop) [DecidablePred passes] (c : ε) (checks : List ε) :
    (c :: checks).find? (fun e => ¬ passes e) =
      if ¬ passes c then some c else checks.find? fun e => ¬ passes e := by
  by_cases holds : passes c
  · simp [holds]
  · simp [holds]

theorem Options.fault?_eq_find? (o : Options α) :
    o.fault? = OptionFault.inOrder.find? fun fault => ¬ o.Meets fault := by
  simp only [OptionFault.inOrder, find?_not_cons, List.find?_nil]
  have positive : o.maxInnerIterations = 0 ↔ ¬ o.Meets .maxInnerIterations :=
    Nat.pos_iff_ne_zero.not_left.symm
  rw [fault?, if_congr positive rfl rfl]
  rfl

theorem Problem.error?_eq_find? (solver : Solver α S) (p : Problem α) (dom : Domain α) (size : Nat) :
    p.error? dom size =
      ProblemError.inOrder.find? fun error => ¬ solver.Passes p dom size (.problem error) := by
  simp only [ProblemError.inOrder, find?_not_cons, List.find?_nil]
  have other : p.hasOtherConstraints = true ↔ ¬ solver.Passes p dom size (.problem .otherConstraints) :=
    Bool.not_eq_false _ ▸ Iff.rfl
  have size : dom.dim ≠ size ↔ ¬ solver.Passes p dom size (.problem .invalidDimension) :=
    not_congr eq_comm
  rw [error?, if_congr other rfl (if_congr size rfl rfl)]
  rfl

/-- The objective that answers nothing. -/
def Objective.refusing (what : Misfit) : Objective α where
  value _ := .error what
  gradient _ _ := .error what
  valueGradient _ _ := .error what
  product _ _ _ := .error what

namespace Solver

variable {solver : Solver α S} {p : Problem α} {dom : Domain α} {x : Array α} {fuel : Nat}
  {refused : Refused (Loan α S)}

/-- The first check that fails is one of the problem, or else one of the options. -/
theorem find?_inOrder (solver : Solver α S) (p : Problem α) (dom : Domain α) (size : Nat) :
    (SolveError.inOrder.find? fun e => ¬ solver.Passes p dom size e) =
      ((p.error? dom size).map SolveError.problem).or (solver.options.fault?.map SolveError.options) := by
  rw [SolveError.inOrder, List.find?_append, List.find?_map, List.find?_map,
    Problem.error?_eq_find? solver, Options.fault?_eq_find?]
  rfl

/-- What the checks say, before the minimization is made. -/
theorem solve_error_iff_find? : solver.solve p dom x fuel = .error refused ↔
    refused.left = ⟨solver, x⟩ ∧
      (SolveError.inOrder.find? fun e => ¬ solver.Passes p dom x.size e) = some refused.error := by
  obtain ⟨error, left⟩ := refused
  rw [find?_inOrder]
  have starts := solver.solve_starts p dom x fuel
  generalize solver.solve p dom x fuel = result at starts ⊢
  cases starts with
  | problem error wrong => simp [wrong, and_comm, eq_comm]
  | options fault sound wrong => simp [sound, wrong, and_comm, eq_comm]
  | made start sound usable same => simp [sound, usable]

/-- **Refused is what does not pass, with the first check that fails.** -/
theorem solve_error_iff : solver.solve p dom x fuel = .error refused ↔
    refused.left = ⟨solver, x⟩ ∧ ∃ before after, SolveError.inOrder = before ++ refused.error :: after ∧
      (∀ earlier ∈ before, solver.Passes p dom x.size earlier) ∧
        ¬ solver.Passes p dom x.size refused.error := by
  rw [solve_error_iff_find?, List.find?_eq_some_iff_append]
  simp only [decide_not, Bool.not_eq_eq_eq_not, Bool.not_true, decide_eq_false_iff_not, Bool.not_not,
    decide_eq_true_eq]
  refine and_congr_right fun _ => ⟨?_, ?_⟩
  · rintro ⟨fails, before, after, split, earlier⟩
    exact ⟨before, after, split, earlier, fails⟩
  · rintro ⟨before, after, split, earlier, fails⟩
    exact ⟨fails, before, after, split, earlier⟩

/-- Not refused is what passes all checks. -/
theorem exists_solve_iff : (∃ d, solver.solve p dom x fuel = .ok d) ↔
    ∀ e, solver.Passes p dom x.size e := by
  have none : (∃ d, solver.solve p dom x fuel = .ok d) ↔
      (SolveError.inOrder.find? fun e => ¬ solver.Passes p dom x.size e) = none := by
    rw [find?_inOrder]
    have starts := solver.solve_starts p dom x fuel
    generalize solver.solve p dom x fuel = result at starts ⊢
    cases starts with
    | problem error wrong => simp [wrong]
    | options fault sound wrong => simp [sound, wrong]
    | made start sound usable same => simp [sound, usable]
  rw [none, List.find?_eq_none]
  simp only [decide_not, Bool.not_eq_true', decide_eq_false_iff_not, not_not]
  exact ⟨fun all e => all e e.mem_inOrder, fun all e _ => all e⟩

/-! ## Runs -/

/-- A refusal comes before anything is asked, so it does not matter who would have answered. -/
theorem run_of_refused (refusal : solver.solve p dom x fuel = .error refused) (o : Objective α) {ω : Type}
    (observer : Observer α ω) (clock : Clock ω) (fuel' : Nat) (w : ω) :
    solver.run { p with objective := o } dom x observer clock fuel' w = .ok (.error refused) := by
  have same : solver.solve { p with objective := o } dom x fuel' = .error refused :=
    solve_error_iff.2 (solve_error_iff.1 refusal)
  rw [run, same]

/-- What is not refused asks for a value at once. -/
theorem run_of_passes (passes : ∀ e, solver.Passes p dom x.size e) (what : Misfit) {ω : Type}
    (observer : Observer α ω) (clock : Clock ω) (w : ω) :
    solver.run { p with objective := .refusing what } dom x observer clock fuel w =
      .error (.misfit what) := by
  obtain ⟨d, made⟩ : ∃ d, solver.solve { p with objective := .refusing what } dom x fuel = .ok d :=
    exists_solve_iff.2 passes
  obtain ⟨-, start, -, rfl⟩ := solve_ok made
  obtain ⟨q, first, value⟩ := SolverState.minimize_first? (solver.state.resize dom.dim) solver.options
    dom.box start fuel
  have unanswered : (Objective.refusing what : Objective α).answer observer clock q w =
      .error (.misfit what) := by
    rcases value with rfl | ⟨out, rfl⟩
    · rfl
    · rfl
  rw [run, made]
  change (Dialogue.run _ _ w {} >>= _) = _
  rw [Dialogue.run_error_of_first? first unanswered]
  rfl

/-- **Errors come first and change nothing.** Refused is a problem that is not a minimization, or else has
other constraints, or else has another dimension than the point, or else comes with an option out of its
range; the error is the first of these checks that fails, and there is none if all of them pass. A refusal
hands back the minimizer and the point as they were lent, with everything that is in them. It is the same for
every objective, observer and clock, none of which is asked. Without an error, the objective is asked at
once. -/
theorem solve_refuses (solver : Solver α S) (p : Problem α) (dom : Domain α) (x : Array α) (fuel : Nat) :
    (∀ refused, solver.solve p dom x fuel = .error refused ↔
      refused.left = ⟨solver, x⟩ ∧ ∃ before after, SolveError.inOrder = before ++ refused.error :: after ∧
        (∀ earlier ∈ before, solver.Passes p dom x.size earlier) ∧
          ¬ solver.Passes p dom x.size refused.error) ∧
    ((∃ d, solver.solve p dom x fuel = .ok d) ↔ ∀ e, solver.Passes p dom x.size e) ∧
    (∀ refused, solver.solve p dom x fuel = .error refused → ∀ (o : Objective α) {ω : Type}
      (observer : Observer α ω) (clock : Clock ω) (fuel' : Nat) (w : ω),
        solver.run { p with objective := o } dom x observer clock fuel' w = .ok (.error refused)) ∧
    ((∀ e, solver.Passes p dom x.size e) → ∀ (what : Misfit) {ω : Type} (observer : Observer α ω)
      (clock : Clock ω) (w : ω),
        solver.run { p with objective := .refusing what } dom x observer clock fuel w =
          .error (.misfit what)) :=
  ⟨fun _ => solve_error_iff, exists_solve_iff,
    fun _ refusal o _ observer clock fuel' w => run_of_refused refusal o observer clock fuel' w,
    fun passes what _ observer clock w => run_of_passes passes what observer clock w⟩

/-! ### An option that is not a number -/

/-- The minimizer with an option that is not a number, before one that is out of its range. It was made for
two variables. -/
def wildSolver : Solver Float ConjugateGradient.subsolver :=
  .new _ { Options.standard with mu1 := 0.0 / 0.0, sigma := 0 } 2

/-- On a domain of one variable, the minimizer that is handed back still has room for two. -/
theorem solve_refuses_wild :
    wildSolver.run { cappedSphere with objective := .refusing (.tooLarge 0) } cappedSphere.domain #[5]
      .silent .stopped 9 () = .ok (.error ⟨.options .mu1, ⟨wildSolver, #[5]⟩⟩) ∧
    wildSolver.dim = 2 ∧ ¬ wildSolver.Passes cappedSphere cappedSphere.domain 1 (.options .sigma) := by
  obtain ⟨first, -, refusal, -⟩ := wildSolver.solve_refuses cappedSphere cappedSphere.domain #[5] 9
  have refused := (first ⟨.options .mu1, ⟨wildSolver, #[5]⟩⟩).2 ⟨rfl,
    [.problem .notMinimization, .problem .otherConstraints, .problem .invalidDimension, .options .mu0],
      _, rfl, by decide +kernel, by decide +kernel⟩
  exact ⟨refusal _ refused _ _ _ _ _, rfl, by decide +kernel⟩

end Solver

end BoxNewton
