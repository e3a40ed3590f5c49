import Mathlib
import BoxNewton.Benchmark
import BoxNewton.Proofs.Run
import BoxNewton.Subproblem.ConjugateGradient

/-!
# Steps that are not taken leave no trace

Until a step is accepted, an iteration has moved its point along the Cauchy step and every pass of the
refinement, and may have asked for a gradient at the trial point. If the step is rejected, or the
iteration halts the minimization, then the point, the value, the gradient, the stationarity, the model
of the Hessian and the number of accepted steps are those that the iteration started from
(`Setting.iterate_reverts`). The objective may answer anything, special values included, and nothing
is asked of the subsolver, of the point or of the order of the scalars.

Over a whole run the observer sees this (`Solver.solve_reverts`). What it sees after an iteration
either repeats what it handed back the last time, once projected, or counts one more accepted step. A
minimization ends with what the observer handed back last.
-/

set_option autoImplicit false

namespace BoxNewton

open Dialogue (Contract)

variable {α : Type} [Scalar α] {S : Subsolver α} {n : Nat}

/-! ## One iteration -/

/-- Holds when an iteration that does not take a step leaves what it started from. -/
def Setting.Reverts (st : Setting α n) (p : Progress α S n) : Turn α S n → Prop
  | .halted p' => p.Stands p' ∧ (p'.status = .smallStep ∨ p'.status = .noPredictedDecrease)
  | .judged p' ratio => ¬ st.options.region.acceptFrom ≤ ratio → p.Stands p'

theorem Setting.Outcome.reverts {σ : Type} {st : Setting α n}
    {c : Contract (Query α n) Query.Reply σ} {s : σ} {trial : Vec α n → Prop}
    {p : Progress α S n} {turn : Turn α S n} (outcome : st.Outcome c s trial p turn) :
    st.Reverts p turn := by
  cases outcome with
  | halted p' stands status => exact ⟨stands, status⟩
  | rejected p' ratio stands low => exact fun _ => stands
  | accepted p' ratio moves high => exact fun low => absurd high low

/-- Whatever is answered, an iteration that does not take a step leaves what it started from. -/
theorem Setting.iterate_reverts (st : Setting α n) (p : Progress α S n) :
    (st.iterate p).Keeps .free (fun turn _ => st.Reverts p turn) () :=
  (iterate_keeps (permits_free p.x _) (st.lands_anywhere S)).mono
    fun _ _ here => here.2.outcome.reverts

/-! ## A run -/

/-- What the observer sees of a point. -/
structure Sighting (α : Type) (n : Nat) where
  x : Vec α n
  g : Vec α n
  objective : α
  stationarity : α
  acceptedSteps : Nat

/-- What there is to see of a minimization. -/
def Progress.sighting (p : Progress α S n) : Sighting α n where
  x := p.x
  g := p.g
  objective := p.value
  stationarity := p.stationarity
  acceptedSteps := p.acceptedSteps

/-- What is left to see when a minimization has ended. -/
def Minimum.sighting (found : Minimum α S n) : Sighting α n where
  x := found.x
  g := found.state.buffers.gradient
  objective := found.report.objective
  stationarity := found.report.stationarity
  acceptedSteps := found.report.acceptedSteps

omit [Scalar α] in
theorem Progress.Stands.sighting {p p' : Progress α S n} (stands : p.Stands p') :
    p'.sighting = p.sighting := by
  simp only [Progress.sighting, stands.x, stands.g, stands.value, stands.stationarity,
    stands.acceptedSteps]

/-- The contract to show the last sighting again unless a step was accepted. Recorded is what the
observer handed back the last time, with its point projected. -/
def Box.remembering (box : Box α n) :
    Contract (Query α n) Query.Reply (Option (Sighting α n)) where
  promises last q := match last, q with
    | some seen, .observe x g report =>
        seen = ⟨x, g, report.objective, report.stationarity, report.acceptedSteps⟩ ∨
          report.acceptedSteps = seen.acceptedSteps + 1
    | _, _ => True
  relies _ _ _ := True
  next last q a := match q, a with
    | .observe _ _ report, seen => some
        ⟨box.project seen.x, seen.g, report.objective, report.stationarity, report.acceptedSteps⟩
    | _, _ => last

section Questions

variable {box : Box α n} {last : Option (Sighting α n)}

theorem Box.permits_remembering (x : Vec α n) (trial : Vec α n → Prop) :
    PermitsIteration box.remembering last x trial where
  product _ _ := ⟨by cases last <;> trivial, fun _ _ => rfl⟩
  value _ _ := ⟨by cases last <;> trivial, fun _ _ => rfl⟩
  gradient _ _ _ := ⟨by cases last <;> trivial, fun _ _ => rfl⟩
  valueGradient _ _ _ := ⟨by cases last <;> trivial, fun _ _ => rfl⟩

theorem Box.clock_remembering (limit : Float) :
    box.remembering.Allows last (.outOfTime limit) :=
  ⟨by cases last <;> trivial, fun _ _ => rfl⟩

end Questions

namespace Setting

variable {st : Setting α n} {p : Progress α S n}

/-- The observer is shown the last sighting, or one more accepted step; and what it hands back is
where the minimization goes on. -/
theorem checkpoint_remembers {last : Option (Sighting α n)}
    (shown : ∀ seen ∈ last, seen = p.sighting ∨ p.acceptedSteps = seen.acceptedSteps + 1) :
    (st.checkpoint p).Keeps st.box.remembering (fun p' last' => last' = some p'.sighting) last := by
  refine ⟨?_, fun _ _ => rfl⟩
  cases last with
  | none => trivial
  | some seen => exact shown seen rfl

theorem loop_remembers (fuel : Nat) :
    (st.loop fuel p).Keeps st.box.remembering (fun p' last => last = some p'.sighting)
      (some p.sighting) := by
  refine loop_keeps (fun p last => last = some p.sighting)
    (fun p _ _ => Box.permits_remembering p.x _) (st.lands_anywhere S)
    (fun _ => Box.clock_remembering) ?_ ?_ fuel p _ rfl
  · rintro p p' _ rfl stands _
    exact congrArg some stands.sighting.symm
  · rintro p p' _ status rfl turn _
    apply checkpoint_remembers
    intro seen here
    rw [← Option.mem_some_iff.1 here]
    rcases turn with stands | moves
    · exact .inl stands.sighting.symm
    · exact .inr moves.acceptedSteps

end Setting

theorem SolverState.minimize_remembers (state : SolverState α S n) (options : Options α)
    (box : Box α n) (start : Vec α n) (fuel : Nat) :
    (state.minimize options box start fuel).Keeps box.remembering
      (fun found last => last = some found.sighting) none := by
  have allowed : PermitsIteration box.remembering none (box.project start) fun _ => True :=
    Box.permits_remembering _ _
  unfold minimize
  have opened : (state.begin options box start fuel).Keeps box.remembering
      (fun out last => out.1.box = box ∧ last = some out.2.sighting) none := by
    apply begin_keeps state fuel allowed trivial Box.clock_remembering
    intro st p opens
    obtain ⟨-, rfl, -⟩ := opens
    refine (Setting.checkpoint_remembers fun _ none => ?_).mono fun _ _ here => ⟨rfl, here⟩
    cases none
  refine opened.bind ?_
  rintro ⟨st, p⟩ last ⟨rfl, rfl⟩
  exact (Setting.loop_remembers fuel).bind fun _ _ last => last

/-- **Rollback.** Whatever is answered, an iteration that does not take a step leaves what it started
from. In every run an observer is shown again what it handed back the last time unless a step was
accepted since, and the minimization ends with what was handed back last. -/
theorem Solver.solve_reverts (solver : Solver α S) (p : Problem α) (dom : Domain α)
    (x : Array α) (fuel : Nat) :
    (∀ (st : Setting α dom.dim) (q : Progress α S dom.dim),
      (st.iterate q).Keeps .free (fun turn _ => st.Reverts q turn) ()) ∧
    ∀ d, solver.solve p dom x fuel = .ok d →
      d.Keeps dom.box.remembering (fun found last => last = some found.sighting) none :=
  ⟨fun st q => st.iterate_reverts q, fun _ made =>
    solve_keeps (fun _ _ => SolverState.minimize_remembers _ _ _ _ _) made⟩

/-- The answers of an objective that is infinite away from where one stands. -/
def infiniteAnswer : (q : Query Float 1) → q.Reply
  | .value _ => Scalar.infinity
  | .gradient _ out => out
  | .valueGradient _ out => (Scalar.infinity, out)
  | .product _ v _ => v
  | .observe x g report => ⟨x, g, report.status⟩
  | .outOfTime _ => false

/-- The setting of one unbounded variable. -/
def lineSetting : Setting Float 1 where
  options := .standard
  box := .unbounded 1
  tolerance := 0
  floor := 0
  fuel := 9

/-- A state in which the next step looks good. -/
def lineProgress : Progress Float ConjugateGradient.subsolver 1 where
  x := #v[0]
  value := 1
  g := #v[1]
  stationarity := 1
  status := .unknown
  iteration := 0
  acceptedSteps := 0
  innerIterations := 0
  evaluations := ⟨1, 1, 0⟩
  state := .initial _ .exact

/-- A step to an infinite value is rejected, and nothing is left of it. -/
theorem solve_reverts_infinite :
    (∃ q ratio, (lineSetting.iterate lineProgress).eval infiniteAnswer = some (.judged q ratio) ∧
      ¬ lineSetting.options.region.acceptFrom ≤ ratio ∧ lineProgress.Stands q) ∧
    ∃ d, (Solver.new ConjugateGradient.subsolver .standard 1 : Solver Float _).solve
        (.minimize Sphere.objective (.unbounded 1 Nat.one_pos)) (.unbounded 1 Nat.one_pos) #[5] 9 =
          .ok d ∧
      d.Keeps (Box.unbounded 1).remembering (fun found last => last = some found.sighting) none := by
  have reverts := Solver.solve_reverts
    (Solver.new ConjugateGradient.subsolver .standard 1 : Solver Float _)
    (.minimize Sphere.objective (.unbounded 1 Nat.one_pos)) (.unbounded 1 Nat.one_pos) #[5] 9
  constructor
  · have low : ((lineSetting.iterate lineProgress).eval infiniteAnswer).any (fun turn =>
        match turn with
        | .halted _ => false
        | .judged _ ratio => decide (¬ lineSetting.options.region.acceptFrom ≤ ratio)) := by
      decide +kernel
    cases went : (lineSetting.iterate lineProgress).eval infiniteAnswer with
    | none => simp [went] at low
    | some turn =>
        obtain ⟨-, back⟩ := (reverts.1 lineSetting lineProgress).eval (fun _ _ => trivial) went
        cases turn with
        | halted q => simp [went] at low
        | judged q ratio =>
            have rejected : ¬ lineSetting.options.region.acceptFrom ≤ ratio := by
              simpa [went] using low
            exact ⟨q, ratio, rfl, rejected, back rejected⟩
  · obtain ⟨d, made⟩ : ∃ d, (Solver.new ConjugateGradient.subsolver .standard 1 :
        Solver Float _).solve (.minimize Sphere.objective (.unbounded 1 Nat.one_pos))
          (.unbounded 1 Nat.one_pos) #[5] 9 = .ok d := ⟨_, rfl⟩
    exact ⟨d, made, reverts.2 d made⟩

end BoxNewton
