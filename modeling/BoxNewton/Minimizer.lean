import BoxNewton.Benchmark
import BoxNewton.Solver.Run

/-!
# Minimizing a problem, step by step

A minimizer for one problem holds the problem, a solver, the current point and the last report. Each
run starts from the point that the one before it left. A run can be given a criterion on the
reports, which is asked after the initial evaluation and after every iteration, and whose "yes" ends
the run. A run that is refused hands back the minimizer, with the solver and the point that are left.
-/

set_option autoImplicit false

namespace BoxNewton

variable {α : Type} [Scalar α]

/-- A problem with a solver for it. -/
structure Minimizer (α : Type) [Scalar α] (S : Subsolver α) where
  problem : Problem α
  solver : Solver α S
  x : Array α
  report : Option (Report α)

/-- What a minimizer is made with. -/
structure Minimizer.Settings (α : Type) where
  /-- The starting point, the origin if there is none. -/
  initial : Option (Array α)
  options : Options α
  /-- The capacity of a secant memory, if there is to be one. -/
  memory : Option Nat

/-- The observer that ends a run when the criterion holds. The criterion may keep a state. -/
def Observer.until {ω : Type} (stop : Report α → ω → Bool × ω) : Observer α ω where
  observe x g report w :=
    let (stopped, w) := stop report w
    ((x, g, if stopped then .user else report.status), w)

namespace Minimizer

variable {S : Subsolver α}

/-- The settings that are in force when none are given. -/
def Settings.standard : Settings α := ⟨none, Options.standard, none⟩

/-- What is wrong with the parts of a would-be minimizer. -/
inductive Fault where
  | domain (fault : DomainFault)
  | memory (fault : SecantMemoryFault)
  deriving Repr, DecidableEq

/-- Makes a minimizer. The starting point is projected into the domain if it has its dimension;
otherwise it is kept, for the first run to refuse. -/
def build? (problem : Problem α) (settings : Settings α) (S : Subsolver α) :
    Except Fault (Minimizer α S) := do
  let dom ← problem.domain?.mapError .domain
  let x := settings.initial.getD (Array.replicate dom.dim 0)
  let plain := Solver.new S settings.options dom.dim
  let solver ←
    match settings.memory with
    | none => pure plain
    | some capacity => (plain.usingSecantMemory? capacity).mapError .memory
  return {
    problem, solver
    x := if x.size = dom.dim then dom.projectArray x else x
    report := none }

/-- The value at the current point, once there was a run. -/
def value? (m : Minimizer α S) : Option α := m.report.map (·.objective)

/-- Runs until there is a reason to stop or the criterion holds. -/
def runUntil {ω : Type} (m : Minimizer α S) (stop : Report α → ω → Bool × ω)
    (clock : Clock ω) (fuel : Nat) (w : ω) :
    Except Dialogue.Stop (Except (Refused (Minimizer α S)) (Minimizer α S × ω)) := do
  match ← m.solver.run m.problem m.problem.domain m.x (.until stop) clock fuel w with
  | .error ⟨error, left⟩ => return .error ⟨error, { m with solver := left.solver, x := left.x }⟩
  | .ok solution =>
    return .ok ({ m with
      solver := solution.solver, x := solution.x, report := some solution.report },
      solution.world)

/-- Runs until there is a reason to stop. The clock may count how often it is asked. -/
def run (m : Minimizer α S) (clock : Clock Nat) (fuel : Nat) :
    Except Dialogue.Stop (Except (Refused (Minimizer α S)) (Minimizer α S)) := do
  match ← m.runUntil (fun _ asked => (false, asked)) clock fuel 0 with
  | .error refused => return .error refused
  | .ok (m, _) => return .ok m

end Minimizer

/-- Minimizes a benchmark on a domain, with a fresh solver. -/
def Benchmark.minimize (b : Benchmark α) (dom : Domain α) (S : Subsolver α) (x : Array α)
    (options : Options α) (clock : Clock Nat) (fuel : Nat) :
    Except Dialogue.Stop (Except SolveError (Array α × Report α)) := do
  let solver := Solver.new S options dom.dim
  match ← solver.run b.problem dom x Observer.silent clock fuel 0 with
  | .error refused => return .error refused.error
  | .ok solution => return .ok (solution.x, solution.report)

end BoxNewton
