import BoxNewton.Refinement
import BoxNewton.Solver.Query
import BoxNewton.TrustRegion

/-!
# The state of the minimizer

Between minimizations the minimizer keeps its trust region, the length of the last Cauchy step, its
source of second-order information, the state of the subsolver, and the vectors that answers were
written into. When it is used in another dimension, the vectors start as zeros again and a secant
memory starts empty.

During a minimization the current point, its value, its gradient and the counters come on top.
-/

set_option autoImplicit false

namespace BoxNewton

/-- The vectors that answers are written into. -/
structure Buffers (α : Type) (n : Nat) where
  /-- The gradient at the current point. -/
  gradient : Vec α n
  /-- The gradient that came with the value at a trial point. -/
  combined : Vec α n
  /-- The gradient at an accepted point. -/
  accepted : Vec α n
  /-- The gradient that the judgement of a step asked for. -/
  judged : Vec α n
  /-- The product of the Hessian with a step. -/
  image : Vec α n

/-- Buffers of zeros. -/
def Buffers.zeros {α : Type} [Scalar α] (n : Nat) : Buffers α n :=
  ⟨Vec.zeros n, Vec.zeros n, Vec.zeros n, Vec.zeros n, Vec.zeros n⟩

/-- What the minimizer keeps, in one dimension. -/
structure SolverState (α : Type) (S : Subsolver α) (n : Nat) where
  region : TrustRegion α
  /-- The length of the last Cauchy step, from which the next search starts. -/
  cauchyLength : α
  model : HessianModel α n
  subsolver : S.State
  buffers : Buffers α n

/-- The minimizer. -/
structure Solver (α : Type) (S : Subsolver α) where
  options : Options α
  dim : Nat
  state : SolverState α S dim

variable {α : Type} [Scalar α] {S : Subsolver α} {n : Nat}

/-- The state after construction. -/
def SolverState.initial (S : Subsolver α) (model : HessianModel α n) : SolverState α S n where
  region := TrustRegion.initial
  cauchyLength := 1
  model
  subsolver := S.initial
  buffers := Buffers.zeros n

/-- The state for vectors of dimension `m`. -/
def SolverState.resize (st : SolverState α S n) (m : Nat) : SolverState α S m :=
  if h : n = m then h ▸ st
  else { st with model := st.model.emptied m, buffers := Buffers.zeros m }

namespace Solver

/-- A minimizer that asks the objective for products of its Hessian. -/
def new (S : Subsolver α) (options : Options α) (dim : Nat) : Solver α S :=
  ⟨options, dim, .initial S .exact⟩

/-- Replaces the products of the Hessian by a secant memory. -/
def usingSecantMemory? (solver : Solver α S) (capacity : Nat) :
    Except SecantMemoryFault (Solver α S) := do
  let memory ← SecantMemory.empty? solver.dim capacity
  return { solver with state.model := .secant memory }

/-- Replaces the subsolver. -/
def usingSubsolver (solver : Solver α S) (T : Subsolver α) : Solver α T where
  options := solver.options
  dim := solver.dim
  state := { solver.state with subsolver := T.initial }

/-- Goes back to the initial radius and step length, and forgets what was learnt from steps. -/
def reset (solver : Solver α S) : Solver α S :=
  { solver with
    state.region := solver.state.region.reset
    state.cauchyLength := 1
    state.model := solver.state.model.reset }

end Solver

/-- The state of a minimization between two of its iterations. -/
structure Progress (α : Type) (S : Subsolver α) (n : Nat) where
  x : Vec α n
  /-- The value at the current point. -/
  value : α
  /-- The gradient at the current point. -/
  g : Vec α n
  /-- The norm of the projected gradient at the current point. -/
  stationarity : α
  status : Status
  iteration : Nat
  acceptedSteps : Nat
  innerIterations : Nat
  evaluations : Evaluations
  state : SolverState α S n

/-- The report on a minimization. -/
def Progress.report (p : Progress α S n) : Report α where
  status := p.status
  iteration := p.iteration
  objective := p.value
  stationarity := p.stationarity
  acceptedSteps := p.acceptedSteps
  innerIterations := p.innerIterations
  radius := p.state.region.radius
  evaluations := p.evaluations

end BoxNewton
