import BoxNewton.ProjectedSearch
import BoxNewton.Subproblem

/-!
# Refining a step on the free variables

After the Cauchy step, the model is minimized further by a projected Newton method. Each pass takes
the variables that are free for the gradient of the model, solves the Newton system for them within
the trust region, and searches along the solution within the bounds of these variables. The point,
the step and the product of the Hessian with the step move together.

The passes end when the model is stationary in the free variables, when the subsolver has reached
the boundary of the trust region, or when its iterations are used up.
-/

set_option autoImplicit false

namespace BoxNewton

/-- A refinement of a step. -/
structure Refinement (α : Type) [Scalar α] (n : Nat) where
  box : Box α n
  /-- The gradient of the objective at the point that the step starts from. -/
  g : Vec α n
  radius : α
  /-- The fraction of the slope that the projected search asks for. -/
  mu0 : α
  /-- The relative tolerance of the subsolver and of the whole refinement. -/
  tolerance : α
  /-- The limit on subsolver iterations. -/
  limit : Nat

namespace Refinement

variable {α : Type} [Scalar α] {n : Nat}

/-- What a refinement works on. -/
structure State (α : Type) (n : Nat) (S : Type) where
  /-- The point at the end of the step. -/
  x : Vec α n
  /-- The step. -/
  s : Vec α n
  /-- The product of the Hessian with the step. -/
  hs : Vec α n
  /-- The number of subsolver iterations so far. -/
  iterations : Nat
  /-- The state of the subsolver. -/
  subsolver : S

/-- The gradient of the model at the end of the step. -/
def modelGradient {S : Type} (r : Refinement α n) (st : State α n S) : Vec α n := r.g + st.hs

/-- The variables that are free for the gradient of the model. -/
def freeVariables {S : Type} (r : Refinement α n) (st : State α n S) : IndexSet (Fin n) :=
  r.box.freeVariables st.x (r.modelGradient st)

/-- Solves the Newton system of the free variables and searches along the solution. -/
def direct (r : Refinement α n) (subsolver : Subsolver α) (fuel : Nat)
    (st : State α n subsolver.State) (free : IndexSet (Fin n)) :
    OperatorDialogue α free.size
      ((SubproblemResult × subsolver.State) × SearchResult α free.size) := do
  let w := free.gather (r.modelGradient st)
  let ((result, d), state) ←
    subsolver.solve st.subsolver (-w) r.radius r.tolerance r.limit (Vec.zeros free.size)
  let search : ProjectedSearch α free.size :=
    { box := r.box.restrict free, x := free.gather st.x, d, g := w, mu0 := r.mu0 }
  let found ← search.find fuel (Vec.zeros free.size)
  return ((result, state), found)

/-- One pass on the free variables. Returns the new state, what the subsolver reported, and the
norms of the free gradient of the model before and after the pass. -/
def pass (r : Refinement α n) (subsolver : Subsolver α) (fuel : Nat)
    (st : State α n subsolver.State) (free : IndexSet (Fin n)) :
    OperatorDialogue α n
      (State α n subsolver.State × SubproblemResult × (α × α)) := do
  let start := (free.gather (r.modelGradient st)).norm
  let (((result, state), found), _) ←
    (r.direct subsolver fuel st free).through (Product.restricted free) (Vec.zeros n)
  let iterations ← Dialogue.addCount st.iterations result.iterations
  let s := free.accumulate found.step st.s
  let hs ← Product.request s st.hs
  let st : State α n subsolver.State :=
    { x := free.scatter found.point st.x, s, hs, iterations, subsolver := state }
  let residual := (free.gather (r.modelGradient st)).norm
  Dialogue.remark (.refinementPass free.size result.iterations result.status residual start)
  return (st, result, (start, residual))

/-- Repeats passes until there is a reason to stop. -/
def run (r : Refinement α n) (subsolver : Subsolver α) :
    (fuel : Nat) → State α n subsolver.State →
    OperatorDialogue α n (RefinementStatus × State α n subsolver.State)
  | 0, _ => .exhausted
  | fuel + 1, st => do
    let free := r.freeVariables st
    if free.isEmpty then
      Dialogue.remark .nothingFree
      return (.stationaryPoint, st)
    else
      let (st, result, (start, residual)) ← r.pass subsolver fuel st free
      if residual ≤ r.tolerance * start then return (.stationaryPoint, st)
      else if result.status = .onBoundary then return (.onBoundary, st)
      else if r.limit ≤ st.iterations then return (.maxIterations, st)
      else r.run subsolver fuel st

end Refinement

end BoxNewton
