import BoxNewton.LinearOperator
import BoxNewton.SecantMemory

/-!
# What the minimizer asks

The minimizer asks its objective for values, gradients and products of the Hessian; it asks a clock
whether the time is up; and it shows every point it has reached to an observer, who may hand back
another point and gradient and may ask for the end.

Second-order information comes from the objective itself, or from a secant memory in its place.
-/

set_option autoImplicit false

namespace BoxNewton

/-- The questions of the minimizer. A vector to be filled is handed over as it is. -/
inductive Query (α : Type) (n : Nat) where
  | value (x : Vec α n)
  | gradient (x out : Vec α n)
  | valueGradient (x out : Vec α n)
  | product (x v out : Vec α n)
  | observe (x g : Vec α n) (report : Report α)
  | outOfTime (limit : Float)

/-- What the observer hands back. -/
structure Observation (α : Type) (n : Nat) where
  x : Vec α n
  g : Vec α n
  status : Status

/-- The answers to the questions. -/
@[reducible] def Query.Reply {α : Type} {n : Nat} : Query α n → Type
  | value _ => α
  | gradient _ _ => Vec α n
  | valueGradient _ _ => α × Vec α n
  | product _ _ _ => Vec α n
  | observe _ _ _ => Observation α n
  | outOfTime _ => Bool

/-- Computations that ask the questions of the minimizer. -/
abbrev SolverDialogue (α : Type) (n : Nat) (β : Type) : Type :=
  Dialogue (Note α) (Query α n) Query.Reply β

namespace Query

variable {α : Type} {n : Nat}

/-- Asks for the value. -/
def askValue (x : Vec α n) : SolverDialogue α n α := Dialogue.question (value x)

/-- Asks for the gradient. -/
def askGradient (x out : Vec α n) : SolverDialogue α n (Vec α n) :=
  Dialogue.question (gradient x out)

/-- Asks for the value and the gradient at once. -/
def askBoth (x out : Vec α n) : SolverDialogue α n (α × Vec α n) :=
  Dialogue.question (valueGradient x out)

/-- Asks for the product of the Hessian at `x` with `v`. -/
def askProduct (x v out : Vec α n) : SolverDialogue α n (Vec α n) :=
  Dialogue.question (product x v out)

/-- Shows a point to the observer. -/
def askObserver (x g : Vec α n) (report : Report α) : SolverDialogue α n (Observation α n) :=
  Dialogue.question (observe x g report)

/-- Asks whether more than the given time has passed. -/
def askTime (limit : Float) : SolverDialogue α n Bool := Dialogue.question (outOfTime limit)

end Query

/-- Where second-order information comes from. -/
inductive HessianModel (α : Type) (n : Nat) where
  /-- From the objective. -/
  | exact
  /-- From the accepted steps. -/
  | secant (memory : SecantMemory α n)

namespace HessianModel

variable {α : Type} [Scalar α] {n : Nat}

/-- Answers a question for a product of the Hessian at `x`. The state is the number of products that
the objective was asked for. -/
def answer (model : HessianModel α n) (x : Vec α n) (q : Product α n) (asked : Nat) :
    SolverDialogue α n (Vec α n × Nat) :=
  match model with
  | exact => do
    let hv ← Query.askProduct x q.direction q.out
    return (hv, asked + 1)
  | secant memory => return (memory.apply q.direction, asked)

/-- Forgets what was learnt from steps. -/
def reset : HessianModel α n → HessianModel α n
  | exact => exact
  | secant memory => secant memory.reset

/-- The same source in another dimension, before the first step there. -/
def emptied (m : Nat) : HessianModel α n → HessianModel α m
  | exact => exact
  | secant memory => secant (memory.emptied m)

/-- Learns from an accepted step. -/
def learn (model : HessianModel α n) (pair : SecantPair α n) :
    SolverDialogue α n (HessianModel α n) :=
  match model with
  | exact => return exact
  | secant memory => do
    let (stored, memory) := memory.push pair
    Dialogue.remarkWhen (!stored) (.pairSkipped pair.curvature)
    return secant memory

end HessianModel

end BoxNewton
