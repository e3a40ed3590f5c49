import BoxNewton.LinearOperator

/-!
# The trust-region subproblem

The subproblem is to solve `A x = b` approximately, within the ball of a given radius. A subsolver
learns about `A` only by asking for products, so it is a family of dialogues, one for each
dimension, right-hand side and limit; whatever it wants to keep for later calls is its own state.

`stepToBoundary` leads from a point of the ball to the boundary, along a direction.
-/

set_option autoImplicit false

namespace BoxNewton

/-- What a subsolver reports beside its solution. -/
structure SubproblemResult where
  status : SubproblemStatus
  /-- The number of iterations, one product each. -/
  iterations : Nat
  deriving Repr, DecidableEq

/-- A method for trust-region subproblems. -/
structure Subsolver (α : Type) where
  name : String
  /-- What is kept from one call to the next. -/
  State : Type
  initial : State
  /-- Solves `A x = b` within the ball of radius `radius` until the residual is at most
  `tolerance` times the norm of `b` or `limit` products have been asked for. The solution replaces
  `out`. -/
  solve : {n : Nat} → State → (b : Vec α n) → (radius tolerance : α) → (limit : Nat) →
    (out : Vec α n) → OperatorDialogue α n ((SubproblemResult × Vec α n) × State)

/-- The subsolver that answers every right-hand side by a fixed multiple of it, without asking for
products, and always reports the same. -/
def Subsolver.multiple {α : Type} [Mul α] (factor : α) (result : SubproblemResult) :
    Subsolver α where
  name := "multiple of the right-hand side"
  State := Unit
  initial := ()
  solve _ b _ _ _ _ := pure ((result, b.map (factor * ·)), ())

variable {α : Type} [Scalar α] {n : Nat}

/-- The length of the step from `x` along `p` to the boundary of the ball: the larger root of
`‖x + τ p‖ = radius`. Of its two algebraic forms the one without cancellation is taken. -/
def stepToBoundary (x p : Vec α n) (radius : α) : α :=
  let a := p.normSq
  let b := x.dot p
  let c := x.normSq - radius * radius
  let d := Scalar.sqrt (Scalar.larger (b * b - a * c) 0)
  if b ≤ 0 then (d - b) / a else -c / (b + d)

end BoxNewton
