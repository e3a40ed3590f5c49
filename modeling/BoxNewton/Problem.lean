import BoxNewton.Domain

/-!
# Problems

An objective is known by what it answers: its value, its gradient, both at once, and the product of
its Hessian with a vector. It is handed arrays, because a problem can be asked about points of any
size, and it may refuse those that do not fit. Vectors are written into an array that is handed to
it as well, so an objective that writes some of the entries leaves the others as they were.

A problem is an objective with a domain. Only minimization over simple bounds can be handled, and
`Problem.error?` says what is wrong with a problem first of all.
-/

set_option autoImplicit false

namespace BoxNewton

/-- An objective, by its answers. -/
structure Objective (α : Type) where
  value : (x : Array α) → Except Misfit α
  gradient : (x out : Array α) → Except Misfit (Array α)
  valueGradient : (x out : Array α) → Except Misfit (α × Array α)
  product : (x v out : Array α) → Except Misfit (Array α)

/-- The combined answer of an objective that has no better way: the gradient, then the value. -/
def separately {α : Type} (value : Array α → Except Misfit α)
    (gradient : Array α → Array α → Except Misfit (Array α)) (x out : Array α) :
    Except Misfit (α × Array α) := do
  let g ← gradient x out
  return (← value x, g)

/-- The direction of an optimization. -/
inductive Sense where
  | minimize
  | maximize
  deriving Repr, DecidableEq

/-- An objective over a domain. -/
structure Problem (α : Type) [Scalar α] where
  objective : Objective α
  domain : Domain α
  sense : Sense
  /-- Whether there are constraints beyond the bounds of the domain. -/
  hasOtherConstraints : Bool

/-- A minimization over simple bounds. -/
def Problem.minimize {α : Type} [Scalar α] (objective : Objective α) (domain : Domain α) :
    Problem α :=
  { objective, domain, sense := .minimize, hasOtherConstraints := false }

/-- The domain of a problem, once its bounds are stored. A problem can answer questions without. -/
def Problem.domain? {α : Type} [Scalar α] (p : Problem α) : Except DomainFault (Domain α) :=
  p.domain.stored?

/-- What keeps a problem from being solved. -/
inductive ProblemError where
  | notMinimization
  | otherConstraints
  | invalidDimension
  deriving Repr, DecidableEq

/-- The wording of an error. -/
def ProblemError.message : ProblemError → String
  | .notMinimization => "problem is not a minimization problem"
  | .otherConstraints => "problem has constraints other than simple bounds"
  | .invalidDimension => "invalid dimensionality"

/-- The first thing that is wrong with a problem on a domain, for a point of the given size. -/
def Problem.error? {α : Type} [Scalar α] (p : Problem α) (dom : Domain α) (size : Nat) :
    Option ProblemError :=
  if p.sense ≠ .minimize then some .notMinimization
  else if p.hasOtherConstraints then some .otherConstraints
  else if dom.dim ≠ size then some .invalidDimension
  else none

end BoxNewton
