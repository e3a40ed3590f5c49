/-!
# How runs end

The minimizer, the solver of the trust-region subproblem and the refinement of a step each end for
one of a few reasons.
-/

set_option autoImplicit false

namespace BoxNewton

/-- Why a minimization ended, or that it has not. -/
inductive Status where
  /-- It is still running. -/
  | unknown
  /-- The projected gradient is small enough. -/
  | firstOrder
  /-- The objective fell below every plausible value. -/
  | unbounded
  /-- Too many evaluations of the objective. -/
  | maxEvaluations
  /-- Too much time. -/
  | maxTime
  /-- Too many iterations. -/
  | maxIterations
  /-- The observer asked for the end. -/
  | user
  /-- The quadratic model did not predict a decrease. -/
  | noPredictedDecrease
  /-- The length of the Cauchy step underflowed. -/
  | smallStep
  deriving Repr, DecidableEq, Inhabited

namespace Status

/-- Whether the final point is a first-order stationary point. -/
def isStationary (status : Status) : Bool := status == .firstOrder

/-- The wording of a status. -/
def description : Status → String
  | .unknown => "unknown"
  | .firstOrder => "first-order stationary"
  | .unbounded => "objective function unbounded below"
  | .maxEvaluations => "maximum number of evaluations"
  | .maxTime => "maximum elapsed time"
  | .maxIterations => "maximum number of iterations"
  | .user => "user-requested stop"
  | .noPredictedDecrease => "negative predicted reduction"
  | .smallStep => "step too small"

end Status

/-- Why a subproblem solver ended. -/
inductive SubproblemStatus where
  /-- The residual is small enough. -/
  | converged
  /-- The iterate reached the boundary of the trust region. -/
  | onBoundary
  /-- The iteration limit was reached. -/
  | maxIterations
  deriving Repr, DecidableEq

/-- The name under which a status is noted. -/
def SubproblemStatus.name : SubproblemStatus → String
  | .converged => "Converged"
  | .onBoundary => "OnBoundary"
  | .maxIterations => "MaxIter"

/-- Why the refinement of a step ended. -/
inductive RefinementStatus where
  /-- The model is stationary in the free variables, or none is free. -/
  | stationaryPoint
  /-- The subproblem solver reached the boundary of the trust region. -/
  | onBoundary
  /-- The iterations are used up. -/
  | maxIterations
  deriving Repr, DecidableEq

/-- The name under which a status is noted. -/
def RefinementStatus.name : RefinementStatus → String
  | .stationaryPoint => "StationaryPoint"
  | .onBoundary => "OnBoundary"
  | .maxIterations => "MaxIter"

end BoxNewton
