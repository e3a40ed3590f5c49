import BoxNewton.Status
import BoxNewton.Text.Scientific

/-!
# Reports and notes

A report says where a minimization stands. Notes are what its parts leave on their way: which branch
was taken, with which numbers. A note holds the numbers themselves; how numbers are written is up to
whoever reads the notes.
-/

set_option autoImplicit false

namespace BoxNewton

/-- How often the objective was asked for what. -/
structure Evaluations where
  objective : Nat
  gradient : Nat
  product : Nat
  deriving Repr, DecidableEq

/-- No evaluation yet. -/
def Evaluations.zero : Evaluations := ⟨0, 0, 0⟩

/-- Where a minimization stands. -/
structure Report (α : Type) where
  status : Status
  /-- The number of iterations. -/
  iteration : Nat
  /-- The value of the objective at the current point. -/
  objective : α
  /-- The norm of the projected gradient at the current point. -/
  stationarity : α
  /-- The number of accepted steps. -/
  acceptedSteps : Nat
  /-- The number of subproblem iterations in all refinements. -/
  innerIterations : Nat
  /-- The radius of the trust region. -/
  radius : α
  evaluations : Evaluations

/-- The importance of a note. -/
inductive Level where
  | debug
  | info
  | warn
  deriving Repr, DecidableEq

/-- What the parts of a minimization have to say. -/
inductive Note (α : Type) where
  | startProjected
  | started (objective stationarity tolerance radius : α)
  | progressHeader
  | progress (report : Report α) (ratio : α)
  | finished (iteration : Nat) (status : Status)
  | cauchyShrinks (length : α)
  | cauchyExtends (length : α)
  | cauchyUnderflows (length : α)
  | cauchyFound (length norm : α)
  | cauchyFailed (length : α)
  | curvatureNotPositive (curvature : α) (iteration : Nat) (length : α)
  | boundaryCrossed (iteration : Nat) (wanted length : α)
  | subproblemConverged (iteration : Nat)
  | subproblemLimit (limit : Nat)
  | searchSnapped (length breakpoint : α)
  | searchEnded (length : α)
  | nothingFree
  | refinementPass (free iterations : Nat) (status : SubproblemStatus) (residual start : α)
  | refinementEnded (status : RefinementStatus) (iterations : Nat)
  | pairSkipped (curvature : α)
  | predictionNotNegative (prediction : α)
  | trialNotFinite
  | reductionEstimated (actual : α)
  | gainRatio (actual predicted ratio : α)
  | radiusShrunk (old new : α)
  | radiusUpdated (old new ratio norm : α)
  | stepAccepted (objective stationarity : α)
  | stepRejected (ratio : α)
  | noDecreasePredicted (model : α)

/-- How the numbers of a note are written. -/
structure NumberFormat (α : Type) where
  /-- A scalar within a sentence. -/
  scalar : α → String
  /-- A count within a sentence. -/
  count : Nat → String
  /-- A scalar in a column of the progress table. -/
  column : α → String

/-- The scalars of the progress table have four places and stand in columns of twelve. -/
def progressColumn : Text.Scientific := ⟨4, 12⟩

/-- The name under which the minimizer is known. -/
def methodName : String := "TRON"

/-- One row of the progress table. -/
def progressRow (cells : List (Nat × String)) : String :=
  "  ".intercalate (cells.map fun (width, text) => Text.alignRight width text)

namespace Note

variable {α : Type}

/-- The importance of a note. -/
def level : Note α → Level
  | .progressHeader => .info
  | .progress .. => .info
  | .cauchyFailed .. => .warn
  | .noDecreasePredicted .. => .warn
  | _ => .debug

/-- The wording of a note. -/
def text (format : NumberFormat α) : Note α → String :=
  let x := format.scalar
  let k := format.count
  fun
  | .startProjected => "initial point is not feasible, performing the projection"
  | .started objective stationarity tolerance radius =>
    s!"initial f = {x objective}, || P(g) || = {x stationarity}, tolerance = {x tolerance}, " ++
      s!"radius = {x radius}"
  | .progressHeader =>
    progressRow [(6, "iter"), (12, "f"), (12, "dual"), (12, "radius"), (12, "ratio"), (6, "inner")]
  | .progress report ratio =>
    progressRow [(6, toString report.iteration), (12, format.column report.objective),
      (12, format.column report.stationarity), (12, format.column report.radius),
      (12, format.column ratio), (6, toString report.innerIterations)]
  | .finished iteration status =>
    s!"{methodName} finished after {k iteration} iterations: " ++ status.description
  | .cauchyShrinks length => s!"shrink Cauchy step length from alpha = {x length}"
  | .cauchyExtends length => s!"extend Cauchy step length from alpha = {x length}"
  | .cauchyUnderflows length => s!"Cauchy step length underflowed (alpha = {x length})"
  | .cauchyFound length norm => s!"Cauchy step length alpha = {x length}, || s || = {x norm}"
  | .cauchyFailed length => s!"Cauchy step length underflowed, alpha = {x length}"
  | .curvatureNotPositive curvature iteration length =>
    s!"nonpositive curvature {x curvature} in CG iteration {k iteration}, tau = {x length}"
  | .boundaryCrossed iteration wanted length =>
    s!"CG iteration {k iteration} crosses the boundary, alpha = {x wanted}, tau = {x length}"
  | .subproblemConverged iteration => s!"CG converged in {k iteration} iterations"
  | .subproblemLimit limit => s!"CG reached maximum number of iterations {k limit}"
  | .searchSnapped length breakpoint =>
    s!"snap line search step length from {x length} to breakpoint {x breakpoint}"
  | .searchEnded length => s!"line search step length alpha = {x length}"
  | .nothingFree => "no free variables, stationary point found"
  | .refinementPass free iterations status residual start =>
    s!"projected Newton: {k free} free variables, {k iterations} subsolver iterations (" ++
      status.name ++ s!"), residual {x residual} / {x start}"
  | .refinementEnded status iterations =>
    "projected Newton finished (" ++ status.name ++
      s!") after {k iterations} subsolver iterations"
  | .pairSkipped curvature => s!"skipping quasi-Newton pair with curvature {x curvature}"
  | .predictionNotNegative prediction =>
    s!"predicted reduction {x prediction} is not negative"
  | .trialNotFinite => "function value in the trial point is not finite"
  | .reductionEstimated actual =>
    s!"reductions near round-off, actual reduction estimated as {x actual}"
  | .gainRatio actual predicted ratio =>
    s!"gain ratio = {x actual} / {x predicted} = {x ratio}"
  | .radiusShrunk old new => s!"shrink initial radius from {x old} to {x new}"
  | .radiusUpdated old new ratio norm =>
    s!"update radius from {x old} to {x new} (ratio = {x ratio}, || s || = {x norm})"
  | .stepAccepted objective stationarity =>
    s!"step accepted, f = {x objective}, || P(g) || = {x stationarity}"
  | .stepRejected ratio => s!"step rejected, ratio = {x ratio}"
  | .noDecreasePredicted model => s!"predicted reduction is not negative (q(s) = {x model})"

end Note

end BoxNewton
