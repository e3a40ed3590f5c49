import BoxNewton.Scalar

/-!
# Options

The options of the minimizer and of its trust region, their defaults, and the ranges in which they
are usable. Every range is tested by comparisons that must hold, so an option that is not a number
is refused. The faults are reported in one fixed order, the first one that applies.
-/

set_option autoImplicit false

namespace BoxNewton

/-- How the trust region reacts to the ratio of actual and predicted reduction. -/
structure RegionOptions (α : Type) where
  /-- The radius never exceeds this. -/
  largestRadius : α
  /-- A step is accepted from this ratio on. -/
  acceptFrom : α
  /-- Below this ratio the radius is decreased. -/
  shrinkBelow : α
  /-- From this ratio on the radius may be increased. -/
  growFrom : α
  /-- The strongest decrease of the radius. -/
  strongShrink : α
  /-- A moderate decrease of the radius. -/
  mildShrink : α
  /-- The increase of the radius. -/
  growth : α

/-- The options of the minimizer. -/
structure Options (α : Type) where
  /-- The fraction of the linear decrease that the Cauchy point and the projected search ask for. -/
  mu0 : α
  /-- The Cauchy step fits in `mu1` times the radius. -/
  mu1 : α
  /-- The factor by which the Cauchy step length is shrunk or extended. -/
  sigma : α
  /-- The limit on evaluations of the objective, none if negative. -/
  maxEvaluations : Int
  /-- The limit on elapsed seconds. -/
  maxTime : Float
  /-- The limit on iterations. -/
  maxIterations : Nat
  /-- The limit on subproblem iterations in one refinement. -/
  maxInnerIterations : Nat
  /-- Whether values and gradients are asked for together. -/
  combinedEvaluation : Bool
  /-- The relative tolerance of the subproblem solver and of the refinement. -/
  innerTolerance : α
  /-- The absolute tolerance for the norm of the projected gradient. -/
  absoluteTolerance : α
  /-- The tolerance relative to the norm of the projected gradient at the start. -/
  relativeTolerance : α
  /-- Progress is noted every so many iterations, never if zero. -/
  verbosity : Nat
  region : RegionOptions α

section Defaults

variable {α : Type} [Scalar α]

/-- The default options of the trust region. -/
def RegionOptions.standard : RegionOptions α where
  largestRadius := 1 / Scalar.sqrtEpsilon
  acceptFrom := 1e-4
  shrinkBelow := 0.25
  growFrom := 0.75
  strongShrink := 0.25
  mildShrink := 0.5
  growth := 4.0

/-- The default options. Sizes and counts are machine words, so "no limit" is the largest word. -/
def Options.standard : Options α where
  mu0 := 1e-2
  mu1 := 1
  sigma := 10.0
  maxEvaluations := -1
  maxTime := 30.0
  maxIterations := UInt64.size - 1
  maxInnerIterations := 50
  combinedEvaluation := false
  innerTolerance := 0.1
  absoluteTolerance := Scalar.sqrtEpsilon
  relativeTolerance := Scalar.sqrtEpsilon
  verbosity := 0
  region := RegionOptions.standard

end Defaults

/-! ## Validation -/

/-- The first option that is out of its range. -/
inductive OptionFault where
  | mu0
  | mu1
  | sigma
  | innerTolerance
  | tolerances
  | maxInnerIterations
  | largestRadius
  | thresholds
  | factors
  deriving Repr, DecidableEq

/-- The wording of a fault. -/
def OptionFault.message : OptionFault → String
  | .mu0 => "mu0 must lie in (0, 1/2)"
  | .mu1 => "mu1 must be positive"
  | .sigma => "sigma must be greater than one"
  | .innerTolerance => "cg_tol must lie in (0, 1)"
  | .tolerances => "tolerances must be nonnegative"
  | .maxInnerIterations => "max_cg_iter must be positive"
  | .largestRadius => "max radius must be positive"
  | .thresholds => "trust region thresholds must be increasing in (0, 1)"
  | .factors => "trust region factors must satisfy 0 < large < small < 1 < increase"

variable {α : Type} [Scalar α]

/-- The first fault of the trust-region options, if there is one. -/
def RegionOptions.fault? (o : RegionOptions α) : Option OptionFault :=
  if ¬ 0 < o.largestRadius then some .largestRadius
  else if ¬ (0 < o.acceptFrom ∧ o.acceptFrom ≤ o.shrinkBelow ∧
      o.shrinkBelow < o.growFrom ∧ o.growFrom < 1) then some .thresholds
  else if ¬ (0 < o.strongShrink ∧ o.strongShrink < o.mildShrink ∧
      o.mildShrink < 1 ∧ 1 < o.growth) then some .factors
  else none

/-- The first fault of the options, if there is one. -/
def Options.fault? (o : Options α) : Option OptionFault :=
  if ¬ (0 < o.mu0 ∧ o.mu0 < 0.5) then some .mu0
  else if ¬ 0 < o.mu1 then some .mu1
  else if ¬ 1 < o.sigma then some .sigma
  else if ¬ (0 < o.innerTolerance ∧ o.innerTolerance < 1) then some .innerTolerance
  else if ¬ (0 ≤ o.absoluteTolerance ∧ 0 ≤ o.relativeTolerance) then some .tolerances
  else if o.maxInnerIterations = 0 then some .maxInnerIterations
  else o.region.fault?

end BoxNewton
