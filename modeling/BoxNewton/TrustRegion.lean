import BoxNewton.Dialogue
import BoxNewton.Options
import BoxNewton.Report

/-!
# The trust region

A step is judged by the ratio of the reduction that it brought to the reduction that the model
predicted. Both are shifted by a multiple of the round-off in the objective. When round-off
dominates them, the reduction is estimated from the gradient at the trial point, which is asked for
only then.

The ratio decides about the step, and together with an interpolation of the objective along the step
it decides about the next radius. A radius that would not be positive is replaced by a strong
decrease, and no radius exceeds the largest one.
-/

set_option autoImplicit false

namespace BoxNewton

/-- The state of the trust region. -/
structure TrustRegion (α : Type) where
  startRadius : α
  radius : α
  /-- The ratio of actual and predicted reduction of the last step. -/
  ratio : α
  /-- Where along the last step an interpolation has its least value. -/
  interpolation : α

/-- What is known of a trial step. -/
structure Trial (α : Type) where
  /-- The objective at the point that the step starts from. -/
  before : α
  /-- The objective at the trial point. -/
  after : α
  /-- The model at the step. -/
  model : α
  /-- The slope of the objective along the step. -/
  slope : α

namespace Trial

variable {α : Type} [Scalar α]

/-- The round-off that reductions are shifted by. -/
def shift (t : Trial α) : α := Scalar.larger (Scalar.abs t.before) 1 * Scalar.epsilon * 10.0

/-- The change of the objective that the model predicts. -/
def predicted (t : Trial α) : α := t.model - t.shift

/-- The change of the objective that the step brought. -/
def actual (t : Trial α) : α := t.after - t.before + t.shift

/-- A change below this, relative to the objective, is dominated by round-off. -/
def roundoff : α := Scalar.epsilon * 1e4

/-- Whether round-off dominates the model or the change of the objective. -/
def IsNearRoundoff (t : Trial α) : Prop :=
  Scalar.abs t.model < roundoff ∨ Scalar.abs t.actual < roundoff * Scalar.abs t.before

instance (t : Trial α) : Decidable t.IsNearRoundoff := inferInstanceAs (Decidable (_ ∨ _))

/-- The change of the objective, from the slopes at both ends of the step. -/
def estimated (t : Trial α) (trialSlope : α) : α := (trialSlope + t.slope) / (1 + 1)

/-- Where along the step a parabola through the known values has its least value, within the factors
of decrease and increase. -/
def interpolated (o : RegionOptions α) (t : Trial α) : α :=
  let gamma := t.after - t.before - t.slope
  if gamma ≤ 0 then o.growth
  else Scalar.larger o.strongShrink (-t.slope / ((1 + 1) * gamma))

end Trial

/-- Computations that may ask for the gradient at the trial point. -/
abbrev GradientDialogue (α : Type) (n : Nat) (β : Type) : Type :=
  Dialogue (Note α) Unit (fun _ => Vec α n) β

/-- A judged step: the region that knows the ratio, and the gradient at the trial point if it was
asked for. -/
structure Rating (α : Type) (n : Nat) where
  region : TrustRegion α
  gradient : Option (Vec α n)

namespace TrustRegion

variable {α : Type} [Scalar α] {n : Nat}

/-- The region before the first minimization. -/
def initial : TrustRegion α := ⟨1, 1, 0, 1⟩

/-- Sets the radius to start from. -/
def start (o : RegionOptions α) (region : TrustRegion α) (radius : α) : TrustRegion α :=
  let radius := Scalar.smaller radius o.largestRadius
  { region with startRadius := radius, radius }

/-- Goes back to the radius to start from. -/
def reset (region : TrustRegion α) : TrustRegion α :=
  { region with radius := region.startRadius, ratio := 0, interpolation := 1 }

/-- Whether the last step is accepted. -/
def Accepts (o : RegionOptions α) (region : TrustRegion α) : Prop :=
  o.acceptFrom ≤ region.ratio

instance (o : RegionOptions α) (region : TrustRegion α) : Decidable (region.Accepts o) :=
  inferInstanceAs (Decidable (_ ≤ _))

/-- The region after a step with the given reductions. -/
def judged (o : RegionOptions α) (region : TrustRegion α) (t : Trial α) (actual : α) :
    TrustRegion α :=
  { region with ratio := actual / t.predicted, interpolation := t.interpolated o }

/-- Judges a step. There is no judgement if the model does not predict a decrease. -/
def rate (o : RegionOptions α) (region : TrustRegion α) (t : Trial α) (step : Vec α n) :
    GradientDialogue α n (Option (Rating α n)) := do
  if ¬ t.predicted < 0 then
    Dialogue.remark (.predictionNotNegative t.predicted)
    return none
  else if ¬ Scalar.IsFinite t.after then
    Dialogue.remark .trialNotFinite
    let region :=
      { region with ratio := -Scalar.infinity, interpolation := o.strongShrink }
    return some { region, gradient := none }
  else if t.IsNearRoundoff then
    let gt ← Dialogue.question ()
    let actual := t.estimated (gt.dot step)
    Dialogue.remark (.reductionEstimated actual)
    let region := region.judged o t actual
    Dialogue.remark (.gainRatio actual t.predicted region.ratio)
    return some { region, gradient := some gt }
  else
    let region := region.judged o t t.actual
    Dialogue.remark (.gainRatio t.actual t.predicted region.ratio)
    return some { region, gradient := none }

/-! ## The radius -/

/-- Limits the radius by the norm of the step, unless that is zero. -/
def limitBy (region : TrustRegion α) (norm : α) : TrustRegion α :=
  if 0 < norm ∧ norm < region.radius then { region with radius := norm } else region

/-- The radius that the last ratio asks for, before it is limited. -/
def wantedRadius (o : RegionOptions α) (region : TrustRegion α) (norm : α) : α :=
  let old := region.radius
  let reach := region.interpolation * norm
  if region.ratio < o.acceptFrom then
    Scalar.smaller (Scalar.larger region.interpolation o.strongShrink * norm)
      (o.mildShrink * old)
  else if region.ratio < o.shrinkBelow then
    Scalar.larger (o.strongShrink * old)
      (Scalar.smaller reach (o.mildShrink * old))
  else if region.ratio < o.growFrom then
    Scalar.larger (o.strongShrink * old)
      (Scalar.smaller reach (o.growth * old))
  else
    Scalar.larger old (Scalar.smaller reach (o.growth * old))

/-- Updates the radius after a step of the given norm. -/
def update (o : RegionOptions α) (region : TrustRegion α) (norm : α) : TrustRegion α :=
  let radius := Scalar.smaller (region.wantedRadius o norm) o.largestRadius
  { region with radius := if 0 < radius then radius else o.strongShrink * region.radius }

end TrustRegion

end BoxNewton
