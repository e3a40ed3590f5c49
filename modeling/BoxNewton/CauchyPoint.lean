import BoxNewton.Box
import BoxNewton.Options
import BoxNewton.QuadraticModel

/-!
# The generalized Cauchy point

Along the projected steepest descent path `s(a) = P(x - a g) - x`, the Cauchy point is a step that
fits in a multiple of the trust region and decreases the quadratic model sufficiently. The search
starts from the step length of the previous iteration. If that one fails, it is divided by `sigma`
until it does not; if it holds, it is multiplied by `sigma` as long as the path still changes and
the step fits, and the longest step length that held is taken.
-/

set_option autoImplicit false

namespace BoxNewton

/-- A search for the Cauchy point. -/
structure CauchySearch (α : Type) [Scalar α] (n : Nat) where
  box : Box α n
  x : Vec α n
  g : Vec α n
  /-- The steepest descent direction. -/
  d : Vec α n
  /-- The fraction of the slope that the model has to fall by. -/
  mu0 : α
  /-- The norm that the step must not exceed. -/
  maxNorm : α
  /-- The factor between two step lengths. -/
  sigma : α

/-- How a search for the Cauchy point ended. -/
inductive CauchyOutcome (α : Type) (n : Nat) where
  /-- A step length, its step and the product of the Hessian with the step. -/
  | found (length : α) (step image : Vec α n)
  /-- The step length underflowed. What the last product left is handed back. -/
  | underflow (length : α) (image : Vec α n)

namespace CauchySearch

variable {α : Type} [Scalar α] {n : Nat}

/-- The search from a point with a gradient, along the steepest descent and within a multiple of a trust
region. -/
def within (options : Options α) (box : Box α n) (x g : Vec α n) (radius : α) : CauchySearch α n where
  box
  x
  g
  d := -g
  mu0 := options.mu0
  maxNorm := options.mu1 * radius
  sigma := options.sigma

/-- The step at a step length. -/
def step (search : CauchySearch α n) (length : α) : Vec α n :=
  search.box.projectedStep search.x search.d length

/-- The model at a step. -/
def measure (search : CauchySearch α n) (s out : Vec α n) : OperatorDialogue α n (ModelValue α n) :=
  ModelValue.measure search.g s out

/-- Divides the step length until the step holds. `hs` is what the last product left. -/
def shrink (search : CauchySearch α n) :
    (fuel : Nat) → (length : α) → (hs : Vec α n) → OperatorDialogue α n (CauchyOutcome α n)
  | 0, _, _ => .exhausted
  | fuel + 1, previous, hs => do
    let length := previous / search.sigma
    let s := search.step length
    let (fails, hs) ←
      if s.norm ≤ search.maxNorm then do
        let m ← search.measure s hs
        pure (decide (m.IsInsufficient search.mu0), m.image)
      else pure (true, hs)
    if length < Scalar.tinyStep then
      Dialogue.remark (.cauchyUnderflows length)
      return .underflow length hs
    else if fails then search.shrink fuel length hs
    else return .found length s hs

/-- Multiplies the step length up to the last breakpoint, as long as the step fits. Returns the
longest step length that held, and what the last product left. -/
def extend (search : CauchySearch α n) (lastBreakpoint : α) :
    (fuel : Nat) → (length held : α) → (hs : Vec α n) → OperatorDialogue α n (α × Vec α n)
  | 0, _, _, _ => .exhausted
  | fuel + 1, previous, held, hs =>
    if previous ≤ lastBreakpoint then do
      let length := previous * search.sigma
      let s := search.step length
      if s.norm ≤ search.maxNorm then
        let m ← search.measure s hs
        let held := if m.IsSufficient search.mu0 then length else held
        search.extend lastBreakpoint fuel length held m.image
      else return (held, hs)
    else return (held, hs)

/-- Notes the step that was found. -/
def announce (outcome : CauchyOutcome α n) : OperatorDialogue α n (CauchyOutcome α n) := do
  if let .found length s _ := outcome then
    Dialogue.remark (.cauchyFound length s.norm)
  return outcome

/-- Finds the Cauchy point, starting from the given step length. -/
def find (search : CauchySearch α n) (fuel : Nat) (length : α) (hs : Vec α n) :
    OperatorDialogue α n (CauchyOutcome α n) := do
  let brk := search.box.breakpoints search.x search.d
  let s := search.step length
  let m ← search.measure s hs
  if search.maxNorm < s.norm ∨ m.IsInsufficient search.mu0 then
    Dialogue.remark (.cauchyShrinks length)
    announce (← search.shrink fuel length m.image)
  else
    Dialogue.remark (.cauchyExtends length)
    let (length, hs) ←
      if 0 < brk.count then search.extend brk.max fuel length length m.image
      else pure (length, m.image)
    let s := search.step length
    let image ← Product.request s hs
    announce (.found length s image)

end CauchySearch

end BoxNewton
