import BoxNewton.Box
import BoxNewton.QuadraticModel

/-!
# Projected search

Along a direction `d`, the search walks back on the projected path `P(x + a d)` from `a = 1`,
halving the step length until the model decreases sufficiently. It never walks back beyond the first
breakpoint of the path: the step length then becomes that breakpoint, where the point lies on a face
of the box, and is taken as it is. A path that meets no finite bound is walked back without limit.
-/

set_option autoImplicit false

namespace BoxNewton

/-- A search along the projected path of a direction. -/
structure ProjectedSearch (α : Type) [Scalar α] (n : Nat) where
  box : Box α n
  x : Vec α n
  d : Vec α n
  /-- The gradient of the model at `x`. -/
  g : Vec α n
  /-- The fraction of the slope that the model has to fall by. -/
  mu0 : α

/-- Where a projected search ended. -/
structure SearchResult (α : Type) (n : Nat) where
  length : α
  step : Vec α n
  point : Vec α n

namespace ProjectedSearch

variable {α : Type} [Scalar α] {n : Nat}

/-- The step at a step length. -/
def step (search : ProjectedSearch α n) (length : α) : Vec α n :=
  search.box.projectedStep search.x search.d length

/-- The step length that the search does not go below: the first breakpoint, if it is finite. -/
def shortest (search : ProjectedSearch α n) : α :=
  let first := (search.box.breakpoints search.x search.d).min
  if Scalar.IsFinite first then first else 0

/-- Halves the step length until the step is accepted or the length is not above the shortest.
`hs` is what the last product left. -/
def backtrack (search : ProjectedSearch α n) :
    (fuel : Nat) → (length : α) → (hs : Vec α n) → OperatorDialogue α n α
  | 0, _, _ => .exhausted
  | fuel + 1, length, hs =>
    if search.shortest < length then do
      let m ← ModelValue.measure search.g (search.step length) hs
      if m.IsSufficient search.mu0 then return length
      else search.backtrack fuel (length * (1 / (1 + 1))) m.image
    else return length

/-- The point at the end of a step, put back into the box if rounding has carried it out. -/
def land (search : ProjectedSearch α n) (s : Vec α n) : Vec α n := search.box.project (search.x + s)

/-- Searches along the path. -/
def find (search : ProjectedSearch α n) (fuel : Nat) (hs : Vec α n) :
    OperatorDialogue α n (SearchResult α n) := do
  let reached ← search.backtrack fuel 1 hs
  let snaps := decide (reached < 1 ∧ reached < search.shortest)
  Dialogue.remarkWhen snaps (.searchSnapped reached search.shortest)
  let length := if snaps then search.shortest else reached
  let step := search.step length
  Dialogue.remark (.searchEnded length)
  return { length, step, point := search.land step }

end ProjectedSearch

end BoxNewton
