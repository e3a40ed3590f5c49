import BoxNewton.IndexSet

/-!
# Boxes

A box holds the points whose entries lie between a lower and an upper bound. An infinite bound is no
bound. That no lower bound exceeds its upper bound is part of the type, so every box that a program
can get hold of was either checked or put together from checked parts. The bounds are functions of
the variable: a box without bounds or on selected variables is described, not laid out.

The algorithms ask a box for four things: the projection of a point, the projected step
`P(x + t d) - x` along a direction, the step lengths at which the path `x + t d` meets a bound, and
the variables that the steepest descent does not press against a bound.
-/

set_option autoImplicit false

namespace BoxNewton

/-- The points between two bounds. -/
structure Box (α : Type) [Scalar α] (n : Nat) where
  lower : Fin n → α
  upper : Fin n → α
  ordered : ∀ i : Fin n, lower i ≤ upper i

namespace Box

variable {α : Type} [Scalar α] {n : Nat}

/-- The box without bounds. -/
def unbounded (n : Nat) : Box α n where
  lower _ := -Scalar.infinity
  upper _ := Scalar.infinity
  ordered _ := Scalar.neg_infinity_le_infinity

/-- The box with the given bounds, if they are in order. -/
def between? (lower upper : Vec α n) : Option (Box α n) :=
  if h : ∀ i : Fin n, lower.get i ≤ upper.get i then some ⟨lower.get, upper.get, h⟩ else none

/-- Holds when none of the bounds is finite. -/
def IsUnbounded (box : Box α n) : Prop :=
  ∀ i : Fin n, ¬ Scalar.IsFinite (box.lower i) ∧ ¬ Scalar.IsFinite (box.upper i)

instance (box : Box α n) : Decidable box.IsUnbounded := Nat.decidableForallFin _

/-! ## Points -/

/-- The points of the box. -/
def Contains (box : Box α n) (x : Vec α n) : Prop :=
  ∀ i : Fin n, box.lower i ≤ x.get i ∧ x.get i ≤ box.upper i

instance (box : Box α n) (x : Vec α n) : Decidable (box.Contains x) := Nat.decidableForallFin _

/-- The point of an interval next to `x`. What is not a number stays. -/
def clamp (lo hi x : α) : α := if x < lo then lo else if hi < x then hi else x

/-- The scalars that `clamp` changes. -/
def IsOutside (lo hi x : α) : Prop := x < lo ∨ hi < x

instance (lo hi x : α) : Decidable (IsOutside lo hi x) := inferInstanceAs (Decidable (_ ∨ _))

/-- The point of the box next to `x`. -/
def project (box : Box α n) (x : Vec α n) : Vec α n :=
  Vector.ofFn fun i => clamp (box.lower i) (box.upper i) (x.get i)

/-- The points that the projection moves. -/
def Moves (box : Box α n) (x : Vec α n) : Prop :=
  ∃ i : Fin n, IsOutside (box.lower i) (box.upper i) (x.get i)

instance (box : Box α n) (x : Vec α n) : Decidable (box.Moves x) := Nat.decidableExistsFin _

/-! ## Paths -/

/-- The projected step `P(x + t d) - x`. -/
def projectedStep (box : Box α n) (x d : Vec α n) (t : α) : Vec α n :=
  Vector.ofFn fun i =>
    Scalar.smaller (Scalar.larger (x.get i + t * d.get i) (box.lower i)) (box.upper i) -
      x.get i

/-- The step length at which a variable that can move along `d` meets the bound ahead of it. -/
def breakpoint? (box : Box α n) (x d : Vec α n) (i : Fin n) : Option α :=
  let xi := x.get i
  let di := d.get i
  if 0 < di ∧ xi < box.upper i then some ((box.upper i - xi) / di)
  else if di < 0 ∧ box.lower i < xi then some ((box.lower i - xi) / di)
  else none

/-- The step lengths at which a path meets the bounds. -/
structure Breakpoints (α : Type) where
  /-- The number of variables that can move. -/
  count : Nat
  /-- The first meeting, infinite if no variable can move. -/
  min : α
  /-- The last meeting, infinite if no variable can move. -/
  max : α

/-- Where the path `x + t d` meets the bounds for `t > 0`. -/
def breakpoints (box : Box α n) (x d : Vec α n) : Breakpoints α :=
  match (List.finRange n).filterMap (box.breakpoint? x d) with
  | [] => ⟨0, Scalar.infinity, Scalar.infinity⟩
  | first :: rest =>
    let steps := first :: rest
    ⟨steps.length, steps.foldl Scalar.smaller Scalar.infinity, steps.foldl Scalar.larger 0⟩

/-! ## Free variables -/

/-- The scalars on a bound of an interval or beyond it. -/
def IsOnBound (lo hi x : α) : Prop := x ≤ lo ∨ hi ≤ x

instance (lo hi x : α) : Decidable (IsOnBound lo hi x) := inferInstanceAs (Decidable (_ ∨ _))

/-- Holds when `x` is on a bound and the steepest descent for the slope `g` presses it against that
bound. -/
def IsBlocked (lo hi x g : α) : Prop := (x ≤ lo ∧ 0 ≤ g) ∨ (hi ≤ x ∧ g ≤ 0)

instance (lo hi x g : α) : Decidable (IsBlocked lo hi x g) := inferInstanceAs (Decidable (_ ∨ _))

/-- A variable is free unless the steepest descent for the gradient `g` presses it against one of
its bounds. -/
def IsFree (box : Box α n) (x g : Vec α n) (i : Fin n) : Prop :=
  ¬ IsBlocked (box.lower i) (box.upper i) (x.get i) (g.get i)

instance (box : Box α n) (x g : Vec α n) (i : Fin n) : Decidable (box.IsFree x g i) :=
  inferInstanceAs (Decidable (¬ _))

/-- The free variables in increasing order. -/
def freeVariables (box : Box α n) (x g : Vec α n) : IndexSet (Fin n) :=
  .ofList ((List.finRange n).filter fun i => box.IsFree x g i)

/-- The bounds of the selected variables. -/
def restrict (box : Box α n) (set : IndexSet (Fin n)) : Box α set.size where
  lower k := box.lower (set.index k)
  upper k := box.upper (set.index k)
  ordered k := box.ordered (set.index k)

end Box

end BoxNewton
