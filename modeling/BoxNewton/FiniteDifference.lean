import BoxNewton.Problem

/-!
# Finite differences

Where derivatives are not at hand, they are replaced by forward differences. The gradient takes one
further value for each variable, at a step that grows with the variable and points away from zero.
Where a variable is not a number, whoever asks for the gradient says which way the step points.
The product of the Hessian with a vector takes two gradients, at a step that is relative to the
point and to the vector. The product with a vector of norm zero is zero and takes no gradient at
all.

The rules are stated for whatever kind of computation gives values and gradients.
-/

set_option autoImplicit false

namespace BoxNewton

namespace FiniteDifference

variable {α : Type} [Scalar α] {n : Nat} {m : Type → Type} [Monad m]

/-- The step for a variable. It is never zero. -/
def gradientStep (side x : α) : α :=
  let step := Scalar.sqrtEpsilon * Scalar.larger (Scalar.abs x) 1 * Scalar.unitLike side x
  if Scalar.Agree step 0 then Scalar.sqrtEpsilon else step

/-- The gradient by forward differences, given the value at the point. Each variable is stepped on
its own, from the point as it was. -/
def gradient (value : Vec α n → m α) (x : Vec α n) (fx : α) (side : Fin n → α) : m (Vec α n) :=
  Vector.ofFnM fun i => do
    let step := gradientStep (side i) (x.get i)
    let stepped ← value (x.set i.val (x.get i + step) i.isLt)
    return (stepped - fx) / step

/-- The step for a product, relative to the point and the vector. -/
def productStep (relative : α) (x v : Vec α n) : α := relative * (1 + x.norm) / v.norm

/-- The product of the Hessian with a vector, by forward differences of gradients. The gradients are
written into fresh vectors of zeros. -/
def product (relative : α) (gradient : (x out : Vec α n) → m (Vec α n)) (x v : Vec α n) :
    m (Vec α n) := do
  if Scalar.Agree v.norm 0 then return Vec.zeros n
  else
    let step := productStep relative x v
    let g ← gradient x (Vec.zeros n)
    let stepped ← gradient (x.addScaled step v) (Vec.zeros n)
    return (stepped - g).divideBy step

end FiniteDifference

namespace Objective

variable {α : Type} [Scalar α]

/-- Writes the gradient by forward differences of `value` into `out`. For a variable that is not a
number, `side` is one or minus one and says which way its step points. -/
def forwardGradient (value : Array α → Except Misfit α) (x : Array α) (fx : α) (out : Array α)
    (side : Nat → α := fun _ => 1) : Except Misfit (Array α) := do
  let g ← FiniteDifference.gradient (fun y : Vec α x.size => value y.toArray) x.toVector fx
    fun i => side i.val
  Vec.overwrite? g out

/-- Writes the product of the Hessian with `v`, by forward differences of `gradient`, into `out`. -/
def forwardProduct (relative : α) (gradient : Array α → Array α → Except Misfit (Array α))
    (x v out : Array α) : Except Misfit (Array α) := do
  if Scalar.Agree (Vec.norm v.toVector) 0 then return out.map fun _ => 0
  else
    let gradientAt (y out : Vec α x.size) : Except Misfit (Vec α x.size) := do
      Vec.ofArray? x.size (← gradient y.toArray out.toArray)
    let hv ← FiniteDifference.product relative gradientAt x.toVector (← Vec.ofArray? x.size v)
    Vec.overwrite? hv out

/-- An objective of which the value and the gradient are known. -/
def ofGradient (value : Array α → Except Misfit α)
    (gradient : Array α → Array α → Except Misfit (Array α)) : Objective α where
  value := value
  gradient := gradient
  valueGradient := separately value gradient
  product := forwardProduct Scalar.sqrtEpsilon gradient

/-- An objective of which only the value is used. Differences of differences take a longer step. -/
def ofValue (value : Array α → Except Misfit α) : Objective α :=
  let gradient (x out : Array α) : Except Misfit (Array α) := do
    forwardGradient value x (← value x) out
  { value
    gradient
    valueGradient := fun x out => do
      let fx ← value x
      return (fx, ← forwardGradient value x fx out)
    product := forwardProduct Scalar.cbrtEpsilon gradient }

end Objective

/-- The same problem, of whose objective only the value is used. -/
def Problem.differenced {α : Type} [Scalar α] (p : Problem α) : Problem α :=
  { p with objective := .ofValue p.objective.value }

end BoxNewton
