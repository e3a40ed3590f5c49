import BoxNewton.LinearOperator

/-!
# The quadratic model of a step

Around the current point, with gradient `g` and Hessian `H`, the objective is modelled by
`q(s) = ½ sᵀHs + gᵀs`. One product with `H` gives the value of the model and its slope `gᵀs`.
-/

set_option autoImplicit false

namespace BoxNewton

/-- The model at one step. -/
structure ModelValue (α : Type) (n : Nat) where
  /-- The product `H s`. -/
  image : Vec α n
  /-- The value `q(s)`. -/
  value : α
  /-- The slope `gᵀs`. -/
  slope : α

namespace ModelValue

variable {α : Type} [Scalar α] {n : Nat}

/-- The model at a step whose product is known. -/
def ofImage (g s image : Vec α n) : ModelValue α n :=
  let slope := s.dot g
  { image, value := 0.5 * s.dot image + slope, slope }

/-- The model at a step. The product replaces `out`. -/
def measure (g s out : Vec α n) : OperatorDialogue α n (ModelValue α n) := do
  let image ← Product.request s out
  return ofImage g s image

/-- Sufficient decrease: the model is at most the fraction `mu0` of its slope. -/
def IsSufficient (mu0 : α) (m : ModelValue α n) : Prop := m.value ≤ mu0 * m.slope

/-- The opposite test of sufficient decrease, which also refuses the boundary case. -/
def IsInsufficient (mu0 : α) (m : ModelValue α n) : Prop := mu0 * m.slope ≤ m.value

instance (mu0 : α) (m : ModelValue α n) : Decidable (m.IsSufficient mu0) :=
  inferInstanceAs (Decidable (_ ≤ _))

instance (mu0 : α) (m : ModelValue α n) : Decidable (m.IsInsufficient mu0) :=
  inferInstanceAs (Decidable (_ ≤ _))

end ModelValue

end BoxNewton
