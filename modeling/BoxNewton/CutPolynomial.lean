import BoxNewton.FiniteDifference

/-!
# Polynomial objectives

A sum of terms, each a coefficient times powers of the variables, with exact derivatives. For trying
out a minimizer where an objective misbehaves, a polynomial can be cut: beyond a threshold in one
variable its value is a fixed one, which need not be finite. Its gradient can be replaced by a
constant, and the product of its Hessian by rules that no Hessian has.

All products are formed from left to right, starting with the coefficient, and all sums from zero in
the order of the terms.
-/

set_option autoImplicit false

namespace BoxNewton

/-- A coefficient times powers of the variables. -/
structure Monomial (α : Type) where
  coefficient : α
  exponents : List Nat

/-- Beyond `threshold` in variable `index`, the value is `value`. -/
structure Cut (α : Type) where
  index : Nat
  threshold : α
  value : α

/-- How the product of the Hessian with a vector `v` is found. -/
inductive CurvatureRule (α : Type) where
  /-- From the second derivatives of the terms. -/
  | exact
  /-- From differences of gradients. -/
  | differences
  /-- As the product of a matrix with `v`. -/
  | matrix (rows : Array (Array α))
  /-- As a multiple of `v`. -/
  | scale (factor : α)
  /-- As a multiple of the cubes of the entries of `v`. -/
  | cubic (factor : α)

/-- A polynomial of `dim` variables. -/
structure CutPolynomial (α : Type) where
  dim : Nat
  terms : List (Monomial α)
  cuts : List (Cut α)
  constantGradient : Option (Array α)
  curvature : CurvatureRule α

namespace CutPolynomial

variable {α : Type} [Scalar α]

/-- Multiplies `start` by the `k`-th power of a variable. Without factors, the variable is not
read. -/
def timesPower? (x : Array α) (start : α) (i k : Nat) : Except Misfit α :=
  if k = 0 then .ok start
  else do
    let xi ← Vec.component? x i
    return Nat.fold k (fun _ _ product => product * xi) start

/-- Multiplies `start` by the powers of all variables. -/
def timesPowers? (x : Array α) (start : α) (exponents : List Nat) : Except Misfit α :=
  exponents.zipIdx.foldlM (fun product (k, i) => timesPower? x product i k) start

/-- Lowers one exponent by one. -/
def lower (exponents : List Nat) (j : Nat) : List Nat := exponents.modify j (· - 1)

/-- The value at a point. -/
def value? (p : CutPolynomial α) (x : Array α) : Except Misfit α := do
  for cut in p.cuts do
    if cut.threshold < (← Vec.component? x cut.index) then return cut.value
  p.terms.foldlM (fun total term => do
    return total + (← timesPowers? x term.coefficient term.exponents)) 0

/-- The derivative by variable `j`. -/
def derivative? (p : CutPolynomial α) (x : Array α) (j : Nat) : Except Misfit α :=
  p.terms.foldlM (fun total term => do
    let e := term.exponents.getD j 0
    if e = 0 then return total
    return total +
      (← timesPowers? x (term.coefficient * Scalar.ofNat e) (lower term.exponents j))) 0

/-- The factor that derivatives by variables `j` and `k` take out of the exponents. -/
def exponentFactor? (exponents : List Nat) (j k : Nat) : Except Misfit Nat :=
  let ej := exponents.getD j 0
  let times := if j = k then ej * (ej - 1) else ej * exponents.getD k 0
  if Storage.FitsWord times then .ok times else .error (.uncountable times)

/-- The second derivative by variables `j` and `k`. -/
def secondDerivative? (p : CutPolynomial α) (x : Array α) (j k : Nat) : Except Misfit α :=
  p.terms.foldlM (fun total term => do
    let times ← exponentFactor? term.exponents j k
    if times = 0 then return total
    return total + (← timesPowers? x (term.coefficient * Scalar.ofNat times)
      (lower (lower term.exponents j) k))) 0

/-- Writes the first `n` entries of an array, one by one. -/
def fill? (n : Nat) (entry : Nat → Except Misfit α) (out : Array α) :
    Except Misfit (Array α) := do
  let entries ← (List.range n).mapM entry
  if n ≤ out.size then return entries.toArray ++ out.extract n out.size
  else throw (.tooShort n out.size)

/-- Writes the gradient at a point. -/
def gradient? (p : CutPolynomial α) (x out : Array α) : Except Misfit (Array α) :=
  match p.constantGradient with
  | some g => fill? p.dim (Vec.component? g) out
  | none => fill? p.dim (p.derivative? x) out

/-- The sum of `coefficient k * v k` over the variables. -/
def row? (p : CutPolynomial α) (coefficient : Nat → Except Misfit α) (v : Array α) :
    Except Misfit α :=
  (List.range p.dim).foldlM (fun total k => do
    return total + (← coefficient k) * (← Vec.component? v k)) 0

/-- Writes the product of the Hessian at a point with a vector. -/
def product? (p : CutPolynomial α) (x v out : Array α) : Except Misfit (Array α) :=
  match p.curvature with
  | .exact => fill? p.dim (fun j => p.row? (p.secondDerivative? x j) v) out
  | .differences => Objective.forwardProduct Scalar.sqrtEpsilon p.gradient? x v out
  | .matrix rows =>
    fill? p.dim (fun j => p.row? (fun k => Vec.component? (rows[j]?.getD #[]) k) v) out
  | .scale factor => fill? p.dim (fun j => (factor * ·) <$> Vec.component? v j) out
  | .cubic factor =>
    fill? p.dim (fun j => (fun vj => factor * vj * vj * vj) <$> Vec.component? v j) out

/-- The polynomial as an objective. -/
def objective (p : CutPolynomial α) : Objective α where
  value := p.value?
  gradient := p.gradient?
  valueGradient := separately p.value? p.gradient?
  product := p.product?

end CutPolynomial

end BoxNewton
