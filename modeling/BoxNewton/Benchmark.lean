import BoxNewton.FiniteDifference
import BoxNewton.LinearOperator

/-!
# Benchmark problems

Problems with known answers, for trying out the minimizer: the extended Rosenbrock and Powell
functions, the sphere, quadratics and linear functions on a box. Each comes with starting points
and, where they are known, its minimizers. These points are given by their entries and laid out when
they are asked for.

The Rosenbrock and Powell functions are sums over blocks of variables. Their formulas are written
for one block, and read the variables of a point as a function of the index, so that a point with
more variables than the problem has is read in part.
-/

set_option autoImplicit false

namespace BoxNewton

variable {α : Type} [Scalar α]

/-- The square. -/
def square (x : α) : α := x * x

/-- The variables of a point that has at least `n` of them. -/
def readFirst? (n : Nat) (x : Array α) : Except Misfit (Nat → α) :=
  if n ≤ x.size then .ok fun i => x[i]?.getD 0 else .error (.tooShort n x.size)

/-- Writes the first `n` entries of an array. -/
def writeFirst? (n : Nat) (entry : Nat → α) (out : Array α) : Except Misfit (Array α) :=
  if n ≤ out.size then .ok (out.mapIdx fun i y => if i < n then entry i else y)
  else .error (.tooShort n out.size)

/-- Replaces all entries of an array by those of another one of the same size. -/
def replaceAll? (entries out : Array α) : Except Misfit (Array α) :=
  if entries.size = out.size then .ok entries else .error (.sizesDiffer out.size entries.size)

/-! ## The extended Rosenbrock function -/

namespace Rosenbrock

/-- The value of one block. -/
def blockValue (x1 x2 : α) : α := 100.0 * square (x2 - x1 * x1) + square (1 - x1)

/-- The sum over the blocks of two among `n` variables. -/
def value (n : Nat) (x : Nat → α) : α :=
  (List.range (n / 2)).foldl (fun total i => total + blockValue (x (2 * i)) (x (2 * i + 1))) 0

/-- The first derivative of a block by its first variable. -/
def slope1 (x1 x2 : α) : α := -400.0 * x1 * (x2 - x1 * x1) - 2.0 * (1 - x1)

/-- The first derivative of a block by its second variable. -/
def slope2 (x1 x2 : α) : α := 200.0 * (x2 - x1 * x1)

/-- The entry of the gradient for variable `i`. -/
def gradient (x : Nat → α) (i : Nat) : α :=
  let x1 := x (2 * (i / 2))
  let x2 := x (2 * (i / 2) + 1)
  if i % 2 = 0 then slope1 x1 x2 else slope2 x1 x2

/-- The entry of the product of the Hessian with `v` for variable `i`. -/
def product (x v : Nat → α) (i : Nat) : α :=
  let x1 := x (2 * (i / 2))
  let x2 := x (2 * (i / 2) + 1)
  let v1 := v (2 * (i / 2))
  let v2 := v (2 * (i / 2) + 1)
  let h12 := -400.0 * x1
  if i % 2 = 0 then (1200.0 * x1 * x1 - 400.0 * x2 + 2.0) * v1 + h12 * v2
  else h12 * v1 + 200.0 * v2

/-- The function of `n` variables as an objective. -/
def objective (n : Nat) : Objective α :=
  let value? (x : Array α) : Except Misfit α := value n <$> readFirst? n x
  let gradient? (x out : Array α) : Except Misfit (Array α) := do
    writeFirst? n (gradient (← readFirst? n x)) out
  { value := value?
    gradient := gradient?
    valueGradient := separately value? gradient?
    product := fun x v out => do
      writeFirst? n (product (← readFirst? n x) (← readFirst? n v)) out }

end Rosenbrock

/-! ## The extended Powell function -/

namespace Powell

/-- The four residuals of one block. -/
structure Residuals (α : Type) where
  r1 : α
  r2 : α
  r3 : α
  r4 : α

/-- The residuals of the `i`-th block. -/
def residuals (x : Nat → α) (i : Nat) : Residuals α where
  r1 := x (4 * i) + 10.0 * x (4 * i + 1)
  r2 := Scalar.sqrt 5.0 * (x (4 * i + 2) - x (4 * i + 3))
  r3 := square (x (4 * i + 1) - 2.0 * x (4 * i + 2))
  r4 := Scalar.sqrt 10.0 * square (x (4 * i) - x (4 * i + 3))

/-- The sum of the squared residuals of the blocks of four among `n` variables. -/
def value (n : Nat) (x : Nat → α) : α :=
  (List.range (n / 4)).foldl (fun total i =>
    let r := residuals x i
    total + square r.r1 + square r.r2 + square r.r3 + square r.r4) 0

/-- The entry of the gradient for variable `i`. -/
def gradient (x : Nat → α) (i : Nat) : α :=
  let k := i / 4
  let r := residuals x k
  let d3 := 2.0 * (x (4 * k + 1) - 2.0 * x (4 * k + 2))
  let d4 := 2.0 * Scalar.sqrt 10.0 * (x (4 * k) - x (4 * k + 3))
  match i % 4 with
  | 0 => 2.0 * r.r1 + 2.0 * r.r4 * d4
  | 1 => 20.0 * r.r1 + 2.0 * r.r3 * d3
  | 2 => 2.0 * Scalar.sqrt 5.0 * r.r2 - 4.0 * r.r3 * d3
  | _ => -2.0 * Scalar.sqrt 5.0 * r.r2 - 2.0 * r.r4 * d4

/-- The function of `n` variables as an objective. Products are found by differences. -/
def objective (n : Nat) : Objective α :=
  .ofGradient (fun x => value n <$> readFirst? n x)
    fun x out => do writeFirst? n (gradient (← readFirst? n x)) out

end Powell

/-! ## The sphere -/

/-- Half the squared norm, whatever the number of variables. -/
def Sphere.objective : Objective α :=
  let value (x : Array α) : α := 0.5 * Vec.normSq x.toVector
  { value := fun x => .ok (value x)
    gradient := fun x out => replaceAll? x out
    valueGradient := fun x out => (value x, ·) <$> replaceAll? x out
    product := fun _ v out => replaceAll? v out }

/-! ## Quadratic and linear functions -/

/-- The quadratic `½ xᵀAx + bᵀx`. -/
structure Quadratic (α : Type) (n : Nat) where
  a : DenseMatrix α n n
  b : Vec α n

namespace Quadratic

variable {n : Nat}

/-- The value at a point. -/
def value (f : Quadratic α n) (x : Vec α n) : α := 0.5 * x.dot (f.a.mulVec x) + f.b.dot x

/-- The gradient at a point. -/
def gradient (f : Quadratic α n) (x : Vec α n) : Vec α n := f.a.mulVec x + f.b

/-- The product of the Hessian with a vector. -/
def product (f : Quadratic α n) (v : Vec α n) : Vec α n := f.a.mulVec v

/-- The quadratic as an objective. -/
def objective (f : Quadratic α n) : Objective α :=
  let value? (x : Array α) : Except Misfit α := f.value <$> Vec.ofArray? n x
  let gradient? (x out : Array α) : Except Misfit (Array α) := do
    replaceAll? (f.gradient (← Vec.ofArray? n x)).toArray out
  { value := value?
    gradient := gradient?
    valueGradient := separately value? gradient?
    product := fun _ v out => do replaceAll? (f.product (← Vec.ofArray? n v)).toArray out }

end Quadratic

namespace Linear

variable {n : Nat}

/-- The linear function `cᵀx` as an objective. -/
def objective (c : Vec α n) : Objective α :=
  let value? (x : Array α) : Except Misfit α := c.dot <$> Vec.ofArray? n x
  let gradient? (_ out : Array α) : Except Misfit (Array α) := replaceAll? c.toArray out
  { value := value?
    gradient := gradient?
    valueGradient := separately value? gradient?
    product := fun _ _ out => .ok (out.map fun _ => 0) }

end Linear

/-! ## Benchmarks -/

/-- A problem with its usual starting points and its known minimizers. -/
structure Benchmark (α : Type) [Scalar α] where
  problem : Problem α
  startingPoints : List (Fin problem.domain.dim → α)
  minimizers : List (Fin problem.domain.dim → α)

/-- What is wrong with the data of a would-be benchmark. -/
inductive BenchmarkFault where
  | domain (fault : DomainFault)
  | noVariables
  | notMultipleOf (k : Nat)
  | notSquare
  | sizesDiffer (left right : String)
  deriving Repr, DecidableEq

/-- The wording of a fault. -/
def BenchmarkFault.message : BenchmarkFault → String
  | .domain fault => fault.message
  | .noVariables => "n must be greater than zero"
  | .notMultipleOf k => s!"n must be a multiple of {k}"
  | .notSquare => "matrix must be square"
  | .sizesDiffer left right => s!"dimensions of {left} and {right} do not match"

namespace Benchmark

/-- The point whose variables repeat a list of values. -/
def repeating {n : Nat} (values : List α) (i : Fin n) : α :=
  values[i.val % values.length]?.getD 0

/-- The point of a domain next to the origin. -/
def nearOrigin (dom : Domain α) (i : Fin dom.dim) : α :=
  Box.clamp (dom.box.lower i) (dom.box.upper i) 0

/-- The domain of `n` variables without bounds. -/
def freeDomain? (n : Nat) : Except BenchmarkFault (Domain α) :=
  if h : 0 < n then .ok (.unbounded n h) else .error .noVariables

/-- Refuses a domain whose variables do not come in blocks of `k`. -/
def inBlocksOf? (k : Nat) (dom : Domain α) : Except BenchmarkFault (Domain α) :=
  if dom.dim % k = 0 then .ok dom else .error (.notMultipleOf k)

/-- The extended Rosenbrock function on a domain of an even number of variables. -/
def rosenbrockOn (dom : Domain α) : Benchmark α where
  problem := .minimize (Rosenbrock.objective dom.dim) dom
  startingPoints := [repeating [-1.2, 1], repeating [6.39, -0.221]]
  minimizers := if dom.box.IsUnbounded then [repeating [1]] else []

/-- The extended Rosenbrock function of `n` variables, two if nothing is said. -/
def rosenbrock? (n : Nat := 2) : Except BenchmarkFault (Benchmark α) := do
  let dom ← inBlocksOf? 2 (← freeDomain? n)
  return rosenbrockOn (← dom.stored?.mapError .domain)

/-- The extended Rosenbrock function between bounds. -/
def boundedRosenbrock? (lower upper : Array α) : Except BenchmarkFault (Benchmark α) := do
  let dom ← (Domain.between? lower upper).mapError .domain
  return rosenbrockOn (← inBlocksOf? 2 dom)

/-- The extended Powell function of `n` variables, four if nothing is said. -/
def powell? (n : Nat := 4) : Except BenchmarkFault (Benchmark α) := do
  let dom ← inBlocksOf? 4 (← freeDomain? n)
  return {
    problem := .minimize (Powell.objective n) dom
    startingPoints := [repeating [3.0, -1, 0, 1]]
    minimizers := [repeating [0]] }

/-- The sphere of `n` variables, two if nothing is said. -/
def sphere? (n : Nat := 2) : Except BenchmarkFault (Benchmark α) := do
  let dom ← freeDomain? n
  return {
    problem := .minimize Sphere.objective dom
    startingPoints := [repeating [10.0, -10.0]]
    minimizers := [repeating [0]] }

/-- A quadratic on a domain. -/
def quadratic? {m k : Nat} (a : DenseMatrix α m k) (b : Array α) (dom : Domain α) :
    Except BenchmarkFault (Benchmark α) :=
  if h : k = m then
    if hb : b.size = m then
      if m = dom.dim then
        .ok {
          problem := .minimize (Quadratic.objective ⟨h ▸ a, ⟨b, hb⟩⟩) dom
          startingPoints := [nearOrigin dom]
          minimizers := [] }
      else .error (.sizesDiffer "a" "domain")
    else .error (.sizesDiffer "a" "b")
  else .error .notSquare

/-- The quadratic with a diagonal matrix and the same linear coefficient for every variable. -/
def diagonal? (diag : Array α) (c : α) (dom : Domain α) : Except BenchmarkFault (Benchmark α) :=
  quadratic? (DenseMatrix.diagonal diag.toVector)
    (Array.replicate diag.size c) dom

/-- A linear function on a domain. -/
def linear? (c : Array α) (dom : Domain α) : Except BenchmarkFault (Benchmark α) :=
  if c.size = dom.dim then
    .ok {
      problem := .minimize (Linear.objective c.toVector) dom
      startingPoints := [nearOrigin dom]
      minimizers := [] }
  else .error (.sizesDiffer "c" "domain")

/-! ## Judging a point -/

/-- Whether the projected gradient at a point has norm at most `eps`. -/
def isStationary? (b : Benchmark α) (x : Array α) (eps : α) : Except Misfit Bool := do
  let dom := b.problem.domain
  let g ← b.problem.objective.gradient x (x.map fun _ => 0)
  let step := dom.box.projectedStep (← Vec.ofFirst? dom.dim x) (← Vec.ofFirst? dom.dim g) (-1)
  let whole ← Vec.overwrite? step (x.map fun _ => 0)
  return decide (Vec.norm whole.toVector ≤ eps)

/-- Whether two scalars agree up to an absolute and a relative tolerance. -/
def AreNear (eps x y : α) : Prop :=
  Scalar.Agree x y ∨
    (¬ Scalar.Agree (Scalar.abs x) Scalar.infinity ∧
      ¬ Scalar.Agree (Scalar.abs y) Scalar.infinity ∧
      (Scalar.abs (x - y) ≤ eps ∨
        Scalar.abs (x - y) ≤
          (if Scalar.abs x < Scalar.abs y then Scalar.abs y else Scalar.abs x) * eps))

instance (eps x y : α) : Decidable (AreNear eps x y) := inferInstanceAs (Decidable (_ ∨ _))

/-- Whether a point is close to one of the known minimizers. -/
def isNearMinimizer? (b : Benchmark α) (x : Array α) (eps : α) : Except Misfit Bool :=
  b.minimizers.anyM fun minimizer => do
    let x ← Vec.ofArray? b.problem.domain.dim x
    return (List.finRange b.problem.domain.dim).all fun i =>
      decide (AreNear eps (minimizer i) (x.get i))

end Benchmark

end BoxNewton
