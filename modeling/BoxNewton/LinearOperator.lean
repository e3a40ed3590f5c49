import BoxNewton.Dialogue
import BoxNewton.IndexSet
import BoxNewton.Report

/-!
# Linear operators known by their products

Second-order information is never formed as a matrix. The algorithms ask for the product of an
operator with a vector and get the product back. Whoever computes it is also handed the vector that
the product is to replace, because a careless implementation may leave entries of it as they were.

The restriction of an operator to an index set is `Zᵀ A Z`: a question about the selected variables
becomes one about all variables, and the product at full length is kept for the next question.
-/

set_option autoImplicit false

namespace BoxNewton

/-- The question for the product of an operator with `direction`, to replace `out`. -/
structure Product (α : Type) (n : Nat) where
  direction : Vec α n
  out : Vec α n

/-- Computations that ask for products with an operator of dimension `n`. -/
abbrev OperatorDialogue (α : Type) (n : Nat) (β : Type) : Type :=
  Dialogue (Note α) (Product α n) (fun _ => Vec α n) β

namespace Product

variable {α : Type} {n : Nat}

/-- Asks for the product with `direction`, to replace `out`. -/
def request (direction out : Vec α n) : OperatorDialogue α n (Vec α n) :=
  Dialogue.question ⟨direction, out⟩

variable [Scalar α]

/-- Answers a question about the selected variables by one about all of them. The state is the last
product at full length, which the next one replaces. -/
def restricted (set : IndexSet (Fin n)) (q : Product α set.size) (full : Vec α n) :
    OperatorDialogue α n (Vec α set.size × Vec α n) := do
  let full ← request (set.scatter q.direction (Vec.zeros n)) full
  return (set.gather full, full)

end Product

/-! ## Matrices -/

/-- A matrix, by its rows. -/
structure DenseMatrix (α : Type) (m n : Nat) where
  rows : Vector (Vec α n) m

namespace DenseMatrix

variable {α : Type} [Scalar α] {m n : Nat}

/-- The product of a row with a vector. The total starts from the first product, and each later
product is added in front of it. -/
def rowProduct (row x : Vec α n) : α :=
  match (Vector.zipWith (· * ·) row x).toList with
  | [] => 0
  | first :: rest => rest.foldl (fun total term => term + total) first

/-- The product of a matrix with a vector. -/
def mulVec (a : DenseMatrix α m n) (x : Vec α n) : Vec α m := a.rows.map fun row => rowProduct row x

/-- The square matrix with the given diagonal. -/
def diagonal (d : Vec α n) : DenseMatrix α n n where
  rows := Vector.ofFn fun i => Vector.ofFn fun j => if i = j then d.get i else 0

end DenseMatrix

end BoxNewton
