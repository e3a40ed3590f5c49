import BoxNewton.SecantMemory.AnySize
import BoxNewton.Subproblem.ConjugateGradient

/-!
# Operators given as data

A matrix and a secant memory are operators that can be written down. Their products are computed
from arrays, which may fail to fit; a dialogue about an operator, or about its restriction to an
index set, is then run to its end.
-/

set_option autoImplicit false

namespace BoxNewton

/-- An operator that can be written down. -/
inductive Operator (α : Type) where
  | matrix (m n : Nat) (a : DenseMatrix α m n)
  | secant (memory : AnySecantMemory α)

namespace Operator

variable {α : Type} [Scalar α]

/-- The dimension of the products. -/
def dim : Operator α → Nat
  | matrix m _ _ => m
  | secant memory => memory.declared

/-- The product with a vector. -/
def product? (op : Operator α) (v : Array α) : Except Misfit (Vec α op.dim) :=
  match op with
  | matrix _ n a => a.mulVec <$> Vec.ofArray? n v
  | secant memory => do
    let product ← memory.product? v
    Vec.ofArray? memory.declared product

/-- Answers a question for a product. The products of these operators replace every entry. -/
def answer (op : Operator α) (q : Product α op.dim) (_ : Unit) :
    Except Dialogue.Stop (Vec α op.dim × Unit) := do
  return (← op.product? q.direction.toArray, ())

end Operator

/-- An operator, or its restriction to an index set. -/
structure SelectedOperator (α : Type) where
  whole : Operator α
  selection : Option (IndexSet Nat)

namespace SelectedOperator

variable {α : Type} [Scalar α]

/-- The dimension of the products. -/
def dim (op : SelectedOperator α) : Nat :=
  match op.selection with
  | none => op.whole.dim
  | some set => set.size

/-- An operator or its restriction. A restriction works on vectors of the dimension of the whole
operator, so there must be room for these. -/
def ofSelection? (whole : Operator α) (selection : Option (IndexSet Nat)) :
    Except Misfit (SelectedOperator α) :=
  if selection.isNone ∨ Storage.Fits whole.dim Storage.entryWidth then .ok ⟨whole, selection⟩
  else .error (.tooLarge whole.dim)

/-- The product with a vector. The restriction reads as many entries as are selected. -/
def product? (op : SelectedOperator α) (v : Array α) : Except Dialogue.Stop (Array α) := do
  match op.selection with
  | none => return (← op.whole.product? v).toArray
  | some set =>
    let set ← set.below? op.whole.dim
    let v ← Vec.ofFirst? set.size v
    let question := Product.restricted set ⟨v, Vec.zeros set.size⟩ (Vec.zeros op.whole.dim)
    let ((product, _), _) ← question.run op.whole.answer () {}
    return product.toArray

/-- Answers a question for a product. -/
def answer (op : SelectedOperator α) (q : Product α op.dim) (_ : Unit) :
    Except Dialogue.Stop (Vec α op.dim × Unit) := do
  let product ← op.product? q.direction.toArray
  return (← Vec.ofArray? op.dim product, ())

/-- Solves a subproblem with the operator. -/
def solve? (op : SelectedOperator α) (s : Subsolver α) (state : s.State) (b out : Array α)
    (radius tolerance : α) (limit : Nat) :
    Except Dialogue.Stop ((SubproblemResult × Array α) × s.State) := do
  let b ← Vec.ofArray? op.dim b
  let out ← Vec.ofArray? op.dim out
  let (((result, x), state), _) ←
    (s.solve state b radius tolerance limit out).run op.answer () {}
  return ((result, x.toArray), state)

end SelectedOperator

end BoxNewton
