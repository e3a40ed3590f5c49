import BoxNewton.Vec

/-!
# Limited-memory secant approximations

The memory keeps the latest pairs `(s, y)` of a step and the change of the gradient along it, and
stands for the BFGS approximation `B` of the Hessian that they determine. `B` itself is applied, not
its inverse, in the unrolled form

  `B v = γ v + Σᵢ ((bᵢᵀ v) bᵢ - (aᵢᵀ v) aᵢ)`,

with `bᵢ = yᵢ / √(yᵢᵀ sᵢ)`, `aᵢ = Bᵢ₋₁ sᵢ / √(sᵢᵀ Bᵢ₋₁ sᵢ)` and `γ = yᵀy / yᵀs` of the latest pair.
The vectors are formed anew whenever a pair is stored, from the oldest pair to the newest, so
nothing of a dropped pair stays behind.

Pairs without enough curvature are not stored: they would cost `B` its positive definiteness.
-/

set_option autoImplicit false

namespace BoxNewton

/-- A step and the change of the gradient along it. -/
structure SecantPair (α : Type) (n : Nat) where
  s : Vec α n
  y : Vec α n

/-- What one pair adds to the product, `(bᵀ v) b - (aᵀ v) a`. -/
structure SecantTerm (α : Type) (n : Nat) where
  a : Vec α n
  b : Vec α n

/-- The latest pairs and the approximation they determine. -/
structure SecantMemory (α : Type) (n : Nat) where
  /-- At most so many pairs are kept. -/
  capacity : Nat
  capacity_pos : 0 < capacity
  /-- The kept pairs, the oldest first. -/
  pairs : List (SecantPair α n)
  /-- One term for each kept pair, in the same order. -/
  terms : List (SecantTerm α n)
  /-- The multiple of the identity that the terms are added to. -/
  gamma : α

variable {α : Type} [Scalar α] {n : Nat}

namespace SecantTerm

/-- Adds a term of the product with `v`. -/
def addTo (term : SecantTerm α n) (v total : Vec α n) : Vec α n :=
  (total.addScaled (term.b.dot v) term.b).addScaled (-term.a.dot v) term.a

/-- The product with `v` of a multiple of the identity and some terms. -/
def product (gamma : α) (terms : List (SecantTerm α n)) (v : Vec α n) : Vec α n :=
  terms.foldl (fun total term => term.addTo v total) (v.scaleBy gamma)

/-- The term of a pair on top of the terms before it. -/
def ofPair (gamma : α) (before : List (SecantTerm α n)) (pair : SecantPair α n) :
    SecantTerm α n :=
  let bs := product gamma before pair.s
  let sbs := pair.s.dot bs
  { b := pair.y.divideBy (Scalar.sqrt (pair.y.dot pair.s))
    a := if 0 < sbs then bs.divideBy (Scalar.sqrt sbs) else Vec.zeros n }

/-- The terms of some pairs, the oldest first. -/
def ofPairs (gamma : α) (pairs : List (SecantPair α n)) : List (SecantTerm α n) :=
  pairs.foldl (fun before pair => before ++ [ofPair gamma before pair]) []

end SecantTerm

/-- The bytes that a pair takes among the pairs, the entries of its two vectors apart. -/
def SecantPair.width : Nat := 64

/-- The curvature `yᵀs` of a pair. -/
def SecantPair.curvature (pair : SecantPair α n) : α := pair.y.dot pair.s

/-- Pairs with too little curvature are not stored. -/
def SecantPair.IsFlat (pair : SecantPair α n) : Prop :=
  pair.curvature ≤ Scalar.sqrtEpsilon * pair.s.norm * pair.y.norm

instance (pair : SecantPair α n) : Decidable pair.IsFlat :=
  inferInstanceAs (Decidable (_ ≤ _))

/-- What is wrong with a would-be memory. -/
inductive SecantMemoryFault where
  | noCapacity
  | tooLarge
  deriving Repr, DecidableEq

/-- The wording of a fault. -/
def SecantMemoryFault.message : SecantMemoryFault → String
  | .noCapacity => "memory must be greater than zero"
  | .tooLarge => "memory is too large"

namespace SecantMemory

/-- The memory without pairs, which stands for the identity. -/
def empty (n capacity : Nat) (h : 0 < capacity) : SecantMemory α n := ⟨capacity, h, [], [], 1⟩

/-- The memory without pairs, with room for `capacity` of them. -/
def empty? (n capacity : Nat) : Except SecantMemoryFault (SecantMemory α n) :=
  if h : 0 < capacity then
    if Storage.Fits capacity SecantPair.width then .ok (empty n capacity h) else .error .tooLarge
  else .error .noCapacity

/-- The number of kept pairs. -/
def size (memory : SecantMemory α n) : Nat := memory.pairs.length

/-- Forgets all pairs. -/
def reset (memory : SecantMemory α n) : SecantMemory α n :=
  { memory with pairs := [], terms := [], gamma := 1 }

/-- The memory without pairs, of the same capacity, for vectors of dimension `m`. -/
def emptied (memory : SecantMemory α n) (m : Nat) : SecantMemory α m :=
  empty m memory.capacity memory.capacity_pos

/-- The kept pairs once there is room for one more. -/
def retained (memory : SecantMemory α n) : List (SecantPair α n) :=
  if memory.size = memory.capacity then memory.pairs.drop 1 else memory.pairs

/-- Stores a pair in place of the oldest one, if there is no room. -/
def store (memory : SecantMemory α n) (pair : SecantPair α n) : SecantMemory α n :=
  let pairs := memory.retained ++ [pair]
  let gamma := pair.y.normSq / pair.curvature
  { memory with pairs, gamma, terms := SecantTerm.ofPairs gamma pairs }

/-- Offers a pair to the memory. It is stored unless it is flat. -/
def push (memory : SecantMemory α n) (pair : SecantPair α n) : Bool × SecantMemory α n :=
  if pair.IsFlat then (false, memory) else (true, memory.store pair)

/-- The product of the approximation with `v`. -/
def apply (memory : SecantMemory α n) (v : Vec α n) : Vec α n :=
  SecantTerm.product memory.gamma memory.terms v

end SecantMemory

end BoxNewton
