import BoxNewton.SecantMemory

/-!
# Secant memories for pairs of any size

A memory on its own does not know the size of its pairs before the first one comes: any two vectors
of equal size make a pair, and the pairs that are kept together must agree in size. A memory is
nevertheless declared for some dimension, and where a pair shows no curvature in the approximation
before it, its subtracted vector is the zero vector of that dimension. If the pairs have another
size, this vector fits nothing; if the dimension is too large, the vector cannot be stored at all.
-/

set_option autoImplicit false

namespace BoxNewton

/-- A memory whose pairs have the size that the first of them had. -/
structure AnySecantMemory (α : Type) where
  /-- The dimension named when the memory was made. -/
  declared : Nat
  /-- The size of the kept pairs. -/
  size : Nat
  memory : SecantMemory α size

namespace AnySecantMemory

variable {α : Type} [Scalar α]

/-- A memory without pairs. -/
def empty? (dim capacity : Nat) : Except SecantMemoryFault (AnySecantMemory α) :=
  (⟨dim, dim, ·⟩) <$> SecantMemory.empty? dim capacity

/-- Forgets all pairs. -/
def reset (m : AnySecantMemory α) : AnySecantMemory α := { m with memory := m.memory.reset }

/-- Whether a pair shows no curvature in the approximation before it. -/
def lacksCurvature {n : Nat} (memory : SecantMemory α n) (k : Nat) : Bool :=
  match memory.pairs[k]? with
  | some pair =>
    !decide (0 < pair.s.dot (SecantTerm.product memory.gamma (memory.terms.take k) pair.s))
  | none => false

/-- Whether one of the first `k` terms holds a zero vector. -/
def holdsZero (m : AnySecantMemory α) (k : Nat) : Bool :=
  (List.range k).any (lacksCurvature m.memory)

/-- Refuses a memory that has a zero vector that does not fit among its first `k` terms. -/
def checked (m : AnySecantMemory α) (k : Nat) : Except Misfit (AnySecantMemory α) :=
  if m.declared ≠ m.size ∧ m.holdsZero k then .error (.sizesDiffer m.size m.declared) else .ok m

/-- Refuses a memory whose terms could not be formed anew. The terms before the last one have been
used for it, so their zero vectors must fit; and every zero vector must be stored. -/
def renewed (m : AnySecantMemory α) : Except Misfit (AnySecantMemory α) :=
  if ¬ Storage.Fits m.declared Storage.entryWidth ∧ m.holdsZero m.memory.size then
    .error (.tooLarge m.declared)
  else m.checked (m.memory.size - 1)

/-- Offers a pair to the memory, and says whether it was stored. -/
def push? (m : AnySecantMemory α) (s y : Array α) : Except Misfit (Bool × AnySecantMemory α) := do
  let s' : Vec α y.size ← Vec.ofArray? y.size s
  let pair : SecantPair α y.size := ⟨s', y.toVector⟩
  if pair.IsFlat then return (false, m)
  if h : y.size = m.size then
    let stored : AnySecantMemory α := { m with memory := m.memory.store (h ▸ pair) }
    return (true, ← stored.renewed)
  if m.memory.retained.isEmpty then
    let stored : AnySecantMemory α :=
      ⟨m.declared, y.size, (m.memory.emptied y.size).store pair⟩
    return (true, ← stored.renewed)
  throw (.sizesDiffer m.size y.size)

/-- The product of the approximation with a vector, of the same size. -/
def product? (m : AnySecantMemory α) (v : Array α) : Except Misfit (Array α) := do
  if m.memory.pairs.isEmpty then
    return v.map (· * m.memory.gamma)
  let fitting ← m.checked m.memory.size
  return (fitting.memory.apply (← Vec.ofArray? fitting.size v)).toArray

end AnySecantMemory

end BoxNewton
