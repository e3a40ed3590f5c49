import BoxNewton.Vec

/-!
# Ordered sets of variables

An index set selects some of the variables, in increasing order. It stands for the matrix `Z` whose
columns are the unit vectors of the selected variables: `gather` is `Zᵀ v`, and `scatter` writes
`Z p` into the selected entries of a vector and leaves the others alone.

Indices are of any type, because a set can be collected before the dimension is known. The sets that
the algorithms work with hold indices below the dimension, so nothing there can be out of range.
-/

set_option autoImplicit false

namespace BoxNewton

/-- Selected indices, in the order in which they were put in. -/
structure IndexSet (ι : Type) where
  toArray : Array ι
  deriving BEq

namespace IndexSet

variable {ι : Type}

/-- The set without indices. -/
def empty : IndexSet ι := ⟨#[]⟩

/-- The set without indices, with room for `capacity` of them. -/
def emptyWithCapacity? (capacity : Nat) : Except Misfit (IndexSet ι) :=
  if Storage.Fits capacity Storage.entryWidth then .ok empty else .error (.tooLarge capacity)

/-- Puts an index behind the others. It has to be greater than the last of them. -/
def push? (set : IndexSet Nat) (i : Nat) : Except Misfit (IndexSet Nat) :=
  match set.toArray.back? with
  | some last =>
    if last < i then .ok ⟨set.toArray.push i⟩ else .error (.notIncreasing last i)
  | none => .ok ⟨set.toArray.push i⟩

/-- The set of the listed indices. -/
def ofList (indices : List ι) : IndexSet ι := ⟨indices.toArray⟩

/-- The number of selected indices. -/
def size (set : IndexSet ι) : Nat := set.toArray.size

/-- Holds when nothing is selected. -/
def isEmpty (set : IndexSet ι) : Bool := set.toArray.isEmpty

/-- The selected indices in order. -/
def toList (set : IndexSet ι) : List ι := set.toArray.toList

/-- The `k`-th selected index. -/
def index (set : IndexSet ι) (k : Fin set.size) : ι :=
  have inside : k.val < set.toArray.size := k.isLt
  set.toArray[k.val]

/-- Reads a set of natural numbers as indices below `n`. -/
def below? (n : Nat) (set : IndexSet Nat) : Except Misfit (IndexSet (Fin n)) := do
  let indices ← set.toArray.mapM fun i =>
    if h : i < n then .ok (⟨i, h⟩ : Fin n) else .error (Misfit.tooShort (i + 1) n)
  return ⟨indices⟩

/-! ## Parts of vectors -/

variable {α : Type} {n : Nat}

/-- The selected entries of a vector. -/
def gather (set : IndexSet (Fin n)) (full : Vec α n) : Vec α set.size :=
  Vector.ofFn fun k => full.get (set.index k)

/-- Writes the entries of `part` over the selected entries of `full`. -/
def scatter (set : IndexSet (Fin n)) (part : Vec α set.size) (full : Vec α n) : Vec α n :=
  Fin.foldl set.size
    (fun v k => v.set (set.index k).val (part.get k) (set.index k).isLt) full

/-- Adds the entries of `part` to the selected entries of `full`. -/
def accumulate [Add α] (set : IndexSet (Fin n)) (part : Vec α set.size) (full : Vec α n) :
    Vec α n :=
  Fin.foldl set.size
    (fun v k => v.set (set.index k).val (v.get (set.index k) + part.get k) (set.index k).isLt) full

/-! ## Parts of arrays of any size -/

/-- The selected entries of an array. -/
def gather? (set : IndexSet Nat) (full : Array α) : Except Misfit (Array α) := do
  let set ← set.below? full.size
  return (set.gather full.toVector).toArray

/-- Writes the selected entries of an array over the first entries of `part`. -/
def gatherOver? (set : IndexSet Nat) (full part : Array α) : Except Misfit (Array α) := do
  let set ← set.below? full.size
  Vec.overwrite? (set.gather full.toVector) part

/-- Writes the first entries of `part` over the selected entries of an array. -/
def scatter? (set : IndexSet Nat) (part full : Array α) : Except Misfit (Array α) := do
  let set ← set.below? full.size
  return (set.scatter (← Vec.ofFirst? set.size part) full.toVector).toArray

/-- Adds the first entries of `part` to the selected entries of an array. -/
def accumulate? [Add α] (set : IndexSet Nat) (part full : Array α) : Except Misfit (Array α) := do
  let set ← set.below? full.size
  return (set.accumulate (← Vec.ofFirst? set.size part) full.toVector).toArray

end IndexSet

end BoxNewton
