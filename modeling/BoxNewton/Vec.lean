import BoxNewton.Scalar
import BoxNewton.Storage

/-!
# Vectors of scalars

Vectors carry their dimension in the type, so that none of the algorithms can combine vectors of
different dimensions. Elementwise sums, differences, negation and multiples are those of `Vector`.

Sums of products are committed to one order. Products are collected in eight lanes over the whole
blocks of eight, the lanes are folded in pairs that lie four apart, and what is left after the last
whole block is added one by one. Over exact numbers this is the sum of all products; in rounded
arithmetic it is what fixes the last bits.
-/

set_option autoImplicit false

namespace BoxNewton

/-- Vectors of dimension `n`. -/
abbrev Vec (α : Type) (n : Nat) : Type := Vector α n

namespace Vec

variable {α : Type} [Scalar α] {n : Nat}

/-! ## Sums in blocks of eight -/

/-- Adds the `k`-th terms of the whole blocks of eight, from the first block to the last. -/
def laneSum (term : Fin n → α) (k : Fin 8) : α :=
  Nat.fold (n / 8) (fun j _ total => total + term ⟨8 * j + k, by omega⟩) 0

/-- Adds the terms after the last whole block to `head`, one by one. -/
def tailSum (term : Fin n → α) (head : α) : α :=
  Nat.fold (n % 8) (fun j _ total => total + term ⟨8 * (n / 8) + j, by omega⟩) head

/-- Adds all terms, in eight lanes and a tail. -/
def blockSum (term : Fin n → α) : α :=
  let lane := laneSum term
  tailSum term
    (0 + (lane 0 + lane 4) + (lane 1 + lane 5) + (lane 2 + lane 6) + (lane 3 + lane 7))

/-- The inner product. -/
def dot (x y : Vec α n) : α := blockSum fun i : Fin n => x.get i * y.get i

/-- The squared Euclidean norm. -/
def normSq (x : Vec α n) : α := dot x x

/-- The Euclidean norm. -/
def norm (x : Vec α n) : α := Scalar.sqrt (normSq x)

/-! ## Elementwise operations -/

/-- The vector of zeros. -/
def zeros (n : Nat) : Vec α n := Vector.replicate n 0

/-- The vector `a x + y`. -/
def addScaled (y : Vec α n) (a : α) (x : Vec α n) : Vec α n :=
  Vector.ofFn fun i => a * x.get i + y.get i

/-- The vector `r + b p`. When `b` is zero, `p` is not looked at, whatever it holds. -/
def conjugate (r : Vec α n) (b : α) (p : Vec α n) : Vec α n :=
  if Scalar.Agree b 0 then r else Vector.ofFn fun i => r.get i + b * p.get i

/-- Multiplies every entry by `a` on the right. -/
def scaleBy (x : Vec α n) (a : α) : Vec α n := x.map (· * a)

/-- Divides every entry by `a`. -/
def divideBy (x : Vec α n) (a : α) : Vec α n := x.map (· / a)

end Vec

/-! ## Lists of scalars of any length

Callers hand over points and directions as arrays. Whether such an array fits is decided here, once,
and a misfit is reported instead of being papered over. -/

/-- What is wrong with an array where a vector of some dimension is expected, or with an index or a
count where one of some kind is. -/
inductive Misfit where
  /-- An entry was asked for that the array does not have. -/
  | tooShort (needed available : Nat)
  /-- The array has to have exactly as many entries as the vector, and does not. -/
  | sizesDiffer (expected given : Nat)
  /-- There is no room for so many entries. -/
  | tooLarge (entries : Nat)
  /-- An index has to be greater than the one before it, and is not. -/
  | notIncreasing (last next : Nat)
  /-- No word has room for this count. -/
  | uncountable (count : Nat)
  deriving Repr, DecidableEq

namespace Vec

variable {α : Type}

/-- The entry of an array. -/
def component? (xs : Array α) (i : Nat) : Except Misfit α :=
  match xs[i]? with
  | some x => .ok x
  | none => .error (.tooShort (i + 1) xs.size)

/-- Lays out a vector that is given by its entries. -/
def layOut? {n : Nat} (entry : Fin n → α) : Except Misfit (Vec α n) :=
  if Storage.Fits n Storage.entryWidth then .ok (Vector.ofFn entry) else .error (.tooLarge n)

/-- Reads an array of exactly `n` entries as a vector. -/
def ofArray? (n : Nat) (xs : Array α) : Except Misfit (Vec α n) :=
  if h : xs.size = n then .ok ⟨xs, h⟩ else .error (.sizesDiffer n xs.size)

/-- Reads the first `n` entries of an array; those after them are not looked at. -/
def ofFirst? (n : Nat) (xs : Array α) : Except Misfit (Vec α n) :=
  if h : n ≤ xs.size then .ok ((xs.toVector.take n).cast (Nat.min_eq_left h))
  else .error (.tooShort n xs.size)

/-- Writes a vector over the first entries of an array; those after them stay. -/
def overwrite? {n : Nat} (v : Vec α n) (xs : Array α) : Except Misfit (Array α) :=
  if n ≤ xs.size then .ok (v.toArray ++ xs.extract n xs.size) else .error (.tooShort n xs.size)

end Vec

end BoxNewton
