import BoxNewton.Box

/-!
# Domains

A domain is a box together with its dimension, which is positive. It is what a problem carries, when
the dimension is known only once the problem is there. Domains are made from bounds or from a bare
dimension, and each way of making one says what is wrong with its input. A domain that is there to
be worked on must not be too large for its bounds to be stored.

A point that comes as an array need not fit. Feasibility and projection look at the entries that
both the box and the array have. The search for free variables asks for all entries of the point,
and of the gradient only for those where the point is on a bound.
-/

set_option autoImplicit false

namespace BoxNewton

/-- A box of positive dimension. -/
structure Domain (α : Type) [Scalar α] where
  dim : Nat
  dim_pos : 0 < dim
  box : Box α dim

/-- What is wrong with the bounds of a would-be domain. -/
inductive DomainFault where
  | empty
  | sizesDiffer
  | crossedBounds
  | tooLarge
  deriving Repr, DecidableEq

/-- The wording of a fault. -/
def DomainFault.message : DomainFault → String
  | .empty => "empty domain"
  | .sizesDiffer => "lower and upper have different size"
  | .crossedBounds => "lower bound is greater than upper bound"
  | .tooLarge => "domain is too large"

namespace Domain

variable {α : Type} [Scalar α]

/-- The domain of dimension `n` without bounds. -/
def unbounded (n : Nat) (h : 0 < n) : Domain α := ⟨n, h, Box.unbounded n⟩

/-- Refuses a domain whose bounds cannot be stored. -/
def stored? (dom : Domain α) : Except DomainFault (Domain α) :=
  if Storage.Fits dom.dim Storage.entryWidth then .ok dom else .error .tooLarge

/-- The stored domain of dimension `n` without bounds. -/
def unbounded? (n : Nat) : Except DomainFault (Domain α) :=
  if h : 0 < n then (unbounded n h).stored? else .error .empty

/-- The domain between two lists of bounds. -/
def between? (lower upper : Array α) : Except DomainFault (Domain α) :=
  if same : upper.size = lower.size then
    if pos : 0 < lower.size then
      match Box.between? lower.toVector ⟨upper, same⟩ with
      | some box => .ok ⟨lower.size, pos, box⟩
      | none => .error .crossedBounds
    else .error .empty
  else .error .sizesDiffer

/-- The domain whose variables lie in the listed intervals. -/
def ofPairs? (pairs : Array (α × α)) : Except DomainFault (Domain α) :=
  between? (pairs.map Prod.fst) (pairs.map Prod.snd)

/-- The domain of the selected variables. -/
def restrict? (dom : Domain α) (set : IndexSet (Fin dom.dim)) : Except DomainFault (Domain α) :=
  if h : 0 < set.size then .ok ⟨set.size, h, dom.box.restrict set⟩ else .error .empty

/-! ## Points of any length -/

/-- Whether the entries that the box knows of lie between their bounds. -/
def admits (dom : Domain α) (xs : Array α) : Bool :=
  (List.finRange dom.dim).all fun i =>
    match xs[i.val]? with
    | some x => decide (dom.box.lower i ≤ x ∧ x ≤ dom.box.upper i)
    | none => true

/-- Projects the entries that the box knows of. -/
def projectArray (dom : Domain α) (xs : Array α) : Array α :=
  xs.mapIdx fun i x =>
    if h : i < dom.dim then Box.clamp (dom.box.lower ⟨i, h⟩) (dom.box.upper ⟨i, h⟩) x else x

/-- Whether `projectArray` moves an entry. -/
def movesArray (dom : Domain α) (xs : Array α) : Bool :=
  (List.finRange dom.dim).any fun i =>
    match xs[i.val]? with
    | some x => decide (Box.IsOutside (dom.box.lower i) (dom.box.upper i) x)
    | none => false

/-- Whether a variable of a point is free for the gradient `g`, of which nothing is asked unless the
variable is on a bound. -/
def isFree? (dom : Domain α) (x : Vec α dom.dim) (g : Array α) (i : Fin dom.dim) :
    Except Misfit Bool := do
  let lo := dom.box.lower i
  let hi := dom.box.upper i
  if Box.IsOnBound lo hi (x.get i) then
    let gi ← Vec.component? g i
    return decide (¬ Box.IsBlocked lo hi (x.get i) gi)
  else return true

/-- The free variables in increasing order. -/
def freeVariables? (dom : Domain α) (x g : Array α) :
    Except Misfit (IndexSet (Fin dom.dim)) := do
  let x ← Vec.ofFirst? dom.dim x
  return .ofList (← (List.finRange dom.dim).filterM (dom.isFree? x g))

end Domain

end BoxNewton
