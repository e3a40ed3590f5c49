import Mathlib
import BoxNewton.Proofs.Contract
import BoxNewton.Proofs.StepBookkeeping

/-!
# Restricted operators are principal submatrices

A restricted operator spreads a vector over the selected variables, asks for the product at full length
and gathers the selected entries. It keeps two vectors of full length for all its products, so a product
might depend on the ones before. It does not: whatever the dialogue about the selected variables is, it
comes to what it comes to with `Zᵀ A Z` (`Product.eval_selecting`), in every world that answers by `A` and
however that world changes with the questions.

Over real numbers `Zᵀ A Z` has the matrix whose entries are those of `A` in the selected rows and columns
(`IndexSet.minor`), so what makes the one symmetric or positive definite makes the other so. A
restriction of a restriction selects among the selected variables, and is the restriction to these
(`IndexSet.compress_within`); this holds for all scalars and for operators that are not linear.

The same set moves parts of arrays in and out. Read as indices below the size of the array, it gathers
what was scattered and leaves every other entry alone.
-/

set_option autoImplicit false

namespace BoxNewton

open Dialogue (Stop)
open Matrix

/-! ## Worlds that change -/

variable {α : Type} {n : Nat}

/-- In every world that answers by this operator, whatever else it does, the dialogue comes to this
result. -/
def Dialogue.ComesTo {β : Type} (d : OperatorDialogue α n β) (A : Vec α n → Vec α n) (result : β) : Prop :=
  ∀ (ω : Type) (world : Product α n → ω → Except Stop (Vec α n × ω)),
    (∀ q w, ∃ w', world q w = .ok (A q.direction, w')) →
    ∀ w t, ∃ w' t', d.run world w t = .ok (result, w', t')

theorem Dialogue.comesTo_of_eval {β : Type} {d : OperatorDialogue α n β} {A : Vec α n → Vec α n}
    {result : β} (found : d.eval (answeredBy A) = some result) : d.ComesTo A result := by
  intro ω world answers w t
  obtain ⟨w', t', ran, -⟩ := Dialogue.exists_run_of_eval (fun _ => True)
    (fun q w _ => (answers q w).imp fun _ answered => ⟨answered, trivial⟩) found trivial t
  exact ⟨w', t', ran⟩

/-! ## Sequences of products -/

namespace Product

/-- Asks for one product after the other. -/
def requests (calls : List (Product α n)) : OperatorDialogue α n (List (Vec α n)) :=
  calls.mapM fun q => request q.direction q.out

theorem eval_requests (A : Vec α n → Vec α n) (calls : List (Product α n)) :
    (requests calls).eval (answeredBy A) = some (calls.map fun q => A q.direction) := by
  unfold requests
  induction calls with
  | nil => rfl
  | cons q calls ih =>
      rw [List.mapM_cons]
      simp only [Dialogue.eval_bind, eval_request, ih, Option.bind_some, Dialogue.eval_pure, List.map_cons]

/-- The same question in an equal dimension. -/
def cast {m : Nat} (same : n = m) (q : Product α n) : Product α m :=
  ⟨Vector.cast same q.direction, Vector.cast same q.out⟩

variable [Scalar α]

/-- A dialogue about the selected variables, held with a restricted operator. At first its product at full
length is `full`. -/
def selecting {β : Type} (set : IndexSet (Fin n)) (d : OperatorDialogue α set.size β) (full : Vec α n) :
    OperatorDialogue α n β :=
  Prod.fst <$> d.through (restricted set) full

/-- **A restricted operator answers by `Zᵀ A Z`**, whatever it was asked before. -/
theorem eval_selecting {β : Type} (set : IndexSet (Fin n)) (A : Vec α n → Vec α n)
    (d : OperatorDialogue α set.size β) (full : Vec α n) :
    (selecting set d full).eval (answeredBy A) = d.eval (answeredBy (set.compress A)) := by
  rw [selecting, map_eq_pure_bind, Dialogue.eval_bind, ← eval_restricted set A d full]
  cases (d.through (restricted set) full).eval (answeredBy A) with
  | none => rfl
  | some found => rfl

end Product

namespace IndexSet

/-! ## Increasing sets -/

/-- The indices increase and lie below the dimension. -/
structure SelectsBelow (indices : IndexSet Nat) (n : Nat) : Prop where
  increasing : indices.toList.Pairwise (· < ·)
  below : ∀ i ∈ indices.toList, i < n

theorem index_eq_get {ι : Type} (set : IndexSet ι) (k : Fin set.size) :
    set.index k = set.toList.get k := rfl

theorem distinct_of_increasing {set : IndexSet (Fin n)} (increasing : set.toList.Pairwise (· < ·)) :
    set.Distinct := by
  intro j k same
  have nodup : set.toList.Nodup := increasing.imp fun less => ne_of_lt less
  rw [index_eq_get, index_eq_get] at same
  exact List.nodup_iff_injective_get.1 nodup same

theorem index_mem {set : IndexSet (Fin n)} (k : Fin set.size) : set.index k ∈ set.toList :=
  List.get_mem set.toList k

theorem index_lt {set : IndexSet (Fin n)} (increasing : set.toList.Pairwise (· < ·)) {j k : Fin set.size}
    (less : j < k) : set.index j < set.index k :=
  List.pairwise_iff_get.1 increasing j k less

/-- Indices that lie below the dimension are read as such. -/
theorem exists_mapM_below (indices : List Nat) (below : ∀ i ∈ indices, i < n) :
    ∃ read : List (Fin n), (indices.mapM fun i =>
        if h : i < n then Except.ok (⟨i, h⟩ : Fin n) else .error (Misfit.tooShort (i + 1) n)) = .ok read ∧
      read.map Fin.val = indices := by
  induction indices with
  | nil => exact ⟨[], rfl, rfl⟩
  | cons i indices ih =>
      obtain ⟨read, rest, same⟩ := ih fun j member => below j (List.mem_cons_of_mem i member)
      have inside := below i List.mem_cons_self
      refine ⟨⟨i, inside⟩ :: read, ?_, congrArg (i :: ·) same⟩
      rw [List.mapM_cons, rest, dif_pos inside]
      rfl

/-- **An increasing set below the dimension is an increasing set of its indices.** -/
theorem SelectsBelow.exists_set {indices : IndexSet Nat} (selects : indices.SelectsBelow n) :
    ∃ set : IndexSet (Fin n), indices.below? n = .ok set ∧ set.toList.map Fin.val = indices.toList ∧
      set.toList.Pairwise (· < ·) := by
  obtain ⟨read, mapped, same⟩ := exists_mapM_below indices.toList selects.below
  refine ⟨⟨read.toArray⟩, ?_, same, ?_⟩
  · rw [below?, Array.mapM_eq_mapM_toList]
    change (List.toArray <$> indices.toList.mapM _) >>= _ = _
    rw [mapped]
    rfl
  · have increasing : (read.map Fin.val).Pairwise (· < ·) := by
      rw [same]
      exact selects.increasing
    have ordered := List.pairwise_map.1 increasing
    exact ordered

/-! ## Selections among the selected -/

/-- The variables that are selected among the selected ones. -/
def within (outer : IndexSet (Fin n)) (inner : IndexSet (Fin outer.size)) : IndexSet (Fin n) :=
  ⟨inner.toArray.map outer.index⟩

section Within

variable {outer : IndexSet (Fin n)} {inner : IndexSet (Fin outer.size)}

theorem size_within : (outer.within inner).size = inner.size := Array.size_map

theorem toList_within : (outer.within inner).toList = inner.toList.map outer.index := Array.toList_map

theorem index_within (k : Fin inner.size) :
    (outer.within inner).index (k.cast size_within.symm) = outer.index (inner.index k) :=
  Array.getElem_map ..

theorem distinct_within (distinct : outer.Distinct) (distinct' : inner.Distinct) :
    (outer.within inner).Distinct := by
  intro j k same
  have once : outer.index (inner.index (j.cast size_within)) =
      outer.index (inner.index (k.cast size_within)) := by
    rw [← index_within, ← index_within]
    exact same
  exact Fin.cast_injective size_within (distinct' (distinct once))

/-- Spreading a part twice is spreading it once, over the variables that are selected in the end. -/
theorem scatter_within [Scalar α] (distinct : outer.Distinct) (distinct' : inner.Distinct)
    (v : Vec α inner.size) :
    outer.scatter (inner.scatter v (Vec.zeros outer.size)) (Vec.zeros n) =
      (outer.within inner).scatter (Vector.cast size_within.symm v) (Vec.zeros n) := by
  apply Vec.ext_get
  intro i
  by_cases here : ∃ k, outer.index k = i
  · obtain ⟨k, rfl⟩ := here
    rw [get_scatter_index distinct]
    by_cases both : ∃ l, inner.index l = k
    · obtain ⟨l, rfl⟩ := both
      rw [get_scatter_index distinct', ← index_within,
        get_scatter_index (distinct_within distinct distinct')]
      rfl
    · rw [get_scatter_of_ne _ _ fun l same => both ⟨l, same⟩, Vec.get_zeros, get_scatter_of_ne,
        Vec.get_zeros]
      intro l same
      exact both ⟨l.cast size_within, distinct (by rw [← index_within]; exact same)⟩
  · rw [get_scatter_of_ne _ _ fun k same => here ⟨k, same⟩, get_scatter_of_ne]
    intro l same
    exact here ⟨inner.index (l.cast size_within), by rw [← index_within]; exact same⟩

/-- **Restricting twice is restricting once, to the variables that are selected in the end.** -/
theorem compress_within [Scalar α] (distinct : outer.Distinct) (distinct' : inner.Distinct)
    (A : Vec α n → Vec α n) (v : Vec α inner.size) :
    (outer.within inner).compress A (Vector.cast size_within.symm v) =
      Vector.cast size_within.symm (inner.compress (outer.compress A) v) := by
  simp only [compress, scatter_within distinct distinct']
  apply Vec.ext_get
  intro k
  rw [get_gather]
  have entry : (outer.within inner).index k = outer.index (inner.index (k.cast size_within)) := by
    rw [← index_within]
    rfl
  rw [entry, ← get_gather, ← get_gather]
  rfl

end Within

/-! ## The principal submatrix -/

section Minor

variable {set : IndexSet (Fin n)} {M : Matrix (Fin n) (Fin n) ℝ} {A : Vec EReal n → Vec EReal n}

/-- The entries of a matrix in the selected rows and columns. -/
def minor (set : IndexSet (Fin n)) (M : Matrix (Fin n) (Fin n) ℝ) :
    Matrix (Fin set.size) (Fin set.size) ℝ :=
  M.submatrix set.index set.index

theorem minor_mulVec (v : Fin set.size → ℝ) : set.minor M *ᵥ v = set.compressed M.mulVec v := by
  funext k
  exact (dotProduct_spread (M (set.index k)) v).symm

/-- **Restricted, an operator with a matrix has the principal submatrix.** -/
theorem minor_actsBy (distinct : set.Distinct) (acts : Vec.ActsBy A M.mulVec) :
    Vec.ActsBy (set.compress A) (set.minor M).mulVec := by
  intro v
  rw [compress_actsBy distinct acts, minor_mulVec]

theorem minor_definite (distinct : set.Distinct) (definite : ∀ v, v ≠ 0 → 0 < v ⬝ᵥ M *ᵥ v)
    {v : Fin set.size → ℝ} (nonzero : v ≠ 0) : 0 < v ⬝ᵥ set.minor M *ᵥ v := by
  have spread : set.spread v ≠ 0 := by
    intro zero
    apply nonzero
    funext k
    rw [← spread_index distinct v k, zero]
    rfl
  have same : v ⬝ᵥ set.minor M *ᵥ v = set.spread v ⬝ᵥ M *ᵥ set.spread v := by
    rw [minor_mulVec, compressed, dotProduct_comm, ← dotProduct_spread, dotProduct_comm]
  rw [same]
  exact definite _ spread

end Minor

/-! ## Parts of arrays -/

section Arrays

variable {indices : IndexSet Nat} {set : IndexSet (Fin n)}

theorem getElem?_toArray_congr {x y : Vec α n} {i : Nat}
    (same : ∀ h : i < n, x.get ⟨i, h⟩ = y.get ⟨i, h⟩) : x.toArray[i]? = y.toArray[i]? := by
  by_cases h : i < n
  · rw [Array.getElem?_eq_getElem (by simpa using h), Array.getElem?_eq_getElem (by simpa using h)]
    exact congrArg some (same h)
  · rw [Array.getElem?_eq_none (by simpa using h), Array.getElem?_eq_none (by simpa using h)]

theorem ofFirst?_toArray (v : Vec α n) : Vec.ofFirst? n v.toArray = .ok v := by
  simp [Vec.ofFirst?]

/-- An index that is not in the set is not selected by what the set is read as. -/
theorem index_ne_of_not_mem (same : set.toList.map Fin.val = indices.toList) {i : Nat}
    (outside : i ∉ indices.toList) (inside : i < n) (k : Fin set.size) : set.index k ≠ ⟨i, inside⟩ := by
  intro here
  apply outside
  rw [← same]
  exact List.mem_map.2 ⟨set.index k, index_mem k, congrArg Fin.val here⟩

variable (read : indices.below? n = .ok set)

include read

theorem gather?_toArray (full : Vec α n) : indices.gather? full.toArray = .ok (set.gather full).toArray := by
  obtain ⟨full, rfl⟩ := full
  rw [gather?, read]
  rfl

theorem gatherOver?_toArray (part : Vec α set.size) (full : Vec α n) :
    indices.gatherOver? full.toArray part.toArray = .ok (set.gather full).toArray := by
  obtain ⟨full, rfl⟩ := full
  rw [gatherOver?, read]
  change Vec.overwrite? _ _ = _
  rw [Vec.overwrite?, if_pos (by simp)]
  simp

theorem scatter?_toArray (part : Vec α set.size) (full : Vec α n) :
    indices.scatter? part.toArray full.toArray = .ok (set.scatter part full).toArray := by
  obtain ⟨full, rfl⟩ := full
  rw [scatter?, read]
  change (Vec.ofFirst? set.size part.toArray >>= _) = _
  rw [ofFirst?_toArray]
  rfl

theorem accumulate?_toArray [Add α] (part : Vec α set.size) (full : Vec α n) :
    indices.accumulate? part.toArray full.toArray = .ok (set.accumulate part full).toArray := by
  obtain ⟨full, rfl⟩ := full
  rw [accumulate?, read]
  change (Vec.ofFirst? set.size part.toArray >>= _) = _
  rw [ofFirst?_toArray]
  rfl

end Arrays

/-! ## Restrictions and transports -/

/-- Restricted to the set, an operator by which a matrix acts is the principal submatrix. -/
structure ActsAsMinor (set : IndexSet (Fin n)) (M : Matrix (Fin n) (Fin n) ℝ)
    (A : Vec EReal n → Vec EReal n) : Prop where
  /-- Every product in a sequence of products is the one of the submatrix, whatever the other products are
  with, whatever is handed over to be replaced, and whatever is kept at full length at first. -/
  products : ∀ (calls : List (Product EReal set.size)) (full : Vec EReal n), ∃ outs,
    (Product.selecting set (Product.requests calls) full).ComesTo A outs ∧
      List.Forall₂ (fun q out => ∀ v, q.direction = Vec.ofReal v →
        out = Vec.ofReal fun k => ∑ l, M (set.index k) (set.index l) * v l) calls outs
  /-- The submatrix is symmetric if the matrix is. -/
  symmetric : M.IsSymm → (set.minor M).IsSymm
  /-- The submatrix is positive definite if the matrix is. -/
  definite : (∀ v, v ≠ 0 → 0 < v ⬝ᵥ M *ᵥ v) → ∀ v, v ≠ 0 → 0 < v ⬝ᵥ set.minor M *ᵥ v

/-- Restricted to one set and then to another one among the selected variables, an operator answers every
sequence of products as it does when it is restricted once, to what is selected in the end. -/
structure Composes [Scalar α] (outer : IndexSet (Fin n)) (inner : IndexSet (Fin outer.size))
    (A : Vec α n → Vec α n) : Prop where
  increasing : (outer.within inner).toList.Pairwise (· < ·)
  indices : (outer.within inner).toList = inner.toList.map outer.index
  products : ∀ (calls : List (Product α inner.size)) (part : Vec α outer.size) (full full' : Vec α n),
    ∃ outs,
      (Product.selecting outer (Product.selecting inner (Product.requests calls) part) full).ComesTo A
        outs ∧
      (Product.selecting (outer.within inner)
        (Product.requests (calls.map (Product.cast size_within.symm))) full').ComesTo A
          (outs.map (Vector.cast size_within.symm))

/-- The set moves a part in and out of an array and leaves every other entry of it alone. -/
structure Transports [Add α] (indices : IndexSet Nat) (part full : Array α) : Prop where
  scattered : ∃ written, indices.scatter? part full = .ok written ∧ indices.gather? written = .ok part ∧
    written.size = full.size ∧ ∀ i, i ∉ indices.toList → written[i]? = full[i]?
  accumulated : ∃ old added, indices.gather? full = .ok old ∧ indices.accumulate? part full = .ok added ∧
    indices.gather? added = .ok (Array.zipWith (· + ·) old part) ∧
    added.size = full.size ∧ ∀ i, i ∉ indices.toList → added[i]? = full[i]?
  gathered : ∃ old, indices.gather? full = .ok old ∧ indices.gatherOver? full part = .ok old

theorem actsAsMinor {set : IndexSet (Fin n)} (distinct : set.Distinct) {M : Matrix (Fin n) (Fin n) ℝ}
    {A : Vec EReal n → Vec EReal n} (acts : Vec.ActsBy A M.mulVec) : set.ActsAsMinor M A where
  products calls full := by
    refine ⟨calls.map fun q => set.compress A q.direction, Dialogue.comesTo_of_eval ?_, ?_⟩
    · rw [Product.eval_selecting, Product.eval_requests]
    · rw [List.forall₂_map_right_iff, List.forall₂_same]
      intro q _ v real
      rw [real, minor_actsBy distinct acts]
      rfl
  symmetric symmetric := symmetric.submatrix set.index
  definite definite _ nonzero := minor_definite distinct definite nonzero

theorem composes [Scalar α] {outer : IndexSet (Fin n)} {inner : IndexSet (Fin outer.size)}
    (increasing : outer.toList.Pairwise (· < ·)) (increasing' : inner.toList.Pairwise (· < ·))
    (A : Vec α n → Vec α n) : outer.Composes inner A where
  increasing := by
    rw [toList_within, List.pairwise_map]
    exact increasing'.imp fun less => index_lt increasing less
  indices := toList_within
  products calls part full full' := by
    refine ⟨calls.map fun q => inner.compress (outer.compress A) q.direction,
      Dialogue.comesTo_of_eval ?_, Dialogue.comesTo_of_eval ?_⟩
    · rw [Product.eval_selecting, Product.eval_selecting, Product.eval_requests]
    · rw [Product.eval_selecting, Product.eval_requests, List.map_map, List.map_map]
      congr 1
      refine List.map_congr_left fun q _ => ?_
      exact compress_within (distinct_of_increasing increasing) (distinct_of_increasing increasing') A
        q.direction

theorem transports [Add α] {indices : IndexSet Nat} {set : IndexSet (Fin n)}
    (read : indices.below? n = .ok set) (same : set.toList.map Fin.val = indices.toList)
    (distinct : set.Distinct) (part : Vec α set.size) (full : Vec α n) :
    indices.Transports part.toArray full.toArray := by
  refine ⟨?_, ?_, ?_⟩
  · refine ⟨(set.scatter part full).toArray, scatter?_toArray read part full, ?_, by simp, ?_⟩
    · rw [gather?_toArray read]
      congr 2
      exact Vec.ext_get fun k => by rw [get_gather, get_scatter_index distinct]
    · intro i outside
      exact getElem?_toArray_congr fun inside =>
        get_scatter_of_ne part full (index_ne_of_not_mem same outside inside)
  · refine ⟨(set.gather full).toArray, (set.accumulate part full).toArray, gather?_toArray read full,
      accumulate?_toArray read part full, ?_, by simp, ?_⟩
    · rw [gather?_toArray read, ← Vector.toArray_zipWith]
      congr 2
      apply Vec.ext_get
      intro k
      rw [get_gather, get_accumulate_index distinct, ← get_gather]
      simp [Vec.get_eq_getElem]
    · intro i outside
      exact getElem?_toArray_congr fun inside =>
        get_accumulate_of_ne part full (index_ne_of_not_mem same outside inside)
  · exact ⟨(set.gather full).toArray, gather?_toArray read full, gatherOver?_toArray read part full⟩

/-- **A restricted operator is the principal submatrix for every use.** A strictly increasing set of
indices below `n` is read as a set of indices. Restricted to it, an operator by which a matrix acts on
real vectors answers every sequence of products by the principal submatrix, which is symmetric or positive
definite when the matrix is. Restricting to variables among the selected ones is restricting once, to
these. A part that the set scatters into an array is what it gathers from there; scattering and
accumulating leave all other entries alone; gathering into a part and gathering anew agree. -/
theorem SelectsBelow.restricts {indices : IndexSet Nat} (selects : indices.SelectsBelow n) :
    ∃ set : IndexSet (Fin n), indices.below? n = .ok set ∧ set.toList.map Fin.val = indices.toList ∧
      (∀ (M : Matrix (Fin n) (Fin n) ℝ) (A : Vec EReal n → Vec EReal n),
        Vec.ActsBy A M.mulVec → set.ActsAsMinor M A) ∧
      (∀ (α : Type) [Scalar α] (inner : IndexSet (Fin set.size)) (A : Vec α n → Vec α n),
        inner.toList.Pairwise (· < ·) → set.Composes inner A) ∧
      ∀ (α : Type) [Add α] (part full : Array α), part.size = indices.size → full.size = n →
        indices.Transports part full := by
  obtain ⟨set, read, same, increasing⟩ := selects.exists_set
  have distinct := distinct_of_increasing increasing
  refine ⟨set, read, same, fun M A acts => actsAsMinor distinct acts,
    fun α _ inner A increasing' => composes increasing increasing' A, ?_⟩
  intro α _ part full sizePart sizeFull
  have size : set.size = part.size := by
    have lengths := congrArg List.length same
    rw [List.length_map] at lengths
    exact lengths.trans sizePart.symm
  exact transports read same distinct ⟨part, size.symm⟩ ⟨full, sizeFull⟩

/-- The first and the last of three variables. -/
def outermost : IndexSet Nat := .ofList [0, 2]

theorem outermost_selectsBelow : outermost.SelectsBelow 3 where
  increasing := by decide
  below := by decide

/-- Each variable is coupled with each other one. -/
noncomputable def coupled : Matrix (Fin 3) (Fin 3) ℝ := !![4.0, 1.0, 2.0; 1.0, 5.0, 3.0; 2.0, 3.0, 6.0]

/-- The same variables, by their indices. -/
def ends : IndexSet (Fin 3) := .ofList [0, 2]

/-- The second one of these. -/
def lastEnd : IndexSet (Fin ends.size) := .ofList [Fin.last 1]

theorem below?_outermost : outermost.below? 3 = .ok ends := by
  rw [below?, Array.mapM_eq_mapM_toList]
  rfl

theorem restricts_outermost :
    outermost.SelectsBelow 3 ∧ outermost.below? 3 = .ok ends ∧
      ends.ActsAsMinor coupled (Vec.realMap coupled.mulVec) ∧
      ends.Composes lastEnd (Vec.realMap coupled.mulVec) ∧
      outermost.Transports #[7, 9] #[1, 2, 3] := by
  obtain ⟨set, read, -, minor, composes, transports⟩ :=
    SelectsBelow.restricts outermost_selectsBelow
  obtain rfl : ends = set := Except.ok.inj (below?_outermost.symm.trans read)
  refine ⟨outermost_selectsBelow, read, minor coupled _ (Vec.realMap_ofReal _), ?_, ?_⟩
  · exact composes EReal lastEnd _ (List.pairwise_singleton ..)
  · exact transports Nat #[7, 9] #[1, 2, 3] rfl rfl

end IndexSet

end BoxNewton
