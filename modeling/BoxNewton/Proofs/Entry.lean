import Mathlib
import BoxNewton.Box

/-!
# Entries of vectors

What the operations on vectors do to one entry. The elementwise operations are read off directly.
Writing a part of a vector back changes the selected entries and no others: an entry of the result is
an entry of the part or an entry of the old vector (`get_scatter_cases`), and when no index is
selected twice, the selected entries are exactly those of the part (`get_scatter_index`).

The free variables are listed without repetition, so they form such a set (`freeVariables_distinct`).
-/

set_option autoImplicit false

namespace BoxNewton

namespace Vec

variable {α : Type} {n : Nat}

theorem get_eq_getElem (x : Vec α n) (i : Fin n) : x.get i = x[i.val] := rfl

theorem ext_get {x y : Vec α n} (h : ∀ i : Fin n, x.get i = y.get i) : x = y :=
  Vector.ext fun i hi => h ⟨i, hi⟩

@[simp] theorem get_ofFn (f : Fin n → α) (i : Fin n) : Vector.get (Vector.ofFn f) i = f i := by
  simp [get_eq_getElem]

theorem get_set (x : Vec α n) (j : Fin n) (a : α) (i : Fin n) :
    Vector.get (x.set j.val a j.isLt) i = if j = i then a else x.get i := by
  simp [get_eq_getElem, Vector.getElem_set, Fin.ext_iff]

@[simp] theorem get_add [Add α] (x y : Vec α n) (i : Fin n) :
    Vector.get (x + y) i = x.get i + y.get i := by
  simp [get_eq_getElem]

@[simp] theorem get_sub [Sub α] (x y : Vec α n) (i : Fin n) :
    Vector.get (x - y) i = x.get i - y.get i := by
  simp [get_eq_getElem]

@[simp] theorem get_neg [Neg α] (x : Vec α n) (i : Fin n) : Vector.get (-x) i = -x.get i := by
  simp [get_eq_getElem]

@[simp] theorem get_zeros [Scalar α] (i : Fin n) : Vector.get (zeros n : Vec α n) i = 0 := by
  simp [zeros, get_eq_getElem]

end Vec

/-! ## Parts of vectors -/

namespace IndexSet

variable {α : Type} {n : Nat} (set : IndexSet (Fin n))

@[simp] theorem get_gather (full : Vec α n) (k : Fin set.size) :
    (set.gather full).get k = full.get (set.index k) := by
  simp [gather]

/-- Holds when no index is selected twice. -/
def Distinct : Prop := Function.Injective set.index

/-- Changing selected entries one after the other leaves the others alone. -/
theorem get_foldl_of_ne (update : Fin set.size → α → α) (i : Fin n) :
    ∀ (ks : List (Fin set.size)) (v : Vec α n), (∀ k ∈ ks, set.index k ≠ i) →
      (ks.foldl (fun v k => v.set (set.index k).val (update k (v.get (set.index k)))
        (set.index k).isLt) v).get i = v.get i
  | [], _, _ => rfl
  | k :: ks, v, away => by
      rw [List.foldl_cons,
        get_foldl_of_ne update i ks _ fun j hj => away j (List.mem_cons_of_mem k hj),
        Vec.get_set, if_neg (away k List.mem_cons_self)]

/-- When no index is selected twice, every selected entry is changed once. -/
theorem get_foldl_index (distinct : set.Distinct) (update : Fin set.size → α → α)
    (k : Fin set.size) :
    ∀ (ks : List (Fin set.size)) (v : Vec α n), ks.Nodup → k ∈ ks →
      (ks.foldl (fun v k => v.set (set.index k).val (update k (v.get (set.index k)))
        (set.index k).isLt) v).get (set.index k) = update k (v.get (set.index k))
  | [], _, _, member => by simp at member
  | j :: ks, v, nodup, member => by
      obtain ⟨new, rest⟩ := List.nodup_cons.1 nodup
      rw [List.foldl_cons]
      by_cases same : k = j
      · subst same
        have away : ∀ l ∈ ks, set.index l ≠ set.index k := by
          intro l hl equal
          exact new (distinct equal ▸ hl)
        rw [get_foldl_of_ne set update _ ks _ away, Vec.get_set, if_pos rfl]
      · have later : k ∈ ks := (List.mem_cons.1 member).resolve_left same
        rw [get_foldl_index distinct update k ks _ rest later, Vec.get_set,
          if_neg fun equal => same (distinct equal).symm]

/-- An entry of the result of `scatter` is an old entry or an entry of the part. -/
theorem get_scatter_cases (part : Vec α set.size) (full : Vec α n) (i : Fin n) :
    (set.scatter part full).get i = full.get i ∨
      ∃ k : Fin set.size, set.index k = i ∧ (set.scatter part full).get i = part.get k := by
  have walk : ∀ (ks : List (Fin set.size)) (v : Vec α n),
      (ks.foldl (fun v k => v.set (set.index k).val (part.get k) (set.index k).isLt) v).get i =
          v.get i ∨
        ∃ k : Fin set.size, set.index k = i ∧
          (ks.foldl (fun v k => v.set (set.index k).val (part.get k) (set.index k).isLt) v).get i =
            part.get k := by
    intro ks
    induction ks with
    | nil => exact fun v => .inl rfl
    | cons j ks ih =>
        intro v
        rw [List.foldl_cons]
        rcases ih (v.set (set.index j).val (part.get j) (set.index j).isLt) with old | new
        · by_cases here : set.index j = i
          · exact .inr ⟨j, here, by rw [old, Vec.get_set, if_pos here]⟩
          · exact .inl (by rw [old, Vec.get_set, if_neg here])
        · exact .inr new
  rw [scatter, Fin.foldl_eq_finRange_foldl]
  exact walk _ full

variable {set}

theorem get_scatter_index (distinct : set.Distinct) (part : Vec α set.size) (full : Vec α n)
    (k : Fin set.size) : (set.scatter part full).get (set.index k) = part.get k := by
  rw [scatter, Fin.foldl_eq_finRange_foldl]
  exact get_foldl_index set distinct (fun k _ => part.get k) k _ full (List.nodup_finRange _)
    (List.mem_finRange k)

theorem get_scatter_of_ne (part : Vec α set.size) (full : Vec α n) {i : Fin n}
    (away : ∀ k, set.index k ≠ i) : (set.scatter part full).get i = full.get i := by
  rw [scatter, Fin.foldl_eq_finRange_foldl]
  exact get_foldl_of_ne set (fun k _ => part.get k) i _ full fun k _ => away k

theorem get_accumulate_index [Add α] (distinct : set.Distinct) (part : Vec α set.size)
    (full : Vec α n) (k : Fin set.size) :
    (set.accumulate part full).get (set.index k) = full.get (set.index k) + part.get k := by
  rw [accumulate, Fin.foldl_eq_finRange_foldl]
  exact get_foldl_index set distinct (fun k old => old + part.get k) k _ full
    (List.nodup_finRange _) (List.mem_finRange k)

theorem get_accumulate_of_ne [Add α] (part : Vec α set.size) (full : Vec α n) {i : Fin n}
    (away : ∀ k, set.index k ≠ i) : (set.accumulate part full).get i = full.get i := by
  rw [accumulate, Fin.foldl_eq_finRange_foldl]
  exact get_foldl_of_ne set (fun k old => old + part.get k) i _ full fun k _ => away k

end IndexSet

/-! ## Boxes -/

namespace Box

variable {α : Type} [Scalar α] {n : Nat}

@[simp] theorem get_project (box : Box α n) (x : Vec α n) (i : Fin n) :
    (box.project x).get i = clamp (box.lower i) (box.upper i) (x.get i) := by
  simp [project]

@[simp] theorem get_projectedStep (box : Box α n) (x d : Vec α n) (t : α) (i : Fin n) :
    (box.projectedStep x d t).get i =
      Scalar.smaller (Scalar.larger (x.get i + t * d.get i) (box.lower i)) (box.upper i) -
        x.get i := by
  simp [projectedStep]

theorem mem_freeVariables {box : Box α n} {x g : Vec α n} {i : Fin n} :
    i ∈ (box.freeVariables x g).toList ↔ box.IsFree x g i := by
  simp [freeVariables, IndexSet.ofList, IndexSet.toList]

/-- The free variables are listed in increasing order. -/
theorem freeVariables_increasing (box : Box α n) (x g : Vec α n) :
    (box.freeVariables x g).toList.Pairwise (· < ·) :=
  (List.pairwise_lt_finRange n).filter _

/-- The free variables are listed without repetition. -/
theorem freeVariables_distinct (box : Box α n) (x g : Vec α n) :
    (box.freeVariables x g).Distinct := by
  intro j k same
  have nodup : ((List.finRange n).filter fun i => box.IsFree x g i).Nodup :=
    (List.nodup_finRange n).filter _
  exact Fin.ext ((List.Nodup.getElem_inj_iff nodup).1 same)

end Box

end BoxNewton
