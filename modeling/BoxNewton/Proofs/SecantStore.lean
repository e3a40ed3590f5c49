import Mathlib
import BoxNewton.Proofs.Products
import BoxNewton.Proofs.SecantHistory

/-!
# What a secant memory stores

A memory is offered pairs of arbitrary vectors, their entries numbers or not. It turns a pair away by
comparing its curvature with a tolerance, and stores every other pair in place of the oldest one. So what
it holds is the latest part of what it was offered since it was last emptied, by the pairs that are not
flat (`SecantMemory.KeepsLatest`), and scale and terms are formed from these pairs
(`SecantMemory.IsCoherent`). Both are kept by every call, whatever the scalars are.

Stored are meant to be the pairs whose curvature exceeds the tolerance (`SecantPair.IsCurved`). Where
both are numbers, these are the pairs that are not flat. A curvature or a tolerance that is not a number
compares with nothing, and such a pair is stored as well (`SecantPair.not_isFlat_iff`).
-/

set_option autoImplicit false

namespace BoxNewton

variable {α : Type} [Scalar α] {n : Nat}

/-! ## Curvature -/

namespace SecantPair

/-- What the curvature of a pair has to exceed. -/
def tolerance (pair : SecantPair α n) : α := Scalar.sqrtEpsilon * pair.s.norm * pair.y.norm

/-- The curvature of the pair exceeds the tolerance. -/
def IsCurved (pair : SecantPair α n) : Prop := pair.tolerance < pair.curvature

instance (pair : SecantPair α n) : Decidable pair.IsCurved :=
  inferInstanceAs (Decidable (_ < _))

/-- The curvature and the tolerance of the pair are numbers. -/
def IsMeasured (pair : SecantPair α n) : Prop :=
  Scalar.IsNumber pair.curvature ∧ Scalar.IsNumber pair.tolerance

instance (pair : SecantPair α n) : Decidable pair.IsMeasured :=
  inferInstanceAs (Decidable (_ ∧ _))

variable [Scalar.LawfulOrder α] {pair : SecantPair α n}

/-- Of the pairs that are measured, the flat ones are those without enough curvature. -/
theorem IsMeasured.not_isFlat_iff (measured : pair.IsMeasured) : ¬ pair.IsFlat ↔ pair.IsCurved :=
  ⟨Scalar.lt_of_not_le measured.1 measured.2, fun curved flat => Scalar.not_lt_of_le flat curved⟩

/-- **Not flat are the pairs with enough curvature, and those that cannot be measured.** -/
theorem not_isFlat_iff : ¬ pair.IsFlat ↔ pair.IsCurved ∨ ¬ pair.IsMeasured := by
  by_cases measured : pair.IsMeasured
  · simp only [measured.not_isFlat_iff, measured, not_true, or_false]
  · have free : ¬ pair.IsFlat := fun flat =>
      measured ⟨Scalar.LawfulOrder.number_left flat, Scalar.LawfulOrder.number_right flat⟩
    simp only [free, measured, not_false_eq_true, or_true]

end SecantPair

/-! ## The latest pairs -/

/-- The memory has this capacity and holds the latest pairs with curvature of a history, oldest first, as
many as there is room for. -/
structure SecantMemory.KeepsLatest (memory : SecantMemory α n) (capacity : Nat)
    (history : List (SecantPair α n)) : Prop where
  room : memory.capacity = capacity
  latest : memory.pairs = (history.filter fun pair => ¬ pair.IsFlat).rtake capacity

namespace SecantMemory.KeepsLatest

variable {memory : SecantMemory α n} {capacity : Nat} {history : List (SecantPair α n)}

theorem empty (positive : 0 < capacity) : (SecantMemory.empty n capacity positive).KeepsLatest capacity
    ([] : List (SecantPair α n)) := ⟨rfl, (List.rtake_nil capacity).symm⟩

theorem reset (kept : memory.KeepsLatest capacity history) : memory.reset.KeepsLatest capacity [] :=
  ⟨kept.room, (List.rtake_nil capacity).symm⟩

/-- Once there is room for one more pair, the pairs that are left are the latest ones with this room less. -/
theorem retained {room : Nat} (kept : memory.KeepsLatest (room + 1) history) :
    memory.retained = (history.filter fun pair => ¬ pair.IsFlat).rtake room := by
  unfold SecantMemory.retained SecantMemory.size
  rw [kept.room, kept.latest]
  unfold List.rtake
  rw [List.length_drop]
  split
  · rw [List.drop_drop]
    congr 1
    omega
  · congr 1
    omega

/-- **A memory that keeps the latest pairs does so when one more is offered.** -/
theorem push (kept : memory.KeepsLatest capacity history) (pair : SecantPair α n) :
    (memory.push pair).2.KeepsLatest capacity (history ++ [pair]) := by
  by_cases flat : pair.IsFlat
  · rw [push_of_isFlat flat]
    refine ⟨kept.room, ?_⟩
    simp [List.filter_append, flat, kept.latest]
  · rw [push_of_not_isFlat flat]
    refine ⟨kept.room, ?_⟩
    obtain ⟨room, rfl⟩ : ∃ room, capacity = room + 1 :=
      Nat.exists_eq_add_one.2 (kept.room ▸ memory.capacity_pos)
    have left := kept.retained
    have more : (history ++ [pair]).filter (fun pair => ¬ pair.IsFlat) =
        history.filter (fun pair => ¬ pair.IsFlat) ++ [pair] := by
      simp [List.filter_append, flat]
    rw [more, List.rtake_concat_succ, ← left]
    rfl

end SecantMemory.KeepsLatest

namespace SecantMemory

/-! ## Scale and terms -/

/-- The scale that some pairs determine: the one of the latest pair, and one without pairs. -/
def scaleOf (pairs : List (SecantPair α n)) : α :=
  pairs.getLast?.elim 1 fun pair => pair.y.normSq / pair.curvature

/-- Scale and terms of the memory are those that its pairs determine. -/
structure IsCoherent (memory : SecantMemory α n) : Prop where
  gamma_eq : memory.gamma = scaleOf memory.pairs
  terms_eq : memory.terms = SecantTerm.ofPairs memory.gamma memory.pairs

namespace IsCoherent

variable {memory : SecantMemory α n}

theorem empty {capacity : Nat} (room : 0 < capacity) :
    (SecantMemory.empty n capacity room : SecantMemory α n).IsCoherent := ⟨rfl, rfl⟩

theorem reset (memory : SecantMemory α n) : memory.reset.IsCoherent := ⟨rfl, rfl⟩

theorem store (memory : SecantMemory α n) (pair : SecantPair α n) : (memory.store pair).IsCoherent where
  gamma_eq := by simp only [SecantMemory.store, scaleOf, List.getLast?_concat, Option.elim_some]
  terms_eq := rfl

theorem push (coherent : memory.IsCoherent) (pair : SecantPair α n) : (memory.push pair).2.IsCoherent := by
  by_cases flat : pair.IsFlat
  · rwa [push_of_isFlat flat]
  · rw [push_of_not_isFlat flat]
    exact store memory pair

/-- There is one term for each pair. -/
theorem length_terms (coherent : memory.IsCoherent) : memory.terms.length = memory.size := by
  rw [coherent.terms_eq, SecantTerm.length_ofPairs]
  rfl

end IsCoherent

/-! ## Histories of calls -/

/-- The pairs offered up to and including a call, if these were offered before it. -/
def Call.offered (history : List (SecantPair α n)) : Call α n → List (SecantPair α n)
  | push pair => history ++ [pair]
  | reset => []

/-- The pairs that some calls offered since the memory was last emptied, the oldest first. -/
def offered (calls : List (Call α n)) : List (SecantPair α n) :=
  calls.foldl Call.offered []

/-- **Every call leaves the latest pairs, and what these determine.** -/
theorem Call.change_keeps {memory : SecantMemory α n} {capacity : Nat}
    {history : List (SecantPair α n)} (kept : memory.KeepsLatest capacity history)
    (coherent : memory.IsCoherent) (call : Call α n) :
    (call.change memory).KeepsLatest capacity (call.offered history) ∧ (call.change memory).IsCoherent := by
  cases call with
  | push pair => exact ⟨kept.push pair, coherent.push pair⟩
  | reset => exact ⟨kept.reset, .reset memory⟩

theorem after_keeps {capacity : Nat} (room : 0 < capacity) (calls : List (Call α n)) :
    ((empty n capacity room).after calls).KeepsLatest capacity (offered calls) ∧
      ((empty n capacity room).after calls).IsCoherent := by
  induction calls using List.reverseRecOn with
  | nil => exact ⟨.empty room, .empty room⟩
  | append_singleton before call ih =>
      have last := Call.change_keeps ih.1 ih.2 call
      simpa only [after, offered, List.foldl_append, List.foldl_cons, List.foldl_nil] using last

/-- The memory, after a history of offered pairs, goes by a condition on pairs: it stores those that meet
it and turns away the others. -/
structure Stores (memory : SecantMemory α n) (capacity : Nat) (history : List (SecantPair α n))
    (keep : SecantPair α n → Prop) [DecidablePred keep] : Prop where
  /-- It holds the latest pairs of the history that meet the condition, oldest first. -/
  pairs_eq : memory.pairs = (history.filter keep).rtake capacity
  /-- As many as there are, up to the capacity. -/
  size_eq : memory.size = min capacity (history.filter keep).length
  /-- There is one term for each pair. -/
  length_terms : memory.terms.length = memory.size
  /-- Scale and terms are those of the pairs it holds. -/
  coherent : memory.IsCoherent
  /-- It stores the pairs that meet the condition and no others. -/
  accepts : ∀ pair, (memory.push pair).1 = true ↔ keep pair
  /-- A pair that is turned away leaves nothing behind. -/
  refuses : ∀ pair, (memory.push pair).1 = false → (memory.push pair).2 = memory

theorem KeepsLatest.size_eq {memory : SecantMemory α n} {capacity : Nat}
    {history : List (SecantPair α n)} (kept : memory.KeepsLatest capacity history) :
    memory.size = min capacity (history.filter fun pair => ¬ pair.IsFlat).length := by
  rw [size, kept.latest, List.rtake, List.length_drop]
  omega

theorem push_accepts {memory : SecantMemory α n} {pair : SecantPair α n} :
    (memory.push pair).1 = true ↔ ¬ pair.IsFlat := by
  refine ⟨not_isFlat_of_push, fun curved => ?_⟩
  rw [push_of_not_isFlat curved]

theorem push_refuses {memory : SecantMemory α n} {pair : SecantPair α n}
    (refused : (memory.push pair).1 = false) : (memory.push pair).2 = memory := by
  have flat : pair.IsFlat := by
    by_contra curved
    rw [push_of_not_isFlat curved] at refused
    cases refused
  rw [push_of_isFlat flat]

/-- A memory that keeps the latest pairs goes by every condition that says which pairs are flat. -/
theorem KeepsLatest.stores {memory : SecantMemory α n} {capacity : Nat}
    {history : List (SecantPair α n)} (kept : memory.KeepsLatest capacity history)
    (coherent : memory.IsCoherent) {keep : SecantPair α n → Prop} [DecidablePred keep]
    (same : ∀ pair : SecantPair α n, ¬ pair.IsFlat ↔ keep pair) :
    memory.Stores capacity history keep := by
  have filtered : (history.filter fun pair => ¬ pair.IsFlat) = history.filter keep :=
    List.filter_congr fun pair _ => decide_eq_decide.2 (same pair)
  refine ⟨?_, ?_, coherent.length_terms, coherent, fun pair => ?_, fun _ => push_refuses⟩
  · rw [kept.latest, filtered]
  · rw [kept.size_eq, filtered]
  · rw [push_accepts, same]

/-- **Stored are the latest pairs with enough curvature, and the latest pairs that cannot be measured.**
After every history of calls with arbitrary vectors, the memory holds the latest of these pairs that were
offered since it was last emptied, oldest first and as many as there is room for; it has one term for each
of them, and scale and terms are formed from them; it stores these pairs and no others, and a pair that it
turns away leaves it as it was. So where every pair on offer could be measured, it holds the latest pairs
with enough curvature, and a measured pair is stored if and only if it has enough curvature. -/
theorem after_stores [Scalar.LawfulOrder α] {capacity : Nat} (room : 0 < capacity)
    (calls : List (Call α n)) :
    ((empty n capacity room).after calls).Stores capacity (offered calls)
        (fun pair => pair.IsCurved ∨ ¬ pair.IsMeasured) ∧
      ((∀ pair ∈ offered calls, pair.IsMeasured) →
        ((empty n capacity room).after calls).pairs =
          ((offered calls).filter fun pair => pair.IsCurved).rtake capacity) ∧
      ∀ pair : SecantPair α n, pair.IsMeasured →
        ((((empty n capacity room).after calls).push pair).1 = true ↔ pair.IsCurved) := by
  obtain ⟨kept, coherent⟩ := after_keeps (n := n) (α := α) room calls
  refine ⟨kept.stores coherent fun pair => SecantPair.not_isFlat_iff, fun measured => ?_,
    fun pair measured => ?_⟩
  · rw [kept.latest]
    congr 1
    exact List.filter_congr fun pair member =>
      decide_eq_decide.2 (measured pair member).not_isFlat_iff
  · rw [push_accepts, measured.not_isFlat_iff]

/-! ### Stored and turned away -/

/-- The gradient grows as much as the point. -/
def risingPair : SecantPair Float 1 := ⟨.replicate 1 1, .replicate 1 1⟩

/-- The gradient falls as much as the point grows. -/
def fallingPair : SecantPair Float 1 := ⟨.replicate 1 1, .replicate 1 (-1)⟩

/-- A pair is stored and forgotten, it is stored again, and a pair without curvature is turned away. -/
def rejection : List (Call Float 1) :=
  [.push risingPair, .reset, .push risingPair, .push fallingPair]

theorem after_stores_rejection :
    ((empty 1 1 Nat.one_pos).after rejection).Stores 1 (offered rejection)
        (fun pair => pair.IsCurved ∨ ¬ pair.IsMeasured) ∧
      ((empty 1 1 Nat.one_pos).after rejection).pairs =
        ((offered rejection).filter fun pair => pair.IsCurved).rtake 1 ∧
      ((((empty 1 1 Nat.one_pos).after rejection).push fallingPair).1 = true ↔
        fallingPair.IsCurved) := by
  have rising : risingPair.IsMeasured := by decide +kernel
  have falling : fallingPair.IsMeasured := by decide +kernel
  have measured : ∀ pair ∈ offered rejection, pair.IsMeasured := by
    intro pair member
    have cases : pair = risingPair ∨ pair = fallingPair := by
      simpa [rejection, offered, Call.offered] using member
    rcases cases with rfl | rfl
    · exact rising
    · exact falling
  obtain ⟨stores, latest, accepts⟩ := after_stores Nat.one_pos rejection
  exact ⟨stores, latest measured, accepts fallingPair falling⟩

/-- Along a step the gradient turned into what is not a number. -/
def lostPair : SecantPair Float 1 := ⟨.replicate 1 1, .replicate 1 (0.0 / 0.0)⟩

/-- Its curvature does not exceed the tolerance, and yet it is stored. -/
theorem lostPair_stored :
    ¬ ((empty 1 1 Nat.one_pos).after [.push lostPair]).Stores 1 (offered [.push lostPair])
      SecantPair.IsCurved := by
  intro stores
  have stored : ((empty 1 1 Nat.one_pos).after [.push lostPair]).size = 1 := by decide +kernel
  have curved : ¬ lostPair.IsCurved := by decide +kernel
  have size := stores.size_eq
  rw [stored] at size
  simp [offered, Call.offered, curved] at size

end SecantMemory

end BoxNewton
