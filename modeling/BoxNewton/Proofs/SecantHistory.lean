import Mathlib
import BoxNewton.Proofs.ExactNumbers
import BoxNewton.Proofs.SecantUpdate
import BoxNewton.SecantMemory

/-!
# Secant memories in exact arithmetic

A memory is changed by two calls only: a pair is offered to it, or it forgets its pairs
(`SecantMemory.Call`). Offered real pairs, in whatever order, it always holds pairs with curvature and
what is formed from these (`SecantMemory.Represents`): the scale is the one of the latest pair, and the
terms are the ones of the kept pairs. A dropped pair leaves nothing behind, because scale and terms are
formed anew.

The product of a memory that represents some pairs is the product of the operator that the secant update
learns from them (`SecantMemory.Represents.apply_ofReal`). The two terms of a pair are the two rank-one
maps of its update, with square roots taken into the vectors; by induction on the pairs, the operator
before it is the one whose product the term was formed from (`SecantTerm.product_ofPairs`).

So the approximation is symmetric positive definite after every history of calls, and after a pair has
been stored it satisfies the secant equation (`SecantMemory.after_positiveDefinite`).
-/

set_option autoImplicit false

namespace BoxNewton

/-! ## Histories -/

namespace SecantMemory

/-- What changes a memory. -/
inductive Call (α : Type) (n : Nat) where
  | push (pair : SecantPair α n)
  | reset

variable {α : Type} [Scalar α] {n : Nat}

/-- The memory after a call. -/
def Call.change (memory : SecantMemory α n) : Call α n → SecantMemory α n
  | push pair => (memory.push pair).2
  | reset => memory.reset

/-- The memory after some calls, the first one first. -/
def after (memory : SecantMemory α n) (calls : List (Call α n)) : SecantMemory α n :=
  calls.foldl Call.change memory

theorem push_of_isFlat {memory : SecantMemory α n} {pair : SecantPair α n} (flat : pair.IsFlat) :
    memory.push pair = (false, memory) :=
  if_pos flat

theorem push_of_not_isFlat {memory : SecantMemory α n} {pair : SecantPair α n}
    (curved : ¬ pair.IsFlat) : memory.push pair = (true, memory.store pair) :=
  if_neg curved

/-- Only a pair that is not flat is stored. -/
theorem not_isFlat_of_push {memory : SecantMemory α n} {pair : SecantPair α n}
    (stored : (memory.push pair).1 = true) : ¬ pair.IsFlat := by
  intro flat
  rw [push_of_isFlat flat] at stored
  cases stored

end SecantMemory

namespace SecantTerm

variable {α : Type} [Scalar α] {n : Nat}

/-- The terms of some pairs are those of the pairs before the last one, and its term on top of them. -/
theorem ofPairs_append (gamma : α) (pairs : List (SecantPair α n)) (pair : SecantPair α n) :
    ofPairs gamma (pairs ++ [pair]) =
      ofPairs gamma pairs ++ [ofPair gamma (ofPairs gamma pairs) pair] := by
  rw [ofPairs, List.foldl_append]
  rfl

theorem length_ofPairs (gamma : α) (pairs : List (SecantPair α n)) :
    (ofPairs gamma pairs).length = pairs.length := by
  induction pairs using List.reverseRecOn with
  | nil => rfl
  | append_singleton before pair ih =>
      rw [ofPairs_append, List.length_append, List.length_append, ih]
      rfl

end SecantTerm

/-! ## Real pairs -/

variable {n : Nat}

/-- A pair of real vectors. -/
noncomputable def SecantPair.ofReal (s y : Fin n → ℝ) : SecantPair EReal n :=
  ⟨Vec.ofReal s, Vec.ofReal y⟩

/-- A pair with curvature as a memory keeps it. -/
noncomputable def CurvedPair.stored (pair : CurvedPair n) : SecantPair EReal n :=
  .ofReal pair.s pair.y

/-- A call that hands over real vectors only. -/
def SecantMemory.Call.IsReal : Call EReal n → Prop
  | push pair => ∃ s y, pair = .ofReal s y
  | reset => True

theorem SecantPair.isFlat_ofReal {s y : Fin n → ℝ} :
    (ofReal s y).IsFlat ↔ y ⬝ᵥ s ≤ 1.4901161193847656e-8 * √(s ⬝ᵥ s) * √(y ⬝ᵥ y) := by
  simp only [IsFlat, curvature, ofReal, Vec.dot_ofReal, Vec.norm_ofReal, Scalar.sqrtEpsilon_eq,
    ← EReal.coe_mul, EReal.coe_le_coe_iff]

/-- A pair that is not flat has curvature. -/
theorem SecantPair.exists_curvedPair {s y : Fin n → ℝ} (curved : ¬ (ofReal s y).IsFlat) :
    ∃ pair : CurvedPair n, pair.s = s ∧ pair.y = y := by
  rw [isFlat_ofReal, not_le] at curved
  have bound : 0 ≤ 1.4901161193847656e-8 * √(s ⬝ᵥ s) * √(y ⬝ᵥ y) := by positivity
  exact ⟨⟨s, y, bound.trans_lt curved⟩, rfl, rfl⟩

namespace SecantTerm

/-- A term with real vectors, its square roots taken into them, adds two rank-one maps. -/
theorem addTo_ofReal {a b v total : Fin n → ℝ} {c d : ℝ} (hc : 0 ≤ c) (hd : 0 ≤ d) :
    addTo ⟨Vec.ofReal ((√c)⁻¹ • a), Vec.ofReal ((√d)⁻¹ • b)⟩ (Vec.ofReal v) (Vec.ofReal total) =
      Vec.ofReal (total + rankOne b d v - rankOne a c v) := by
  simp only [addTo, Vec.dot_ofReal, Vec.addScaled_ofReal, ← EReal.coe_neg]
  rw [neg_smul, root_rankOne b v hd, root_rankOne a v hc, ← sub_eq_add_neg]

/-- The term of a pair, where the terms before it make up the product of an approximation. There is
curvature along the step, so the subtracted vector is not the zero vector. -/
theorem ofPair_stored {gamma : EReal} {before : List (SecantTerm EReal n)} {B : Curvature n}
    (made : ∀ v, product gamma before (Vec.ofReal v) = Vec.ofReal (B v)) (pair : CurvedPair n) :
    ofPair gamma before pair.stored =
      ⟨Vec.ofReal ((√(pair.s ⬝ᵥ B pair.s))⁻¹ • B pair.s),
        Vec.ofReal ((√(pair.y ⬝ᵥ pair.s))⁻¹ • pair.y)⟩ := by
  have curved := B.step_curvature_pos pair
  simp only [ofPair, CurvedPair.stored, SecantPair.ofReal, made, Vec.dot_ofReal, EReal.coe_pos,
    if_pos curved, Scalar.sqrt_coe, Vec.divideBy_ofReal]

/-- What the term of a pair adds to a real vector, where the terms before it make up the product of
an approximation. -/
theorem addTo_ofPair {gamma : EReal} {before : List (SecantTerm EReal n)} {B : Curvature n}
    (made : ∀ v, product gamma before (Vec.ofReal v) = Vec.ofReal (B v)) (pair : CurvedPair n)
    (v : Fin n → ℝ) :
    (ofPair gamma before pair.stored).addTo (Vec.ofReal v) (Vec.ofReal (B v)) =
      Vec.ofReal (B.update pair v) := by
  rw [ofPair_stored made, addTo_ofReal (B.step_curvature_pos pair).le pair.curved.le,
    Curvature.update_apply]

theorem product_append (gamma : EReal) (terms : List (SecantTerm EReal n))
    (term : SecantTerm EReal n) (v : Vec EReal n) :
    product gamma (terms ++ [term]) v = term.addTo v (product gamma terms v) := by
  rw [product, List.foldl_append]
  rfl

/-- **The terms of some pairs make up the product of the updates with them.** -/
theorem product_ofPairs {gamma : ℝ} (positive : 0 < gamma) (pairs : List (CurvedPair n))
    (v : Fin n → ℝ) :
    product (gamma : EReal) (ofPairs (gamma : EReal) (pairs.map CurvedPair.stored)) (Vec.ofReal v) =
      Vec.ofReal (pairs.foldl Curvature.update (.scaling n gamma positive) v) := by
  induction pairs using List.reverseRecOn generalizing v with
  | nil =>
      rw [List.foldl_nil, Curvature.scaling_apply]
      exact Vec.scaleBy_ofReal v gamma
  | append_singleton before pair ih =>
      rw [List.map_append, List.map_singleton, ofPairs_append, product_append, ih v, addTo_ofPair ih,
        List.foldl_append]
      rfl

end SecantTerm

/-! ## What a memory holds -/

namespace SecantMemory

/-- The memory keeps these pairs, and its scale and terms are the ones formed from them. -/
structure Represents (memory : SecantMemory EReal n) (pairs : List (CurvedPair n)) : Prop where
  pairs_eq : memory.pairs = pairs.map CurvedPair.stored
  gamma_eq : memory.gamma = (Curvature.latestScale pairs : ℝ)
  terms_eq : memory.terms = SecantTerm.ofPairs memory.gamma memory.pairs

namespace Represents

variable {memory : SecantMemory EReal n} {pairs : List (CurvedPair n)}

/-- **A memory applies what is learnt from its pairs.** -/
theorem apply_ofReal (held : memory.Represents pairs) (v : Fin n → ℝ) :
    memory.apply (Vec.ofReal v) = Vec.ofReal (Curvature.learnt pairs v) := by
  rw [apply, held.terms_eq, held.pairs_eq, held.gamma_eq]
  exact SecantTerm.product_ofPairs (Curvature.latestScale_pos pairs) pairs v

theorem empty {capacity : Nat} (room : 0 < capacity) :
    (SecantMemory.empty n capacity room).Represents [] where
  pairs_eq := rfl
  gamma_eq := rfl
  terms_eq := rfl

theorem reset : memory.reset.Represents [] where
  pairs_eq := rfl
  gamma_eq := rfl
  terms_eq := rfl

/-- The kept pairs stay pairs with curvature when the oldest one goes. -/
theorem retained (held : memory.Represents pairs) :
    ∃ rest : List (CurvedPair n), memory.retained = rest.map CurvedPair.stored := by
  unfold SecantMemory.retained
  split
  · exact ⟨pairs.drop 1, by rw [held.pairs_eq, List.map_drop]⟩
  · exact ⟨pairs, held.pairs_eq⟩

/-- The stored pair is the latest one of those that the memory then represents. -/
theorem store (held : memory.Represents pairs) (pair : CurvedPair n) :
    ∃ rest : List (CurvedPair n), (memory.store pair.stored).Represents (rest ++ [pair]) := by
  obtain ⟨rest, kept⟩ := held.retained
  refine ⟨rest, ?_, ?_, rfl⟩
  · rw [List.map_append, ← kept]
    rfl
  · simp only [SecantMemory.store, SecantPair.curvature, CurvedPair.stored, SecantPair.ofReal,
      Vec.normSq_ofReal, Vec.dot_ofReal]
    rw [Curvature.latestScale_append, CurvedPair.scale, EReal.coe_div]

/-- A real pair that is not flat is stored as the latest one. -/
theorem stored (held : memory.Represents pairs) {s y : Fin n → ℝ}
    (curved : ¬ (SecantPair.ofReal s y).IsFlat) :
    ∃ (rest : List (CurvedPair n)) (pair : CurvedPair n), pair.s = s ∧ pair.y = y ∧
      (memory.push (.ofReal s y)).2.Represents (rest ++ [pair]) := by
  obtain ⟨pair, rfl, rfl⟩ := SecantPair.exists_curvedPair curved
  obtain ⟨rest, represents⟩ := held.store pair
  rw [push_of_not_isFlat curved]
  exact ⟨rest, pair, rfl, rfl, represents⟩

/-- Every real call leaves a memory that represents some pairs. -/
theorem change (held : memory.Represents pairs) {call : Call EReal n} (real : call.IsReal) :
    ∃ rest : List (CurvedPair n), (call.change memory).Represents rest := by
  cases call with
  | push pair =>
      obtain ⟨s, y, rfl⟩ := real
      by_cases flat : (SecantPair.ofReal s y).IsFlat
      · rw [Call.change, push_of_isFlat flat]
        exact ⟨pairs, held⟩
      · obtain ⟨rest, pair, -, -, represents⟩ := held.stored flat
        exact ⟨rest ++ [pair], represents⟩
  | reset => exact ⟨[], reset⟩

/-- After every history of real calls, a memory represents some pairs. -/
theorem after (held : memory.Represents pairs) (calls : List (Call EReal n))
    (real : ∀ call ∈ calls, call.IsReal) :
    ∃ rest : List (CurvedPair n), (memory.after calls).Represents rest := by
  induction calls generalizing memory pairs with
  | nil => exact ⟨pairs, held⟩
  | cons call calls ih =>
      obtain ⟨rest, represents⟩ := held.change (real call List.mem_cons_self)
      exact ih represents fun later member => real later (List.mem_cons_of_mem call member)

/-- **After a pair has been stored, the secant equation holds.** -/
theorem secant (held : memory.Represents pairs) {s y : Fin n → ℝ}
    (stored : (memory.push (.ofReal s y)).1 = true) :
    (memory.push (.ofReal s y)).2.apply (Vec.ofReal s) = Vec.ofReal y := by
  obtain ⟨rest, pair, rfl, rfl, represents⟩ := held.stored (not_isFlat_of_push stored)
  rw [represents.apply_ofReal, Curvature.learnt_secant]

end Represents

/-- **The approximation is symmetric positive definite, and satisfies the secant equation.** Whatever
real pairs were offered to a memory, stored in it, dropped from it or forgotten, its product is a linear
map `B` with `uᵀ(Bv) = vᵀ(Bu)` and, for every `v` that is not zero, `0 < vᵀ(Bv)`. After a pair that it
stored, `B s = y`. -/
theorem after_positiveDefinite {capacity : Nat} (room : 0 < capacity) (calls : List (Call EReal n))
    (real : ∀ call ∈ calls, call.IsReal) :
    (∃ B : (Fin n → ℝ) →ₗ[ℝ] Fin n → ℝ,
      (∀ v, ((empty n capacity room).after calls).apply (Vec.ofReal v) = Vec.ofReal (B v)) ∧
      (∀ u v, u ⬝ᵥ B v = v ⬝ᵥ B u) ∧
      ∀ v, v ≠ 0 → 0 < v ⬝ᵥ B v) ∧
    ∀ s y : Fin n → ℝ, (((empty n capacity room).after calls).push (.ofReal s y)).1 = true →
      (((empty n capacity room).after calls).push (.ofReal s y)).2.apply (Vec.ofReal s) =
        Vec.ofReal y := by
  obtain ⟨pairs, held⟩ := (Represents.empty (n := n) room).after calls real
  refine ⟨⟨(Curvature.learnt pairs).map, held.apply_ofReal, ?_, (Curvature.learnt pairs).positive⟩, ?_⟩
  · intro u v
    rw [(Curvature.learnt pairs).symmetric, dotProduct_comm]
  · intro s y stored
    exact held.secant stored

/-! ### A history -/

/-- A pair is stored and forgotten, another one is stored, and a pair without curvature is turned
away. -/
noncomputable def turnover : List (Call EReal 2) :=
  [.push (.ofReal ![1, 0] ![1, 1]), .reset, .push (.ofReal ![0, 1] ![-1, 1]),
    .push (.ofReal ![1, 0] ![-1, 0])]

theorem turnover_real : ∀ call ∈ turnover, call.IsReal := by
  intro call member
  simp only [turnover, List.mem_cons, List.not_mem_nil, or_false] at member
  obtain rfl | rfl | rfl | rfl := member
  · exact ⟨_, _, rfl⟩
  · trivial
  · exact ⟨_, _, rfl⟩
  · exact ⟨_, _, rfl⟩

/-- The curvature `5` of the pair is far above the tolerance. -/
theorem diagonal_not_isFlat : ¬ (SecantPair.ofReal ![1, 1] ![2, 3]).IsFlat := by
  rw [SecantPair.isFlat_ofReal, dot_pair, dot_pair, dot_pair, not_le]
  have step : √(1 * 1 + 1 * 1 : ℝ) ≤ 2 := Real.sqrt_le_iff.2 ⟨by norm_num, by norm_num⟩
  have change : √(2 * 2 + 3 * 3 : ℝ) ≤ 4 := Real.sqrt_le_iff.2 ⟨by norm_num, by norm_num⟩
  calc 1.4901161193847656e-8 * √(1 * 1 + 1 * 1 : ℝ) * √(2 * 2 + 3 * 3 : ℝ)
      ≤ 1.4901161193847656e-8 * 2 * 4 := by gcongr
    _ < 2 * 1 + 3 * 1 := by norm_num

/-- With room for one pair, another pair takes the place of the one that is left. -/
theorem after_positiveDefinite_turnover :
    (∃ B : (Fin 2 → ℝ) →ₗ[ℝ] Fin 2 → ℝ,
      (∀ v, ((empty 2 1 one_pos).after turnover).apply (Vec.ofReal v) = Vec.ofReal (B v)) ∧
      (∀ u v, u ⬝ᵥ B v = v ⬝ᵥ B u) ∧
      ∀ v, v ≠ 0 → 0 < v ⬝ᵥ B v) ∧
    (((empty 2 1 one_pos).after turnover).push (.ofReal ![1, 1] ![2, 3])).1 = true ∧
      (((empty 2 1 one_pos).after turnover).push (.ofReal ![1, 1] ![2, 3])).2.apply
        (Vec.ofReal ![1, 1]) = Vec.ofReal ![2, 3] := by
  have stored : (((empty 2 1 one_pos).after turnover).push (.ofReal ![1, 1] ![2, 3])).1 = true := by
    rw [push_of_not_isFlat diagonal_not_isFlat]
  obtain ⟨definite, secant⟩ := after_positiveDefinite one_pos turnover turnover_real
  exact ⟨definite, stored, secant _ _ stored⟩

end SecantMemory

end BoxNewton
