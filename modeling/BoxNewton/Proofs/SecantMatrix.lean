import Mathlib
import BoxNewton.Proofs.SecantHistory
import BoxNewton.SecantMemory.AnySize

/-!
# Secant memories and the textbook matrix

The textbook forms the BFGS approximation as a matrix. It starts from the multiple of the identity that
suits the latest pair, and updates it with the kept pairs, from the oldest to the newest, by

  `B + yyᵀ / (yᵀs) - (Bs)(Bs)ᵀ / (sᵀBs)`

(`SecantMatrix.update`, `SecantMatrix.formed`). A memory never forms this matrix. It keeps two vectors for
each pair and adds up rank-one products, where the vectors of a pair depend on those of all pairs before
it and on the scale of the latest one.

After every history of real calls the two agree (`SecantMemory.after_isFormed`): the scale, every kept
term and the product are those of the matrix. The divisors in the updates are positive, so no pair ever
gets the zero vector that stands in where there is no curvature. Two histories that end with the same
pairs end with the same scale and the same terms, whatever was dropped or forgotten on the way.
-/

set_option autoImplicit false

namespace BoxNewton

open Matrix

variable {n : Nat}

/-! ## The matrix -/

namespace SecantMatrix

/-- The update of a matrix with a pair. -/
noncomputable def update (B : Matrix (Fin n) (Fin n) ℝ) (pair : CurvedPair n) :
    Matrix (Fin n) (Fin n) ℝ :=
  B + (pair.y ⬝ᵥ pair.s)⁻¹ • vecMulVec pair.y pair.y -
    (pair.s ⬝ᵥ B *ᵥ pair.s)⁻¹ • vecMulVec (B *ᵥ pair.s) (B *ᵥ pair.s)

/-- A multiple of the identity, updated with some pairs, the oldest first. -/
noncomputable def updated (gamma : ℝ) (pairs : List (CurvedPair n)) : Matrix (Fin n) (Fin n) ℝ :=
  pairs.foldl update (gamma • 1)

/-- The matrix that some pairs determine. -/
noncomputable def formed (pairs : List (CurvedPair n)) : Matrix (Fin n) (Fin n) ℝ :=
  updated (Curvature.latestScale pairs) pairs

theorem smul_vecMulVec_mulVec (u v : Fin n → ℝ) (c : ℝ) :
    (c⁻¹ • vecMulVec u u) *ᵥ v = rankOne u c v := by
  rw [smul_mulVec, vecMulVec_mulVec, op_smul_eq_smul, smul_smul, rankOne_apply, div_eq_inv_mul]

/-- Where a matrix is the one of an operator, its update is the one of the updated operator. -/
theorem update_mulVec {B : Curvature n} {M : Matrix (Fin n) (Fin n) ℝ} (same : ∀ v, B v = M *ᵥ v)
    (pair : CurvedPair n) (v : Fin n → ℝ) : B.update pair v = update M pair *ᵥ v := by
  rw [Curvature.update_apply, update, sub_mulVec, add_mulVec, smul_vecMulVec_mulVec,
    smul_vecMulVec_mulVec, same, same]

theorem updated_mulVec {gamma : ℝ} (positive : 0 < gamma) (pairs : List (CurvedPair n))
    (v : Fin n → ℝ) :
    pairs.foldl Curvature.update (.scaling n gamma positive) v = updated gamma pairs *ᵥ v := by
  induction pairs using List.reverseRecOn generalizing v with
  | nil =>
      rw [List.foldl_nil, updated, List.foldl_nil, Curvature.scaling_apply, smul_mulVec, one_mulVec]
  | append_singleton before pair ih =>
      rw [updated, List.foldl_append, List.foldl_append]
      exact update_mulVec ih pair v

/-- **The operator that is learnt from some pairs is the matrix that they determine.** -/
theorem learnt_eq_formed (pairs : List (CurvedPair n)) (v : Fin n → ℝ) :
    Curvature.learnt pairs v = formed pairs *ᵥ v :=
  updated_mulVec (Curvature.latestScale_pos pairs) pairs v

/-- The matrix before an update has curvature along the step of the pair. -/
theorem updated_curvature_pos {gamma : ℝ} (positive : 0 < gamma) (before : List (CurvedPair n))
    (pair : CurvedPair n) : 0 < pair.s ⬝ᵥ updated gamma before *ᵥ pair.s := by
  rw [← updated_mulVec positive]
  exact Curvature.step_curvature_pos _ pair

end SecantMatrix

/-! ## The terms of some pairs -/

namespace SecantTerm

/-- The term of a pair is formed on top of the terms of the pairs before it. No later pair changes it,
but for the scale. -/
theorem getElem?_ofPairs (gamma : EReal) (before later : List (SecantPair EReal n))
    (pair : SecantPair EReal n) :
    (ofPairs gamma (before ++ pair :: later))[before.length]? =
      some (ofPair gamma (ofPairs gamma before) pair) := by
  induction later using List.reverseRecOn with
  | nil =>
      rw [ofPairs_append, List.getElem?_append_right (by rw [length_ofPairs]), length_ofPairs,
        Nat.sub_self]
      rfl
  | append_singleton later last ih =>
      rw [← List.cons_append, ← List.append_assoc, ofPairs_append, List.getElem?_append_left, ih]
      rw [length_ofPairs, List.length_append, List.length_cons]
      omega

/-- The first terms are those of the first pairs. -/
theorem take_ofPairs (gamma : EReal) (pairs : List (SecantPair EReal n)) (k : Nat) :
    (ofPairs gamma pairs).take k = ofPairs gamma (pairs.take k) := by
  induction pairs using List.reverseRecOn with
  | nil => rw [List.take_nil, ofPairs, List.foldl_nil, List.take_nil]
  | append_singleton before pair ih =>
      rcases Nat.lt_or_ge before.length k with beyond | within
      · have whole : (before ++ [pair]).length ≤ k := by
          rw [List.length_append]
          exact beyond
        rw [List.take_of_length_le whole, List.take_of_length_le]
        rw [length_ofPairs]
        exact whole
      · rw [List.take_append_of_le_length within, ofPairs_append, List.take_append_of_le_length, ih]
        rw [length_ofPairs]
        exact within

/-- The term of a pair, by the matrix that the pairs before it have led to. -/
theorem ofPair_updated {gamma : ℝ} (positive : 0 < gamma) (before : List (CurvedPair n))
    (pair : CurvedPair n) :
    ofPair (gamma : EReal) (ofPairs gamma (before.map CurvedPair.stored)) pair.stored =
      let B := SecantMatrix.updated gamma before
      ⟨Vec.ofReal ((√(pair.s ⬝ᵥ B *ᵥ pair.s))⁻¹ • B *ᵥ pair.s),
        Vec.ofReal ((√(pair.y ⬝ᵥ pair.s))⁻¹ • pair.y)⟩ := by
  rw [ofPair_stored (product_ofPairs positive before), SecantMatrix.updated_mulVec]

end SecantTerm

theorem CurvedPair.stored_injective : Function.Injective (stored : CurvedPair n → _) := by
  rintro ⟨s, y, curved⟩ ⟨s', y', curved'⟩ same
  obtain rfl := Vec.ofReal_injective (congrArg SecantPair.s same)
  obtain rfl := Vec.ofReal_injective (congrArg SecantPair.y same)
  rfl

/-! ## What a memory holds -/

namespace SecantMemory

/-- The memory keeps these pairs, and its scale, its terms and its product are those of the matrix that
is formed from them. -/
structure IsFormed (memory : SecantMemory EReal n) (pairs : List (CurvedPair n)) : Prop where
  pairs_eq : memory.pairs = pairs.map CurvedPair.stored
  gamma_eq : memory.gamma = (Curvature.latestScale pairs : ℝ)
  apply_eq : ∀ v, memory.apply (Vec.ofReal v) = Vec.ofReal (SecantMatrix.formed pairs *ᵥ v)
  /-- The divisors of each update are positive, and the two vectors of its pair are `Bs / √(sᵀBs)` and
  `y / √(yᵀs)` for the matrix before it. -/
  term_eq : ∀ before pair later, pairs = before ++ pair :: later →
    let B := SecantMatrix.updated (Curvature.latestScale pairs) before
    0 < pair.y ⬝ᵥ pair.s ∧ 0 < pair.s ⬝ᵥ B *ᵥ pair.s ∧
      memory.terms[before.length]? = some
        ⟨Vec.ofReal ((√(pair.s ⬝ᵥ B *ᵥ pair.s))⁻¹ • B *ᵥ pair.s),
          Vec.ofReal ((√(pair.y ⬝ᵥ pair.s))⁻¹ • pair.y)⟩
  /-- No kept pair gets the zero vector. -/
  hasCurvature : ∀ k, AnySecantMemory.lacksCurvature memory k = false

namespace Represents

variable {memory : SecantMemory EReal n} {pairs : List (CurvedPair n)}

/-- Every kept pair has curvature in the approximation before it. -/
theorem hasCurvature (held : memory.Represents pairs) (k : Nat) :
    AnySecantMemory.lacksCurvature memory k = false := by
  unfold AnySecantMemory.lacksCurvature
  rw [held.terms_eq, SecantTerm.take_ofPairs, held.gamma_eq, held.pairs_eq, List.getElem?_map,
    ← List.map_take]
  cases pairs[k]? with
  | none => rfl
  | some pair =>
      have positive := Curvature.latestScale_pos pairs
      simp only [Option.map_some, CurvedPair.stored, SecantPair.ofReal,
        SecantTerm.product_ofPairs positive, Vec.dot_ofReal, EReal.coe_pos]
      rw [decide_eq_true (Curvature.step_curvature_pos _ pair)]
      rfl

theorem isFormed (held : memory.Represents pairs) : memory.IsFormed pairs where
  pairs_eq := held.pairs_eq
  gamma_eq := held.gamma_eq
  apply_eq v := by rw [held.apply_ofReal, SecantMatrix.learnt_eq_formed]
  term_eq before pair later split := by
    have positive := Curvature.latestScale_pos pairs
    refine ⟨pair.curved, SecantMatrix.updated_curvature_pos positive before pair, ?_⟩
    have term := SecantTerm.getElem?_ofPairs memory.gamma (before.map CurvedPair.stored)
      (later.map CurvedPair.stored) pair.stored
    rw [← List.map_cons, ← List.map_append, ← split, ← held.pairs_eq, ← held.terms_eq,
      List.length_map, held.gamma_eq, SecantTerm.ofPair_updated positive] at term
    exact term
  hasCurvature := held.hasCurvature

/-- The kept pairs determine the scale and the terms. -/
theorem unique (held : memory.Represents pairs) {memory' : SecantMemory EReal n}
    {pairs' : List (CurvedPair n)} (held' : memory'.Represents pairs')
    (same : memory'.pairs = memory.pairs) :
    memory'.gamma = memory.gamma ∧ memory'.terms = memory.terms := by
  have agree : pairs'.map CurvedPair.stored = pairs.map CurvedPair.stored := by
    rw [← held'.pairs_eq, ← held.pairs_eq, same]
  have scales : memory'.gamma = memory.gamma := by
    rw [held'.gamma_eq, held.gamma_eq, List.map_injective_iff.2 CurvedPair.stored_injective agree]
  exact ⟨scales, by rw [held'.terms_eq, held.terms_eq, scales, same]⟩

end Represents

/-- **A memory applies the textbook matrix of its pairs.** After every history of real calls, the product
with a vector is the one of the matrix that is formed from the kept pairs, the oldest first, and so are
the scale and the terms that it is made of. Every other history that ends with the same pairs ends with
the same scale and the same terms: nothing of a dropped pair or of an earlier scale is left. -/
theorem after_isFormed {capacity : Nat} (room : 0 < capacity) (calls : List (Call EReal n))
    (real : ∀ call ∈ calls, call.IsReal) :
    (∃ pairs : List (CurvedPair n), ((empty n capacity room).after calls).IsFormed pairs) ∧
    ∀ {capacity' : Nat} (room' : 0 < capacity') (calls' : List (Call EReal n)),
      (∀ call ∈ calls', call.IsReal) →
      ((empty n capacity' room').after calls').pairs = ((empty n capacity room).after calls).pairs →
      ((empty n capacity' room').after calls').gamma = ((empty n capacity room).after calls).gamma ∧
        ((empty n capacity' room').after calls').terms =
          ((empty n capacity room).after calls).terms := by
  obtain ⟨pairs, held⟩ := (Represents.empty (n := n) room).after calls real
  refine ⟨⟨pairs, held.isFormed⟩, ?_⟩
  intro capacity' room' calls' real' same
  obtain ⟨pairs', held'⟩ := (Represents.empty (n := n) room').after calls' real'
  exact held.unique held' same

/-! ### A dropped pair -/

/-- The curvature `1` of the pair is far above the tolerance. -/
theorem slanted_not_isFlat : ¬ (SecantPair.ofReal ![1, 0] ![1, 1]).IsFlat := by
  rw [SecantPair.isFlat_ofReal, dot_pair, dot_pair, dot_pair, not_le]
  have step : √(1 * 1 + 0 * 0 : ℝ) ≤ 2 := Real.sqrt_le_iff.2 ⟨by norm_num, by norm_num⟩
  have change : √(1 * 1 + 1 * 1 : ℝ) ≤ 2 := Real.sqrt_le_iff.2 ⟨by norm_num, by norm_num⟩
  calc 1.4901161193847656e-8 * √(1 * 1 + 0 * 0 : ℝ) * √(1 * 1 + 1 * 1 : ℝ)
      ≤ 1.4901161193847656e-8 * 2 * 2 := by gcongr
    _ < 1 * 1 + 1 * 0 := by norm_num

/-- Two pairs are stored where there is room for one. -/
noncomputable def displacement : List (Call EReal 2) :=
  [.push (.ofReal ![1, 0] ![1, 1]), .push (.ofReal ![1, 1] ![2.0, 3.0])]

theorem displacement_real : ∀ call ∈ displacement, call.IsReal := by
  intro call member
  simp only [displacement, List.mem_cons, List.not_mem_nil, or_false] at member
  obtain rfl | rfl := member
  · exact ⟨_, _, rfl⟩
  · exact ⟨_, _, rfl⟩

theorem displacement_pairs :
    ((empty 2 1 one_pos).after displacement).pairs = [.ofReal ![1, 1] ![2, 3]] := by
  have whole : (![2.0, 3.0] : Fin 2 → ℝ) = ![2, 3] := by norm_num
  simp only [after, displacement, whole, List.foldl_cons, List.foldl_nil, Call.change,
    push_of_not_isFlat slanted_not_isFlat, push_of_not_isFlat diagonal_not_isFlat]
  rfl

/-- The matrix of one pair with the step `(1, 1)` and the change `(2, 3)`. -/
theorem formed_diagonal {pair : CurvedPair 2} (step : pair.s = ![1, 1]) (change : pair.y = ![2, 3]) :
    SecantMatrix.formed [pair] *ᵥ ![1, 0] = ![2.1, -0.1] := by
  have scale : Curvature.latestScale [pair] = 2.6 := by
    simp only [Curvature.latestScale, List.getLast?_singleton, Option.map_some, Option.getD_some,
      CurvedPair.scale, step, change, dot_pair]
    norm_num
  rw [← SecantMatrix.learnt_eq_formed, Curvature.learnt, List.foldl_cons, List.foldl_nil,
    Curvature.update_apply]
  simp only [Curvature.scaling_apply, scale, rankOne_apply, step, change, dot_pair, smul_pair]
  ext i
  fin_cases i <;> norm_num

/-- With room for one pair, the second pair takes the place of the first one, and the matrix is the one
of the second pair alone. -/
theorem after_isFormed_displacement :
    ((empty 2 1 one_pos).after displacement).apply (Vec.ofReal ![1, 0]) = Vec.ofReal ![2.1, -0.1] ∧
    ((empty 2 1 one_pos).after displacement).terms =
      ((empty 2 1 one_pos).after [.push (.ofReal ![1, 1] ![2, 3])]).terms := by
  obtain ⟨⟨pairs, formed⟩, unique⟩ := after_isFormed one_pos displacement displacement_real
  have kept := formed.pairs_eq
  rw [displacement_pairs] at kept
  constructor
  · obtain ⟨pair, rfl, same⟩ := List.map_eq_singleton_iff.1 kept.symm
    have step : pair.s = ![1, 1] := Vec.ofReal_injective (congrArg SecantPair.s same)
    have change : pair.y = ![2, 3] := Vec.ofReal_injective (congrArg SecantPair.y same)
    rw [formed.apply_eq, formed_diagonal step change]
  · have alone := unique one_pos [.push (.ofReal ![1, 1] ![2, 3])] (fun call member => by
      rw [List.mem_singleton] at member
      exact member ▸ ⟨_, _, rfl⟩)
    refine (alone ?_).2.symm
    rw [displacement_pairs]
    simp only [after, List.foldl_cons, List.foldl_nil, Call.change,
      push_of_not_isFlat diagonal_not_isFlat]
    rfl

end SecantMemory

end BoxNewton
