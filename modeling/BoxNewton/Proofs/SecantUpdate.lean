import Mathlib
import BoxNewton.Proofs.SymmetricDirections

/-!
# The secant update

The linear algebra of the BFGS approximation. A pair of a step `s` and a change `y` of the gradient with
curvature, `0 < yᵀs`, turns a symmetric positive definite operator `B` into

  `B + y yᵀ / (yᵀs) - (Bs)(Bs)ᵀ / (sᵀBs)`,

which maps `s` to `y` (`Curvature.update_secant`) and is positive definite again. For along the vector
`w = v - ((Bs)ᵀv / sᵀBs) s`, the part of `v` that is conjugate to the step, the subtracted term completes
a square: the curvature of the update along `v` is `wᵀBw + (yᵀv)² / (yᵀs)` (`Curvature.update_curvature`).
Both summands are nonnegative. They vanish together for `v = 0` only: without `w` the vector `v` is a
multiple of the step, and along the step there is curvature.

Updating a multiple of the identity with one pair after the other therefore gives a symmetric positive
definite operator, whatever the pairs are (`Curvature.learnt`).
-/

set_option autoImplicit false

namespace BoxNewton

/-- A step and the change of the gradient along it, with curvature. -/
structure CurvedPair (n : Nat) where
  s : Fin n → ℝ
  y : Fin n → ℝ
  curved : 0 < y ⬝ᵥ s

/-- The map `v ↦ (uᵀv / c) u`. -/
noncomputable def rankOne {n : Nat} (u : Fin n → ℝ) (c : ℝ) : (Fin n → ℝ) →ₗ[ℝ] Fin n → ℝ where
  toFun v := (u ⬝ᵥ v / c) • u
  map_add' v w := by rw [dotProduct_add, add_div, add_smul]
  map_smul' a v := by rw [dotProduct_smul, smul_eq_mul, mul_div_assoc, mul_smul, RingHom.id_apply]

section RankOne

variable {n : Nat} (u v w : Fin n → ℝ) (c : ℝ)

theorem rankOne_apply : rankOne u c v = (u ⬝ᵥ v / c) • u := rfl

theorem dot_rankOne : w ⬝ᵥ rankOne u c v = (u ⬝ᵥ w) * (u ⬝ᵥ v) / c := by
  rw [rankOne_apply, dotProduct_smul, smul_eq_mul, dotProduct_comm w u]
  ring

theorem rankOne_symmetric : w ⬝ᵥ rankOne u c v = rankOne u c w ⬝ᵥ v := by
  rw [dotProduct_comm _ v, dot_rankOne, dot_rankOne, mul_comm]

/-- Where the divisor is the product with the vector itself, the map returns the vector. -/
theorem rankOne_of_dot {u v : Fin n → ℝ} (nonzero : u ⬝ᵥ v ≠ 0) : rankOne u (u ⬝ᵥ v) v = u := by
  rw [rankOne_apply, div_self nonzero, one_smul]

/-- The map in the form without a quotient, with the square root taken into the vector. -/
theorem root_rankOne {c : ℝ} (nonneg : 0 ≤ c) :
    (((√c)⁻¹ • u) ⬝ᵥ v) • ((√c)⁻¹ • u) = rankOne u c v := by
  have square : (√c)⁻¹ * (√c)⁻¹ = c⁻¹ := by rw [← mul_inv, Real.mul_self_sqrt nonneg]
  rw [rankOne_apply, smul_dotProduct, smul_smul, smul_eq_mul, mul_right_comm, square, div_eq_inv_mul]

end RankOne

namespace CurvedPair

variable {n : Nat} (pair : CurvedPair n)

theorem s_ne_zero : pair.s ≠ 0 := by
  intro zero
  have curved := pair.curved
  rw [zero, dotProduct_zero] at curved
  exact lt_irrefl 0 curved

theorem y_ne_zero : pair.y ≠ 0 := by
  intro zero
  have curved := pair.curved
  rw [zero, zero_dotProduct] at curved
  exact lt_irrefl 0 curved

/-- The multiple of the identity that suits the pair. -/
noncomputable def scale : ℝ := pair.y ⬝ᵥ pair.y / (pair.y ⬝ᵥ pair.s)

theorem scale_pos : 0 < pair.scale := div_pos (dot_self_pos_iff.2 pair.y_ne_zero) pair.curved

end CurvedPair

namespace Curvature

variable {n : Nat}

/-- A positive multiple of the identity. -/
noncomputable def scaling (n : Nat) (gamma : ℝ) (positive : 0 < gamma) : Curvature n where
  map := gamma • LinearMap.id
  symmetric u v := by simp
  positive u nonzero := by
    have turned : u ⬝ᵥ (gamma • LinearMap.id : (Fin n → ℝ) →ₗ[ℝ] Fin n → ℝ) u =
        gamma * (u ⬝ᵥ u) := by simp
    rw [turned]
    exact mul_pos positive (dot_self_pos_iff.2 nonzero)

theorem scaling_apply (gamma : ℝ) (positive : 0 < gamma) (v : Fin n → ℝ) :
    scaling n gamma positive v = gamma • v := rfl

variable (B : Curvature n) (pair : CurvedPair n)

/-- There is curvature along the step of a pair. -/
theorem step_curvature_pos : 0 < pair.s ⬝ᵥ B pair.s := B.positive pair.s pair.s_ne_zero

/-- The map of the update. -/
noncomputable def updateMap : (Fin n → ℝ) →ₗ[ℝ] Fin n → ℝ :=
  B.map + rankOne pair.y (pair.y ⬝ᵥ pair.s) - rankOne (B pair.s) (pair.s ⬝ᵥ B pair.s)

theorem updateMap_apply (v : Fin n → ℝ) :
    B.updateMap pair v = B v + rankOne pair.y (pair.y ⬝ᵥ pair.s) v -
      rankOne (B pair.s) (pair.s ⬝ᵥ B pair.s) v := rfl

/-- The part of a vector that is conjugate to the step of a pair. -/
noncomputable def conjugatePart (v : Fin n → ℝ) : Fin n → ℝ :=
  v - (B pair.s ⬝ᵥ v / (pair.s ⬝ᵥ B pair.s)) • pair.s

/-- Taking the part along the step away costs its curvature. -/
theorem conjugatePart_curvature (v : Fin n → ℝ) :
    B.conjugatePart pair v ⬝ᵥ B (B.conjugatePart pair v) =
      v ⬝ᵥ B v - (B pair.s ⬝ᵥ v) * (B pair.s ⬝ᵥ v) / (pair.s ⬝ᵥ B pair.s) := by
  have along : pair.s ⬝ᵥ B v = B pair.s ⬝ᵥ v := B.symmetric pair.s v
  have across : v ⬝ᵥ B pair.s = B pair.s ⬝ᵥ v := dotProduct_comm _ _
  have curved := (B.step_curvature_pos pair).ne'
  simp only [conjugatePart, map_sub, map_smul, sub_dotProduct, dotProduct_sub, smul_dotProduct,
    dotProduct_smul, smul_eq_mul, along, across]
  field_simp
  ring

/-- **The curvature of the update is a sum of two that are not negative.** -/
theorem update_curvature (v : Fin n → ℝ) :
    v ⬝ᵥ B.updateMap pair v =
      B.conjugatePart pair v ⬝ᵥ B (B.conjugatePart pair v) +
        (pair.y ⬝ᵥ v) * (pair.y ⬝ᵥ v) / (pair.y ⬝ᵥ pair.s) := by
  rw [updateMap_apply, dotProduct_sub, dotProduct_add, dot_rankOne, dot_rankOne,
    conjugatePart_curvature]
  ring

/-- A vector without a conjugate part is a multiple of the step. -/
theorem exists_smul_of_conjugatePart {v : Fin n → ℝ} (parallel : B.conjugatePart pair v = 0) :
    ∃ a : ℝ, v = a • pair.s :=
  ⟨_, sub_eq_zero.1 parallel⟩

theorem update_positive {v : Fin n → ℝ} (nonzero : v ≠ 0) : 0 < v ⬝ᵥ B.updateMap pair v := by
  rw [update_curvature]
  by_cases parallel : B.conjugatePart pair v = 0
  · obtain ⟨a, rfl⟩ := B.exists_smul_of_conjugatePart pair parallel
    have multiple : a ≠ 0 := by
      rintro rfl
      exact nonzero (zero_smul ℝ pair.s)
    have along : pair.y ⬝ᵥ a • pair.s ≠ 0 := by
      rw [dotProduct_smul, smul_eq_mul]
      exact mul_ne_zero multiple pair.curved.ne'
    exact add_pos_of_nonneg_of_pos (B.nonneg _) (div_pos (mul_self_pos.2 along) pair.curved)
  · exact add_pos_of_pos_of_nonneg (B.positive _ parallel)
      (div_nonneg (mul_self_nonneg _) pair.curved.le)

theorem update_symmetric (u v : Fin n → ℝ) :
    u ⬝ᵥ B.updateMap pair v = B.updateMap pair u ⬝ᵥ v := by
  rw [updateMap_apply, updateMap_apply, dotProduct_sub, dotProduct_add, sub_dotProduct, add_dotProduct,
    B.symmetric, rankOne_symmetric, rankOne_symmetric]

/-- The update of an approximation with a pair. -/
noncomputable def update : Curvature n where
  map := B.updateMap pair
  symmetric := B.update_symmetric pair
  positive _ := B.update_positive pair

theorem update_apply (v : Fin n → ℝ) :
    B.update pair v = B v + rankOne pair.y (pair.y ⬝ᵥ pair.s) v -
      rankOne (B pair.s) (pair.s ⬝ᵥ B pair.s) v := rfl

/-- **The secant equation.** -/
theorem update_secant : B.update pair pair.s = pair.y := by
  have curved : B pair.s ⬝ᵥ pair.s ≠ 0 := by
    rw [dotProduct_comm]
    exact (B.step_curvature_pos pair).ne'
  rw [update_apply, rankOne_of_dot pair.curved.ne', dotProduct_comm pair.s, rankOne_of_dot curved,
    add_sub_cancel_left]

/-! ## One pair after the other -/

/-- The multiple of the identity that suits the latest of some pairs. -/
noncomputable def latestScale (pairs : List (CurvedPair n)) : ℝ :=
  (pairs.getLast?.map CurvedPair.scale).getD 1

theorem latestScale_append (before : List (CurvedPair n)) (pair : CurvedPair n) :
    latestScale (before ++ [pair]) = pair.scale := by
  simp [latestScale]

theorem latestScale_pos (pairs : List (CurvedPair n)) : 0 < latestScale pairs := by
  cases pairs using List.reverseRecOn with
  | nil => exact one_pos
  | append_singleton before pair =>
      rw [latestScale_append]
      exact pair.scale_pos

/-- The approximation that some pairs determine, the oldest first. -/
noncomputable def learnt (pairs : List (CurvedPair n)) : Curvature n :=
  pairs.foldl update (scaling n (latestScale pairs) (latestScale_pos pairs))

/-- **The latest pair satisfies the secant equation.** -/
theorem learnt_secant (before : List (CurvedPair n)) (pair : CurvedPair n) :
    learnt (before ++ [pair]) pair.s = pair.y := by
  rw [learnt, List.foldl_append]
  exact update_secant _ pair

end Curvature

end BoxNewton
