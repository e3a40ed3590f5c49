import Mathlib
import BoxNewton.Proofs.SymmetricDirections
import BoxNewton.Proofs.ExactNumbers
import BoxNewton.Subproblem.ConjugateGradient

/-!
# Truncated conjugate gradients in exact arithmetic

On real vectors an iteration of truncated conjugate gradients is an iteration of linear algebra, whatever
map of real vectors the operator is (`ConjugateGradient.tally_iterate_succ`). It may end with a step to the
boundary. From inside the ball this step leads forward, and it is not longer than a step that leaves the ball
(`largerRoot_between`).
-/

set_option autoImplicit false

namespace BoxNewton

variable {n : Nat}

/-- The operator as what answers questions. -/
noncomputable def Curvature.answer (H : Curvature n) : Vec EReal n → Vec EReal n := Vec.realMap H

@[simp] theorem Curvature.answer_ofReal (H : Curvature n) (v : Fin n → ℝ) :
    H.answer (Vec.ofReal v) = Vec.ofReal (H v) := Vec.realMap_ofReal H v

/-! ## The step to the boundary -/

/-- The larger root of `A t² + 2 B t + C`, in the form without cancellation. -/
noncomputable def largerRoot (A B C : ℝ) : ℝ :=
  let D := √(max (B * B - A * C) 0)
  if B ≤ 0 then (D - B) / A else -C / (B + D)

section Roots

variable {A B C : ℝ}

theorem discriminant_nonneg (hA : 0 < A) (hC : C ≤ 0) : 0 ≤ B * B - A * C := by
  nlinarith [mul_self_nonneg B]

/-- Zero lies between the roots. -/
theorem abs_le_sqrt_discriminant (hA : 0 < A) (hC : C ≤ 0) : |B| ≤ √(B * B - A * C) := by
  refine Real.abs_le_sqrt ?_
  nlinarith

theorem largerRoot_eq (hA : 0 < A) (hC : C ≤ 0) :
    largerRoot A B C = (√(B * B - A * C) - B) / A := by
  have disc := discriminant_nonneg (B := B) hA hC
  unfold largerRoot
  dsimp only
  rw [max_eq_left disc]
  split
  · rfl
  · rename_i positive
    have sum : 0 < B + √(B * B - A * C) := by
      have := Real.sqrt_nonneg (B * B - A * C)
      linarith
    rw [div_eq_div_iff sum.ne' hA.ne']
    have square := Real.mul_self_sqrt disc
    linear_combination -square

theorem largerRoot_nonneg (hA : 0 < A) (hC : C ≤ 0) : 0 ≤ largerRoot A B C := by
  rw [largerRoot_eq hA hC]
  have far := abs_le_sqrt_discriminant (B := B) hA hC
  exact div_nonneg (by linarith [le_abs_self B]) hA.le

/-- How far it is from the vertex. -/
theorem mul_largerRoot (hA : 0 < A) (hC : C ≤ 0) :
    A * largerRoot A B C = √(B * B - A * C) - B := by
  rw [largerRoot_eq hA hC]
  exact mul_div_cancel₀ _ hA.ne'

/-- It is a root. -/
theorem largerRoot_root (hA : 0 < A) (hC : C ≤ 0) :
    A * largerRoot A B C * largerRoot A B C + 2 * B * largerRoot A B C + C = 0 := by
  have disc := discriminant_nonneg (B := B) hA hC
  have square := Real.mul_self_sqrt disc
  have scaled := mul_largerRoot (B := B) hA hC
  have cleared : A * (A * largerRoot A B C * largerRoot A B C + 2 * B * largerRoot A B C + C) = 0 := by
    linear_combination (A * largerRoot A B C + √(B * B - A * C) + B) * scaled + square
  exact (mul_eq_zero.1 cleared).resolve_left hA.ne'

/-- A positive number at which the quadratic is not negative is at least the larger root. -/
theorem largerRoot_le (hA : 0 < A) (hC : C ≤ 0) {a : ℝ} (ha : 0 < a)
    (outside : 0 ≤ A * a * a + 2 * B * a + C) : largerRoot A B C ≤ a := by
  rw [largerRoot_eq hA hC, div_le_iff₀ hA]
  have far := abs_le_sqrt_discriminant (B := B) hA hC
  have reach : √(B * B - A * C) ≤ |a * A + B| := by
    refine Real.sqrt_le_sqrt ?_ |>.trans_eq (Real.sqrt_sq_eq_abs _)
    nlinarith
  have forward := mul_pos ha hA
  rcases abs_cases (a * A + B) with ⟨same, _⟩ | ⟨opposite, _⟩
  · linarith
  · linarith [neg_abs_le B]

end Roots

theorem stepToBoundary_ofReal (x p : Fin n → ℝ) (radius : ℝ) :
    stepToBoundary (Vec.ofReal x) (Vec.ofReal p) (radius : EReal) =
      (largerRoot (p ⬝ᵥ p) (x ⬝ᵥ p) (x ⬝ᵥ x - radius * radius) : ℝ) := by
  unfold stepToBoundary largerRoot
  simp only [Vec.normSq_ofReal, Vec.dot_ofReal, Scalar.larger_eq_max]
  norm_cast
  split <;> rfl

/-- Along a ray, the squared norm is a quadratic in the length of the step. -/
theorem dot_self_ray (x p : Fin n → ℝ) (t : ℝ) :
    (x + t • p) ⬝ᵥ (x + t • p) = x ⬝ᵥ x + 2 * t * (x ⬝ᵥ p) + t * t * (p ⬝ᵥ p) := by
  simp only [add_dotProduct, dotProduct_add, smul_dotProduct, dotProduct_smul, smul_eq_mul,
    dotProduct_comm p x]
  ring

/-- With a direction that curves up, the step from inside the ball to the boundary is not longer than a
step that leaves the ball. -/
theorem largerRoot_between {x p : Fin n → ℝ} {radius a : ℝ} (moves : 0 < p ⬝ᵥ p)
    (inside : x ⬝ᵥ x ≤ radius * radius) (ha : 0 < a)
    (outside : radius * radius ≤ (x + a • p) ⬝ᵥ (x + a • p)) :
    0 ≤ largerRoot (p ⬝ᵥ p) (x ⬝ᵥ p) (x ⬝ᵥ x - radius * radius) ∧
      largerRoot (p ⬝ᵥ p) (x ⬝ᵥ p) (x ⬝ᵥ x - radius * radius) ≤ a := by
  refine ⟨largerRoot_nonneg moves (sub_nonpos.2 inside),
    largerRoot_le moves (sub_nonpos.2 inside) ha ?_⟩
  rw [dot_self_ray] at outside
  linarith

/-! ## Iterations -/

namespace ConjugateGradient

/-- A state of real vectors. -/
noncomputable def realState (x r p : Fin n → ℝ) (gamma : ℝ) (product : Vec EReal n) :
    State EReal n where
  x := Vec.ofReal x
  r := Vec.ofReal r
  p := Vec.ofReal p
  gamma := gamma
  product

theorem nextNormSq_ofReal (x p : Fin n → ℝ) (a : ℝ) :
    nextNormSq (Vec.ofReal x) (Vec.ofReal p) (a : EReal) =
      (((x + a • p) ⬝ᵥ (x + a • p) : ℝ) : EReal) := by
  rw [dot_self_ray, ← one_add_one_eq_two]
  simp only [nextNormSq, Vec.normSq_ofReal, Vec.dot_ofReal]
  norm_cast

open Classical in
/-- An iteration is one of linear algebra and asks for one product. The operator may be any map of real
vectors. -/
theorem tally_iterate_succ (A : (Fin n → ℝ) → Fin n → ℝ) (radius tolerance : ℝ)
    (limit remaining : Nat) (x r p : Fin n → ℝ) (gamma : ℝ) (product : Vec EReal n) (k : Nat) :
    (iterate (radius : EReal) (tolerance : EReal) limit (remaining + 1)
        (realState x r p gamma product)).tally (answeredBy (Vec.realMap A)) k =
      let onBoundary := some (finish .onBoundary (limit - remaining)
        (Vec.ofReal (x + largerRoot (p ⬝ᵥ p) (x ⬝ᵥ p) (x ⬝ᵥ x - radius * radius) • p))
        (Vec.ofReal (A p)), k + 1)
      let a := gamma / (p ⬝ᵥ A p)
      let r' := r + (-a) • A p
      if p ⬝ᵥ A p ≤ 0 then onBoundary
      else if radius * radius ≤ (x + a • p) ⬝ᵥ (x + a • p) then onBoundary
      else if √(r' ⬝ᵥ r') ≤ tolerance then
        some (finish .converged (limit - remaining) (Vec.ofReal (x + a • p)) (Vec.ofReal (A p)),
          k + 1)
      else
        (iterate (radius : EReal) (tolerance : EReal) limit remaining
          (realState (x + a • p) r' (r' + ((r' ⬝ᵥ r') / gamma) • p) (r' ⬝ᵥ r')
            (Vec.ofReal (A p)))).tally (answeredBy (Vec.realMap A)) (k + 1) := by
  have divide : ∀ a c : ℝ, (a : EReal) / (c : EReal) = ((a / c : ℝ) : EReal) := fun _ _ => rfl
  have residual : ∀ a : ℝ, (Vec.ofReal r).addScaled (-(a : EReal)) (Vec.ofReal (A p)) =
      Vec.ofReal (r + (-a) • A p) := fun a => Vec.addScaled_ofReal r (A p) (-a)
  simp only [iterate, realState, Dialogue.tally_bind, tally_request, Vec.realMap_ofReal,
    Option.bind_some, Vec.dot_ofReal, stepToBoundary_ofReal, divide, nextNormSq_ofReal,
    Vec.addScaled_ofReal, residual, Vec.normSq_ofReal, Vec.conjugate_ofReal, Scalar.sqrt_coe,
    EReal.coe_le_coe_iff, ← EReal.coe_mul]
  have flat : ((p ⬝ᵥ A p : ℝ) : EReal) ≤ 0 ↔ p ⬝ᵥ A p ≤ 0 := EReal.coe_nonpos
  simp only [flat]
  split_ifs <;> rfl

end ConjugateGradient

end BoxNewton
