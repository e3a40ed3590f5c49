import Mathlib
import BoxNewton.Proofs.ExtendedNumbers
import BoxNewton.Proofs.TruncatedDirections

/-!
# The step to the boundary

Along a ray, the squared distance from the center of a ball is a quadratic in the length of the step. From a
point of the ball its discriminant is not negative, and the ball is where the quadratic is within the root
of the discriminant of its vertex (`quadratic_nonpos_iff`).

The length to the boundary is written in two forms, and the sign of the slope at the point selects one. They
are the same root (`largerRoot_eq`), and the selected one divides by a positive number, also from a point on
the boundary, from the center, and in a ball that is a single point. So the length is a real number in an
arithmetic in which a quotient by zero is not (`stepToBoundary_numbers`). The step ends on the boundary, no
larger number does, and the ball is not left on the way (`stepToBoundary_leads`).
-/

set_option autoImplicit false

namespace BoxNewton

open Extended (number)

/-! ## The ball on a ray -/

section Quadratic

variable {A B C t : ℝ}

/-- Where the quadratic is not positive. -/
theorem quadratic_nonpos_iff (hA : 0 < A) (hC : C ≤ 0) :
    A * t * t + 2 * B * t + C ≤ 0 ↔ |A * t + B| ≤ √(B * B - A * C) := by
  have disc := discriminant_nonneg (B := B) hA hC
  have completed : A * (A * t * t + 2 * B * t + C) = (A * t + B) ^ 2 - (B * B - A * C) := by ring
  rw [Real.le_sqrt (abs_nonneg _) disc, sq_abs]
  constructor
  · intro within
    linarith [mul_nonpos_of_nonneg_of_nonpos hA.le within]
  · intro near
    exact nonpos_of_mul_nonpos_right (completed.trans_le (sub_nonpos.2 near)) hA

/-- A number at which the quadratic is not positive is at most the larger root. -/
theorem le_largerRoot (hA : 0 < A) (hC : C ≤ 0) (within : A * t * t + 2 * B * t + C ≤ 0) :
    t ≤ largerRoot A B C := by
  have near := (quadratic_nonpos_iff hA hC).1 within
  have reach := mul_largerRoot (B := B) hA hC
  nlinarith [le_abs_self (A * t + B)]

/-- Between zero and the larger root the quadratic is not positive. -/
theorem quadratic_nonpos_of_le (hA : 0 < A) (hC : C ≤ 0) (ht : 0 ≤ t) (short : t ≤ largerRoot A B C) :
    A * t * t + 2 * B * t + C ≤ 0 := by
  have reach := mul_largerRoot (B := B) hA hC
  have far := abs_le_sqrt_discriminant (B := B) hA hC
  refine (quadratic_nonpos_iff hA hC).2 (abs_le.2 ⟨?_, ?_⟩)
  · nlinarith [neg_abs_le B]
  · nlinarith

end Quadratic

variable {n : Nat} {x p : Fin n → ℝ} {radius : ℝ}

/-- A step stays in the ball where the quadratic is not positive. -/
theorem norm_ray_le_iff (nonneg : 0 ≤ radius) (t : ℝ) :
    √((x + t • p) ⬝ᵥ (x + t • p)) ≤ radius ↔
      (p ⬝ᵥ p) * t * t + 2 * (x ⬝ᵥ p) * t + (x ⬝ᵥ x - radius * radius) ≤ 0 := by
  rw [Real.sqrt_le_left nonneg, dot_self_ray, sq, ← sub_nonpos]
  exact iff_of_eq (congrArg (· ≤ 0) (by ring))

/-! ## Its length -/

/-- The length is a real number, also in an arithmetic in which a quotient by zero is not. -/
theorem stepToBoundary_numbers (moves : 0 < p ⬝ᵥ p) :
    stepToBoundary (Vec.ofReal x).numbers (Vec.ofReal p).numbers (number radius) =
      number (largerRoot (p ⬝ᵥ p) (x ⬝ᵥ p) (x ⬝ᵥ x - radius * radius) : ℝ) := by
  have root : ∀ D : ℝ, Scalar.sqrt (Scalar.larger (number D) 0) = number ((√(max D 0) : ℝ) : EReal) := by
    intro D
    rw [Extended.zero_eq, Extended.larger_number, ← EReal.coe_zero, ← EReal.coe_strictMono.monotone.map_max,
      Extended.sqrt_of_nonneg (EReal.coe_nonneg.2 (le_max_right _ _)), Scalar.sqrt_coe]
  have flat : number ((x ⬝ᵥ p : ℝ) : EReal) ≤ 0 ↔ x ⬝ᵥ p ≤ 0 := EReal.coe_nonpos
  unfold stepToBoundary largerRoot
  simp only [Vec.normSq, Vec.dot_numbers, Vec.dot_ofReal, Extended.coe_mul, Extended.sub_coe,
    ← EReal.coe_mul, ← EReal.coe_sub, root, flat]
  split
  · rw [Extended.div_coe _ moves.ne', EReal.coe_div]
  · rename_i ahead
    have sum : 0 < x ⬝ᵥ p +
        √(max (x ⬝ᵥ p * x ⬝ᵥ p - p ⬝ᵥ p * (x ⬝ᵥ x - radius * radius)) 0) :=
      add_pos_of_pos_of_nonneg (not_le.1 ahead) (Real.sqrt_nonneg _)
    rw [Extended.coe_add, Extended.neg_number, ← EReal.coe_add, Extended.div_coe _ sum.ne', EReal.coe_div,
      EReal.coe_neg]

/-- The step of length `tau` along `p` is the one that leads from `x` to the boundary of the ball. -/
structure LeadsToBoundary (x p : Fin n → ℝ) (radius tau : ℝ) : Prop where
  nonneg : 0 ≤ tau
  lands : √((x + tau • p) ⬝ᵥ (x + tau • p)) = radius
  /-- No larger number leads to the boundary. -/
  largest : ∀ t : ℝ, √((x + t • p) ⬝ᵥ (x + t • p)) = radius → t ≤ tau
  /-- The ball is not left on the way. -/
  inside : ∀ t : ℝ, 0 ≤ t → t ≤ tau → √((x + t • p) ⬝ᵥ (x + t • p)) ≤ radius

theorem largerRoot_leads (nonneg : 0 ≤ radius) (inside : √(x ⬝ᵥ x) ≤ radius) (moves : 0 < p ⬝ᵥ p) :
    LeadsToBoundary x p radius (largerRoot (p ⬝ᵥ p) (x ⬝ᵥ p) (x ⬝ᵥ x - radius * radius)) := by
  have hC : x ⬝ᵥ x - radius * radius ≤ 0 := by
    rw [Real.sqrt_le_left nonneg] at inside
    linarith
  refine ⟨largerRoot_nonneg moves hC, ?_, ?_, ?_⟩
  · have root := largerRoot_root (B := x ⬝ᵥ p) moves hC
    rw [Real.sqrt_eq_iff_mul_self_eq (dot_self_nonneg _) nonneg, dot_self_ray]
    linarith
  · intro t lands
    exact le_largerRoot moves hC ((norm_ray_le_iff nonneg t).1 lands.le)
  · intro t ht short
    exact (norm_ray_le_iff nonneg t).2 (quadratic_nonpos_of_le moves hC ht short)

/-- **The length of the step to the boundary.** From any point of a ball and along any direction it is a
real number that is not negative, the largest one that leads to the boundary, and up to there the ball is
not left. Nothing is divided by zero on either side of the choice between the two forms: of the two
arithmetics, the second has no real number for such a quotient. -/
theorem stepToBoundary_leads (x p : Fin n → ℝ) (nonneg : 0 ≤ radius) (inside : √(x ⬝ᵥ x) ≤ radius)
    (moves : p ≠ 0) :
    ∃ tau : ℝ, stepToBoundary (Vec.ofReal x) (Vec.ofReal p) (radius : EReal) = tau ∧
      stepToBoundary (Vec.ofReal x).numbers (Vec.ofReal p).numbers (number radius) = number tau ∧
      LeadsToBoundary x p radius tau := by
  have forward := dot_self_pos_iff.2 moves
  exact ⟨_, stepToBoundary_ofReal x p radius, stepToBoundary_numbers forward,
    largerRoot_leads nonneg inside forward⟩

/-- From a point on the boundary through the center, the step leads to the opposite point. -/
theorem stepToBoundary_leads_opposite :
    (0 : ℝ) ≤ 5 ∧ √((![3, 4] : Fin 2 → ℝ) ⬝ᵥ ![3, 4]) ≤ 5 ∧ (![-3, -4] : Fin 2 → ℝ) ≠ 0 ∧
      stepToBoundary (Vec.ofReal ![3, 4]).numbers (Vec.ofReal ![-3, -4]).numbers
        (number ((5 : ℝ) : EReal)) = number ((2 : ℝ) : EReal) ∧
      LeadsToBoundary ![3, 4] ![-3, -4] 5 2 := by
  have nonneg : (0 : ℝ) ≤ 5 := by norm_num
  have norm : ∀ t : ℝ, (![3, 4] + t • ![-3, -4] : Fin 2 → ℝ) ⬝ᵥ (![3, 4] + t • ![-3, -4]) =
      25 * (1 - t) ^ 2 := by
    intro t
    rw [smul_pair, add_pair, dot_pair]
    ring
  have inside : √((![3, 4] : Fin 2 → ℝ) ⬝ᵥ ![3, 4]) ≤ 5 := by
    rw [dot_pair, Real.sqrt_le_left nonneg]
    norm_num
  have moves : (![-3, -4] : Fin 2 → ℝ) ≠ 0 := by simp
  obtain ⟨tau, -, found, leads⟩ := stepToBoundary_leads ![3, 4] ![-3, -4] nonneg inside moves
  have far : 2 ≤ tau := by
    refine leads.largest 2 ?_
    rw [norm, Real.sqrt_eq_iff_mul_self_eq (by norm_num) nonneg]
    norm_num
  have lands := leads.lands
  rw [norm, Real.sqrt_eq_iff_mul_self_eq (by positivity) nonneg] at lands
  obtain rfl : tau = 2 := by nlinarith
  exact ⟨nonneg, inside, moves, found, leads⟩

end BoxNewton
