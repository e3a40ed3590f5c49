import Mathlib

/-!
# Conjugate directions of a symmetric operator

The linear algebra behind conjugate gradients. The operator is symmetric and need not be positive definite:
all that an iteration needs is that the curvature along its own direction is positive. A positive definite
operator (`Curvature`) is one of these, with more known about it.

The iterate `x`, the residual `r` and the direction `p` are described by the subspace of the directions
that have been searched (`SymmetricOperator.Conjugate`): the residual is orthogonal to it, the next
direction is conjugate to it, and the operator leads out of it along the residual only. One iteration
extends the subspace by its direction and keeps all of this (`Conjugate.step`). As long as there is a
residual the subspace is not the whole space (`Conjugate.finrank_lt`), and every iteration makes it larger
by one dimension (`Conjugate.finrank_next`).

Along the direction the model `½ xᵀAx - bᵀx`, the slope `bᵀx` and the norm change as on a line
(`Conjugate.model_add`, `Conjugate.slope_add`), because the iterate is conjugate to the direction. Up to the
next iterate the curvature `xᵀAx` does not exceed the slope (`Conjugate.curved_le`).
-/

set_option autoImplicit false

namespace BoxNewton

theorem dot_self_nonneg {n : Nat} (u : Fin n → ℝ) : 0 ≤ u ⬝ᵥ u :=
  Finset.sum_nonneg fun i _ => mul_self_nonneg (u i)

theorem dot_self_pos_iff {n : Nat} {u : Fin n → ℝ} : 0 < u ⬝ᵥ u ↔ u ≠ 0 := by
  rw [(dot_self_nonneg u).lt_iff_ne', Ne, dotProduct_self_eq_zero]

theorem sqrt_dot_self_eq_zero {n : Nat} {u : Fin n → ℝ} : √(u ⬝ᵥ u) = 0 ↔ u = 0 := by
  rw [Real.sqrt_eq_zero (dot_self_nonneg u), dotProduct_self_eq_zero]

/-- A symmetric linear operator on real vectors. -/
structure SymmetricOperator (n : Nat) where
  map : (Fin n → ℝ) →ₗ[ℝ] Fin n → ℝ
  symmetric : ∀ u v, u ⬝ᵥ map v = map u ⬝ᵥ v

namespace SymmetricOperator

variable {n : Nat}

instance : CoeFun (SymmetricOperator n) fun _ => (Fin n → ℝ) → Fin n → ℝ := ⟨fun A => A.map⟩

variable (A : SymmetricOperator n)

/-- The quadratic model that a subproblem minimizes. -/
noncomputable def model (b x : Fin n → ℝ) : ℝ := 0.5 * (x ⬝ᵥ A x) - b ⬝ᵥ x

/-- What conjugate gradients keep: the iterate, the residual and the direction, and the subspace of
the directions before. -/
structure Conjugate (b x r p : Fin n → ℝ) (K : Submodule ℝ (Fin n → ℝ)) : Prop where
  residual : r = b - A x
  iterate_mem : x ∈ K
  residual_orthogonal : ∀ k ∈ K, r ⬝ᵥ k = 0
  direction_conjugate : ∀ k ∈ K, p ⬝ᵥ A k = 0
  direction_sub_mem : p - r ∈ K
  image_mem : ∀ k ∈ K, A k ∈ K ⊔ Submodule.span ℝ {r}

namespace Conjugate

variable {A} {b x r p : Fin n → ℝ} {K : Submodule ℝ (Fin n → ℝ)}

/-- Before the first iteration no direction has been searched. -/
theorem start (A : SymmetricOperator n) (b : Fin n → ℝ) : A.Conjugate b 0 b b ⊥ where
  residual := by simp
  iterate_mem := zero_mem _
  residual_orthogonal k hk := by simp [(Submodule.mem_bot ℝ).1 hk]
  direction_conjugate k hk := by simp [(Submodule.mem_bot ℝ).1 hk]
  direction_sub_mem := by simp
  image_mem k hk := by simp [(Submodule.mem_bot ℝ).1 hk]

variable (c : A.Conjugate b x r p K)
include c

/-- The residual has the same product with the direction as with itself. -/
theorem residual_dot_direction : r ⬝ᵥ p = r ⬝ᵥ r := by
  have rest := c.residual_orthogonal _ c.direction_sub_mem
  rw [dotProduct_sub] at rest
  exact sub_eq_zero.1 rest

/-- The residual lies in the next subspace. -/
theorem residual_mem : r ∈ K ⊔ Submodule.span ℝ {p} := by
  have split : r = p - (p - r) := (sub_sub_cancel p r).symm
  rw [split]
  exact sub_mem (Submodule.mem_sup_right (Submodule.mem_span_singleton_self p))
    (Submodule.mem_sup_left c.direction_sub_mem)

/-- The operator leads from the subspace into the next one. -/
theorem image_mem_next {k : Fin n → ℝ} (hk : k ∈ K) : A k ∈ K ⊔ Submodule.span ℝ {p} := by
  have into : K ⊔ Submodule.span ℝ {r} ≤ K ⊔ Submodule.span ℝ {p} := by
    apply sup_le le_sup_left
    rw [Submodule.span_singleton_le_iff_mem]
    exact c.residual_mem
  exact into (c.image_mem k hk)

/-! ## Along the direction -/

/-- The iterate is conjugate to the direction. -/
theorem iterate_conjugate : x ⬝ᵥ A p = 0 := by
  rw [A.symmetric, dotProduct_comm]
  exact c.direction_conjugate x c.iterate_mem

/-- The slope grows by the squared norm of the residual. -/
theorem slope_add (t : ℝ) : b ⬝ᵥ (x + t • p) = b ⬝ᵥ x + t * (r ⬝ᵥ r) := by
  have right : b = r + A x := by rw [c.residual, sub_add_cancel]
  have along : b ⬝ᵥ p = r ⬝ᵥ r := by
    rw [right, add_dotProduct, c.residual_dot_direction, ← A.symmetric, c.iterate_conjugate, add_zero]
  rw [dotProduct_add, dotProduct_smul, along, smul_eq_mul]

/-- The curvature grows by the one along the direction. -/
theorem curvature_add (t : ℝ) :
    (x + t • p) ⬝ᵥ A (x + t • p) = x ⬝ᵥ A x + t * t * (p ⬝ᵥ A p) := by
  have back : p ⬝ᵥ A x = 0 := c.direction_conjugate x c.iterate_mem
  simp only [map_add, map_smul, dotProduct_add, add_dotProduct, smul_dotProduct, dotProduct_smul,
    smul_eq_mul, c.iterate_conjugate, back]
  ring

/-- The model along the direction. -/
theorem model_add (t : ℝ) :
    A.model b (x + t • p) = A.model b x - t * (r ⬝ᵥ r) + t * t / 2 * (p ⬝ᵥ A p) := by
  rw [model, model, c.curvature_add, c.slope_add]
  ring

/-- At the iterate the curvature is the slope. -/
theorem curvature_eq_slope : x ⬝ᵥ A x = b ⬝ᵥ x := by
  have orthogonal := c.residual_orthogonal x c.iterate_mem
  rw [c.residual, sub_dotProduct, sub_eq_zero] at orthogonal
  rw [A.symmetric, orthogonal]

/-- Points between the iterate and the next one, or anywhere along a direction without positive curvature:
the curvature does not exceed the slope. -/
theorem curved_le {t : ℝ} (nonneg : 0 ≤ t) (short : t * (p ⬝ᵥ A p) ≤ r ⬝ᵥ r) :
    (x + t • p) ⬝ᵥ A (x + t • p) ≤ b ⬝ᵥ (x + t • p) := by
  have gain := mul_nonneg nonneg (sub_nonneg.2 short)
  rw [c.curvature_add, c.slope_add, c.curvature_eq_slope]
  linarith

/-! ## The next iterate -/

section Next

variable {a : ℝ} {r' : Fin n → ℝ}

/-- The next residual is orthogonal to the subspace and to the direction. -/
theorem next_orthogonal (reaches : a * (p ⬝ᵥ A p) = r ⬝ᵥ r) (next : r' = r + (-a) • A p)
    {k : Fin n → ℝ} (hk : k ∈ K ⊔ Submodule.span ℝ {p}) : r' ⬝ᵥ k = 0 := by
  obtain ⟨u, hu, v, hv, rfl⟩ := Submodule.mem_sup.1 hk
  obtain ⟨t, rfl⟩ := Submodule.mem_span_singleton.1 hv
  have same := c.residual_dot_direction
  have old := c.residual_orthogonal u hu
  have conjugate := c.direction_conjugate u hu
  rw [A.symmetric] at conjugate
  simp only [next, add_dotProduct, dotProduct_add, smul_dotProduct, dotProduct_smul, smul_eq_mul,
    old, conjugate, same, dotProduct_comm (A p) p]
  linear_combination -t * reaches

omit c in
/-- What the operator does to the direction is the difference of the two residuals. -/
theorem image_direction (positive : 0 < a) (next : r' = r + (-a) • A p) :
    A p = a⁻¹ • (r - r') := by
  simp [next, smul_smul, inv_mul_cancel₀ positive.ne']

/-- The next direction is conjugate to the direction. -/
theorem next_conjugate (positive : 0 < a) (remains : 0 < r ⬝ᵥ r)
    (reaches : a * (p ⬝ᵥ A p) = r ⬝ᵥ r) (next : r' = r + (-a) • A p) :
    (r' + ((r' ⬝ᵥ r') / (r ⬝ᵥ r)) • p) ⬝ᵥ A p = 0 := by
  have old := c.next_orthogonal reaches next c.residual_mem
  have along : r' ⬝ᵥ A p = -(r' ⬝ᵥ r') / a := by
    rw [image_direction positive next, dotProduct_smul, dotProduct_sub, old, smul_eq_mul]
    ring
  have ratio : (r ⬝ᵥ r) / a = p ⬝ᵥ A p := by
    rw [← reaches]
    exact mul_div_cancel_left₀ _ positive.ne'
  rw [add_dotProduct, smul_dotProduct, along, smul_eq_mul, ← ratio]
  field_simp
  ring

/-- **One iteration of conjugate gradients.** -/
theorem step (remains : 0 < r ⬝ᵥ r) (curved : 0 < p ⬝ᵥ A p) (length : a = (r ⬝ᵥ r) / (p ⬝ᵥ A p))
    (next : r' = r + (-a) • A p) :
    A.Conjugate b (x + a • p) r' (r' + ((r' ⬝ᵥ r') / (r ⬝ᵥ r)) • p) (K ⊔ Submodule.span ℝ {p}) := by
  have positive : 0 < a := length ▸ div_pos remains curved
  have reaches : a * (p ⬝ᵥ A p) = r ⬝ᵥ r := by
    rw [length]
    exact div_mul_cancel₀ _ curved.ne'
  have direction_mem : p ∈ K ⊔ Submodule.span ℝ {p} :=
    Submodule.mem_sup_right (Submodule.mem_span_singleton_self p)
  have image_next : A p ∈ K ⊔ Submodule.span ℝ {p} ⊔ Submodule.span ℝ {r'} := by
    rw [image_direction positive next]
    exact Submodule.smul_mem _ _ (sub_mem (Submodule.mem_sup_left c.residual_mem)
      (Submodule.mem_sup_right (Submodule.mem_span_singleton_self r')))
  refine ⟨?_, ?_, ?_, ?_, ?_, ?_⟩
  · rw [next, c.residual, map_add, map_smul, neg_smul]
    abel
  · exact add_mem (Submodule.mem_sup_left c.iterate_mem) (Submodule.smul_mem _ a direction_mem)
  · intro k hk
    exact c.next_orthogonal reaches next hk
  · intro k hk
    obtain ⟨u, hu, v, hv, rfl⟩ := Submodule.mem_sup.1 hk
    obtain ⟨t, rfl⟩ := Submodule.mem_span_singleton.1 hv
    rw [map_add, map_smul, dotProduct_add, dotProduct_smul,
      c.next_conjugate positive remains reaches next, smul_zero, add_zero, add_dotProduct,
      smul_dotProduct, c.direction_conjugate u hu, smul_zero, add_zero]
    exact c.next_orthogonal reaches next (c.image_mem_next hu)
  · rw [add_sub_cancel_left]
    exact Submodule.smul_mem _ _ direction_mem
  · intro k hk
    obtain ⟨u, hu, v, hv, rfl⟩ := Submodule.mem_sup.1 hk
    obtain ⟨t, rfl⟩ := Submodule.mem_span_singleton.1 hv
    rw [map_add, map_smul]
    exact add_mem (Submodule.mem_sup_left (c.image_mem_next hu))
      (Submodule.smul_mem _ t image_next)

/-- The next iterate is orthogonal to the next residual, so only the old direction counts in its product
with the next direction. -/
theorem next_forward (remains : 0 < r ⬝ᵥ r) (curved : 0 < p ⬝ᵥ A p)
    (length : a = (r ⬝ᵥ r) / (p ⬝ᵥ A p)) (next : r' = r + (-a) • A p) (forward : 0 ≤ x ⬝ᵥ p) :
    0 ≤ (x + a • p) ⬝ᵥ (r' + ((r' ⬝ᵥ r') / (r ⬝ᵥ r)) • p) := by
  have stepped := c.step remains curved length next
  have orthogonal : (x + a • p) ⬝ᵥ r' = 0 := by
    rw [dotProduct_comm]
    exact stepped.residual_orthogonal _ stepped.iterate_mem
  have positive : 0 < a := length ▸ div_pos remains curved
  have ratio : 0 ≤ (r' ⬝ᵥ r') / (r ⬝ᵥ r) := div_nonneg (dot_self_nonneg r') remains.le
  have product : 0 ≤ (x + a • p) ⬝ᵥ p := by
    rw [add_dotProduct, smul_dotProduct, smul_eq_mul]
    exact add_nonneg forward (mul_nonneg positive.le (dot_self_nonneg p))
  rw [dotProduct_add, orthogonal, zero_add, dotProduct_smul, smul_eq_mul]
  exact mul_nonneg ratio product

end Next

/-! ## The dimension of the searched subspace -/

/-- As long as there is a residual, some direction has not been searched. -/
theorem finrank_lt (remains : 0 < r ⬝ᵥ r) : Module.finrank ℝ K < n := by
  have proper : K ≠ ⊤ := by
    intro whole
    have orthogonal := c.residual_orthogonal r (whole ▸ Submodule.mem_top)
    exact remains.ne' orthogonal
  have less := Submodule.finrank_lt proper
  rwa [Module.finrank_fin_fun] at less

/-- A direction with positive curvature is a new one. -/
theorem finrank_next (curved : 0 < p ⬝ᵥ A p) :
    Module.finrank ℝ ↥(K ⊔ Submodule.span ℝ {p}) = Module.finrank ℝ K + 1 := by
  have outside : p ∉ K := by
    intro searched
    exact curved.ne' (c.direction_conjugate p searched)
  have moves : p ≠ 0 := by
    rintro rfl
    exact outside (zero_mem K)
  have disjoint : K ⊓ Submodule.span ℝ {p} = ⊥ :=
    ((Submodule.disjoint_span_singleton' moves).2 outside).eq_bot
  have dimension := Submodule.finrank_sup_add_finrank_inf_eq K (Submodule.span ℝ {p})
  rwa [disjoint, finrank_bot, add_zero, finrank_span_singleton moves] at dimension

end Conjugate

end SymmetricOperator

/-- A symmetric positive definite linear operator on real vectors. -/
structure Curvature (n : Nat) extends SymmetricOperator n where
  positive : ∀ u, u ≠ 0 → 0 < u ⬝ᵥ map u

namespace Curvature

variable {n : Nat}

instance : CoeFun (Curvature n) fun _ => (Fin n → ℝ) → Fin n → ℝ := ⟨fun H => H.map⟩

theorem nonneg (H : Curvature n) (u : Fin n → ℝ) : 0 ≤ u ⬝ᵥ H u := by
  by_cases zero : u = 0
  · simp [zero]
  · exact (H.positive u zero).le

end Curvature

end BoxNewton
