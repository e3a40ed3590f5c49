import Mathlib
import BoxNewton.Proofs.TruncatedDescent

/-!
# Truncated conjugate gradients come to an end

Every iteration that goes on searches a direction that is conjugate to all before it, and so enlarges the
searched subspace by one dimension. The residual is orthogonal to this subspace and is not zero while the
run goes on. So there are at most as many iterations as there are variables (`Ends.within_dimension`): with
a limit that is not below their number a call with a symmetric operator never reaches it, whether the
operator is definite, indefinite or singular (`solve_finishes`).
-/

set_option autoImplicit false

namespace BoxNewton.ConjugateGradient

variable {n : Nat} {A : SymmetricOperator n} {b : Fin n → ℝ} {radius tolerance : ℝ}
  {K : Submodule ℝ (Fin n → ℝ)} {s : Position n} {k products : Nat} {status : SubproblemStatus}
  {x : Fin n → ℝ}

/-- **Iterations are limited by the dimension.** A run that may search as many directions as are left does
not reach its limit, and asks for at most as many products. The searched subspace grows as the iterations that
are left become fewer. -/
theorem Ends.within_dimension (ends : Ends A radius tolerance k s status products x)
    (tight : 0 ≤ tolerance) (searches : s.Searches A b radius K)
    (enough : n ≤ Module.finrank ℝ K + k) :
    status ≠ .maxIterations ∧ Module.finrank ℝ K + products ≤ n := by
  induction ends generalizing K with
  | limit s =>
      have left := searches.conjugate.finrank_lt searches.remains
      exact absurd enough left.not_ge
  | stop stops =>
      refine ⟨?_, searches.conjugate.finrank_lt searches.remains⟩
      cases stops <;> decide
  | further goes _ ih =>
      have larger := searches.conjugate.finrank_next goes.curved
      obtain ⟨ended, counted⟩ := ih (searches.next tight goes) (by omega)
      exact ⟨ended, by omega⟩

/-- **A call comes to an end.** With a symmetric operator and a limit that is not below the number of
variables, a call returns a solution that has converged or lies on the boundary, and asks for at most as
many products as there are variables. If the residual has to vanish, a solution that has converged solves
the system. -/
theorem solve_finishes (A : SymmetricOperator n) (b : Fin n → ℝ) (positive : 0 < radius)
    (tight : 0 ≤ tolerance) {limit : Nat} (enough : n ≤ limit) :
    ∃ result x products, Returns A b radius tolerance limit result x products ∧
      (result.status = .converged ∨ result.status = .onBoundary ∧ √(x ⬝ᵥ x) = radius) ∧
      result.iterations = products ∧ products ≤ n ∧
      (tolerance = 0 → result.status = .converged → A x = b) := by
  by_cases moves : b = 0
  · subst moves
    exact ⟨_, _, _, returns_zero A radius tolerance limit, .inl rfl, rfl, Nat.zero_le n,
      fun _ _ => map_zero A.map⟩
  obtain ⟨status, products, x, ends, returned⟩ := exists_returns A moves radius tolerance limit
  have tight' : 0 ≤ tolerance * √(b ⬝ᵥ b) := mul_nonneg tight (Real.sqrt_nonneg _)
  obtain ⟨ended, counted⟩ := ends.within_dimension tight'
    (Position.searches_start A moves positive) (by rwa [finrank_bot, zero_add])
  rw [finrank_bot, zero_add] at counted
  refine ⟨_, _, _, returned, ?_, rfl, counted, ?_⟩
  · cases status with
    | converged => exact .inl rfl
    | onBoundary => exact .inr ⟨rfl, (ends.honours moves positive tight).boundary rfl⟩
    | maxIterations => exact absurd rfl ended
  · intro vanishes converged
    have start : (Position.start b).r = b - A (Position.start b).x := by
      change b = b - A 0
      rw [map_zero, sub_zero]
    have residual := ends.residual A.map.isLinear start converged
    rw [vanishes, zero_mul, Real.sqrt_le_left le_rfl, zero_pow two_ne_zero] at residual
    have zero := dotProduct_self_eq_zero.1 (le_antisymm residual (dot_self_nonneg _))
    exact (sub_eq_zero.1 zero).symm

/-- The right-hand side is an eigenvector, so the first iterate solves the system. -/
theorem exchange_solved (tolerance : ℝ) (tight : 0 ≤ tolerance) :
    Stops exchange 3 tolerance (.start ![1, 1]) .converged
      ((Position.start ![1, 1]).next exchange).x := by
  have curvature : (Position.start ![1, 1]).curvature exchange = 2 := by
    change ![1, 1] ⬝ᵥ exchange ![1, 1] = 2
    rw [exchange_apply, dot_pair]
    norm_num
  have length : (Position.start ![1, 1]).length exchange = 1 := by
    change (![1, 1] ⬝ᵥ ![1, 1]) / (Position.start ![1, 1]).curvature exchange = 1
    rw [curvature, dot_pair]
    norm_num
  have iterate : ((Position.start ![1, 1]).next exchange).x = ![1, 1] := by
    change (Position.start ![1, 1]).along ((Position.start ![1, 1]).length exchange) = _
    rw [length, start_along, one_smul]
  have residual : ((Position.start ![1, 1]).next exchange).r = 0 := by
    change ![1, 1] + (-(Position.start ![1, 1]).length exchange) • exchange ![1, 1] = 0
    rw [length, exchange_apply, neg_one_smul, add_neg_cancel]
  refine .solved (curvature ▸ two_pos) ?_ ?_
  · rw [iterate, dot_pair]
    norm_num
  · rw [residual, zero_dotProduct, Real.sqrt_zero]
    exact tight

/-- An exact solution with an indefinite operator. -/
theorem solve_finishes_exchange :
    (0 : ℝ) < 3 ∧ (0 : ℝ) ≤ 0 ∧ 2 ≤ 2 ∧ ∃ x,
      Returns exchange ![1, 1] 3 0 2 ⟨.converged, 1⟩ x 1 ∧ 1 ≤ 2 ∧ exchange x = ![1, 1] := by
  have positive : (0 : ℝ) < 3 := by norm_num
  have moves : (![1, 1] : Fin 2 → ℝ) ≠ 0 := by simp
  obtain ⟨result, x, products, returned, -, -, counted, solves⟩ :=
    solve_finishes exchange ![1, 1] positive (le_refl (0 : ℝ)) (le_refl 2)
  obtain ⟨status, asked, x', ends, returned'⟩ := exists_returns exchange moves 3 0 2
  have solved := exchange_solved (0 * √(![1, 1] ⬝ᵥ ![1, 1])) (by rw [zero_mul])
  obtain ⟨rfl, rfl, rfl⟩ := returned.unique returned'
  cases ends with
  | stop stops =>
      obtain ⟨rfl, -⟩ := stops.unique solved
      exact ⟨positive, le_rfl, le_rfl, x, returned, counted, solves rfl rfl⟩
  | further goes => exact absurd solved goes.not_stops

end BoxNewton.ConjugateGradient
