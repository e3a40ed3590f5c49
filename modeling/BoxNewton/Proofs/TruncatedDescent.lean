import Mathlib
import BoxNewton.Proofs.TruncatedRun

/-!
# Longer runs of truncated conjugate gradients are better

For a symmetric operator, definite or not, every iteration takes its solution further along a direction that
is conjugate to all before it. The norm and the slope of the solution grow and the model falls
(`Position.Searches.improves`), up to the next iterate and on the way to the boundary alike; in particular
the step that leads out to the boundary goes on where the iterates were going. Two calls that differ in
their limits share the iterations of the shorter one, so the longer one has a solution that is at least as
long and at least as good (`Ends.improves`).

The first iteration is a step of steepest descent, and the best one in the ball (`Stops.steepest`,
`steepest_next`). Nothing that comes after it loses this, so that a call is never worse than steepest
descent (`solve_improves`).
-/

set_option autoImplicit false

namespace BoxNewton.ConjugateGradient

variable {n : Nat} {A : SymmetricOperator n} {b : Fin n → ℝ} {radius tolerance : ℝ}
  {K : Submodule ℝ (Fin n → ℝ)} {s : Position n} {k l products products' : Nat}
  {status status' : SubproblemStatus} {x x' y : Fin n → ℝ}

/-! ## What the iterations keep -/

/-- A position inside the ball, with conjugate directions and a residual left, from which the direction
does not lead back. -/
structure Position.Searches (A : SymmetricOperator n) (b : Fin n → ℝ) (radius : ℝ)
    (K : Submodule ℝ (Fin n → ℝ)) (s : Position n) : Prop where
  conjugate : A.Conjugate b s.x s.r s.p K
  remains : 0 < s.r ⬝ᵥ s.r
  inside : s.x ⬝ᵥ s.x < radius * radius
  forward : 0 ≤ s.x ⬝ᵥ s.p

namespace Position

theorem searches_start (A : SymmetricOperator n) (moves : b ≠ 0) (positive : 0 < radius) :
    (start b).Searches A b radius ⊥ where
  conjugate := .start A b
  remains := dot_self_pos_iff.2 moves
  inside := (sound_start moves positive).inside
  forward := by rw [start, zero_dotProduct]

namespace Searches

variable (searches : s.Searches A b radius K)
include searches

theorem sound : s.Sound radius where
  remains := searches.remains
  aligned := searches.conjugate.residual_dot_direction
  inside := searches.inside

/-- An iteration that goes on searches its direction. -/
theorem next (tight : 0 ≤ tolerance) (goes : GoesOn A radius tolerance s) :
    (s.next A).Searches A b radius (K ⊔ Submodule.span ℝ {s.p}) where
  conjugate := searches.conjugate.step searches.remains goes.curved rfl rfl
  remains := (searches.sound.next tight goes).remains
  inside := goes.stays
  forward := searches.conjugate.next_forward searches.remains goes.curved rfl rfl searches.forward

end Searches

/-- Holds for distances along the direction that do not lead beyond the minimum of the model on it. -/
structure Admits (A : (Fin n → ℝ) → Fin n → ℝ) (s : Position n) (t : ℝ) : Prop where
  positive : 0 < t
  short : t * s.curvature A ≤ s.r ⬝ᵥ s.r

/-- The next iterate is at the minimum. -/
theorem length_mul_curvature {A : (Fin n → ℝ) → Fin n → ℝ} (curved : 0 < s.curvature A) :
    s.length A * s.curvature A = s.r ⬝ᵥ s.r :=
  div_mul_cancel₀ _ curved.ne'

theorem Sound.admits_length {A : (Fin n → ℝ) → Fin n → ℝ} (sound : s.Sound radius)
    (curved : 0 < s.curvature A) : s.Admits A (s.length A) :=
  ⟨div_pos sound.remains curved, (length_mul_curvature curved).le⟩

/-- From inside the ball the boundary is at a positive distance. -/
theorem Sound.toBoundary_pos (sound : s.Sound radius) : 0 < s.toBoundary radius := by
  have nonneg : 0 ≤ s.toBoundary radius :=
    largerRoot_nonneg sound.moves (sub_nonpos.2 sound.inside.le)
  refine lt_of_le_of_ne nonneg fun zero => ?_
  have outside := sound.on_boundary
  rw [← zero, along, zero_smul, add_zero] at outside
  exact sound.inside.ne outside

/-- Without curvature the model has no minimum along the direction. -/
theorem Sound.admits_flat {A : (Fin n → ℝ) → Fin n → ℝ} (sound : s.Sound radius)
    (notCurved : s.curvature A ≤ 0) : s.Admits A (s.toBoundary radius) where
  positive := sound.toBoundary_pos
  short := (mul_nonpos_of_nonneg_of_nonpos sound.toBoundary_pos.le notCurved).trans sound.remains.le

/-- The boundary is not farther than a next iterate outside the ball. -/
theorem Sound.admits_crossing {A : (Fin n → ℝ) → Fin n → ℝ} (sound : s.Sound radius)
    (curved : 0 < s.curvature A) (leaves : radius * radius ≤ (s.next A).x ⬝ᵥ (s.next A).x) :
    s.Admits A (s.toBoundary radius) := by
  have next := sound.admits_length curved
  obtain ⟨-, before⟩ := largerRoot_between sound.moves sound.inside.le next.positive leaves
  exact ⟨sound.toBoundary_pos, (mul_le_mul_of_nonneg_right before curved.le).trans next.short⟩

end Position

/-- Every solution that an iteration stops with lies at such a distance. -/
theorem Stops.exists_along {A : (Fin n → ℝ) → Fin n → ℝ} (stops : Stops A radius tolerance s status x)
    (sound : s.Sound radius) : ∃ t, s.Admits A t ∧ x = s.along t := by
  cases stops with
  | flat notCurved => exact ⟨_, sound.admits_flat notCurved, rfl⟩
  | crossing curved leaves => exact ⟨_, sound.admits_crossing curved leaves, rfl⟩
  | solved curved => exact ⟨_, sound.admits_length curved, rfl⟩

/-! ## Solutions that improve on others -/

/-- Holds when `y` is at least as long as `x`, at least as far along the right-hand side and at least as
good for the model. -/
structure Improves (A : SymmetricOperator n) (b x y : Fin n → ℝ) : Prop where
  longer : x ⬝ᵥ x ≤ y ⬝ᵥ y
  further : b ⬝ᵥ x ≤ b ⬝ᵥ y
  lower : A.model b y ≤ A.model b x

theorem Improves.refl (A : SymmetricOperator n) (b x : Fin n → ℝ) : Improves A b x x :=
  ⟨le_rfl, le_rfl, le_rfl⟩

theorem Improves.trans (first : Improves A b x y) (second : Improves A b y x') :
    Improves A b x x' :=
  ⟨first.longer.trans second.longer, first.further.trans second.further,
    second.lower.trans first.lower⟩

/-- **Along the direction everything improves**, up to the minimum of the model on it. -/
theorem Position.Searches.improves (searches : s.Searches A b radius K) {t : ℝ}
    (admits : s.Admits A t) : Improves A b s.x (s.along t) := by
  obtain ⟨positive, short⟩ := admits
  have gain := mul_nonneg positive.le searches.remains.le
  refine ⟨?_, ?_, ?_⟩
  · have ahead := mul_nonneg positive.le searches.forward
    have width := mul_nonneg (mul_nonneg positive.le positive.le) (dot_self_nonneg s.p)
    simp only [Position.along, add_dotProduct, dotProduct_add, smul_dotProduct, dotProduct_smul,
      smul_eq_mul, dotProduct_comm s.p s.x]
    linarith
  · rw [Position.along, searches.conjugate.slope_add]
    linarith
  · have half := mul_le_mul_of_nonneg_left short positive.le
    rw [Position.along, searches.conjugate.model_add]
    change A.model b s.x - t * (s.r ⬝ᵥ s.r) + t * t / 2 * s.curvature A ≤ _
    linarith

/-- A run improves on the position that it starts from. -/
theorem Ends.improves_start (ends : Ends A radius tolerance k s status products x)
    (tight : 0 ≤ tolerance) (searches : s.Searches A b radius K) : Improves A b s.x x := by
  induction ends generalizing K with
  | limit s => exact .refl A b s.x
  | stop stops =>
      obtain ⟨t, admits, rfl⟩ := stops.exists_along searches.sound
      exact searches.improves admits
  | further goes _ ih =>
      have stepped := searches.improves (searches.sound.admits_length goes.curved)
      exact stepped.trans (ih (searches.next tight goes))

/-- **A longer run improves on a shorter one.** Both go through the same positions, until the shorter one stops
or reaches its limit. -/
theorem Ends.improves (ends : Ends A radius tolerance k s status products x) (tight : 0 ≤ tolerance)
    (searches : s.Searches A b radius K)
    (ends' : Ends A radius tolerance l s status' products' x') (more : k ≤ l) :
    Improves A b x x' := by
  induction ends generalizing K l products' with
  | limit s => exact ends'.improves_start tight searches
  | stop stops =>
      cases ends' with
      | limit => exact absurd more (Nat.not_succ_le_zero _)
      | stop stops' =>
          obtain ⟨-, rfl⟩ := stops.unique stops'
          exact .refl A b _
      | further goes => exact absurd stops goes.not_stops
  | further goes _ ih =>
      cases ends' with
      | limit => exact absurd more (Nat.not_succ_le_zero _)
      | stop stops' => exact absurd stops' goes.not_stops
      | further _ rest' => exact ih (searches.next tight goes) rest' (Nat.le_of_succ_le_succ more)

/-- At the end of a run the curvature does not exceed the slope. -/
theorem Ends.curved_le (ends : Ends A radius tolerance k s status products x) (tight : 0 ≤ tolerance)
    (searches : s.Searches A b radius K) : x ⬝ᵥ A x ≤ b ⬝ᵥ x := by
  induction ends generalizing K with
  | limit s => exact searches.conjugate.curvature_eq_slope.le
  | stop stops =>
      obtain ⟨t, admits, rfl⟩ := stops.exists_along searches.sound
      exact searches.conjugate.curved_le admits.positive.le admits.short
  | further goes _ ih => exact ih (searches.next tight goes)

/-! ## The first iteration -/

/-- A step of steepest descent, not beyond the minimum on its ray, that no other step in the ball
beats. -/
structure Steepest (A : SymmetricOperator n) (b : Fin n → ℝ) (radius : ℝ) (y : Fin n → ℝ) : Prop where
  climbs : 0 < b ⬝ᵥ y
  best : ∀ t : ℝ, 0 ≤ t → (t • b) ⬝ᵥ (t • b) ≤ radius * radius → A.model b y ≤ A.model b (t • b)

theorem start_along (b : Fin n → ℝ) (t : ℝ) : (Position.start b).along t = t • b :=
  zero_add _

theorem next_start_x (A : (Fin n → ℝ) → Fin n → ℝ) (b : Fin n → ℝ) :
    ((Position.start b).next A).x = ((b ⬝ᵥ b) / (b ⬝ᵥ A b)) • b := start_along b _

theorem next_start_r (A : (Fin n → ℝ) → Fin n → ℝ) (b : Fin n → ℝ) :
    ((Position.start b).next A).r = b + (-((b ⬝ᵥ b) / (b ⬝ᵥ A b))) • A b := rfl

theorem model_smul (A : SymmetricOperator n) (b : Fin n → ℝ) (t : ℝ) :
    A.model b (t • b) = t * t / 2 * (b ⬝ᵥ A b) - t * (b ⬝ᵥ b) := by
  have along := (SymmetricOperator.Conjugate.start A b).model_add t
  have zero : A.model b 0 = 0 := by simp [SymmetricOperator.model]
  rw [zero_add, zero] at along
  linarith

/-- Before the minimum on the ray, a step is better than a shorter one. -/
theorem model_le_of_shorter {t u : ℝ} (admits : (Position.start b).Admits A t) (nonneg : 0 ≤ u)
    (shorter : u ≤ t) : A.model b (t • b) ≤ A.model b (u • b) := by
  obtain ⟨positive, short⟩ := admits
  change t * (b ⬝ᵥ A b) ≤ b ⬝ᵥ b at short
  have middle : (t + u) / 2 * (b ⬝ᵥ A b) ≤ b ⬝ᵥ b := by
    rcases le_total 0 (b ⬝ᵥ A b) with curved | flat
    · have halfway : (t + u) / 2 ≤ t := by linarith
      exact (mul_le_mul_of_nonneg_right halfway curved).trans short
    · have halfway : 0 ≤ (t + u) / 2 := by linarith
      exact (mul_nonpos_of_nonneg_of_nonpos halfway flat).trans (dot_self_nonneg b)
  have gain := mul_nonneg (sub_nonneg.2 shorter) (sub_nonneg.2 middle)
  rw [model_smul, model_smul]
  linarith

/-- The minimum on the ray is better than every other step. -/
theorem model_le_of_length {t u : ℝ} (curved : 0 ≤ b ⬝ᵥ A b) (reaches : t * (b ⬝ᵥ A b) = b ⬝ᵥ b) :
    A.model b (t • b) ≤ A.model b (u • b) := by
  have gain := mul_nonneg curved (mul_self_nonneg (t - u))
  rw [model_smul, model_smul, ← reaches]
  linarith

theorem climbs_of_admits {t : ℝ} (moves : b ≠ 0) (positive : 0 < t) : 0 < b ⬝ᵥ (t • b) := by
  rw [dotProduct_smul, smul_eq_mul]
  exact mul_pos positive (dot_self_pos_iff.2 moves)

/-- The next iterate is the best step on the ray. -/
theorem steepest_next (moves : b ≠ 0) (curved : 0 < (Position.start b).curvature A) :
    Steepest A b radius ((Position.start b).next A).x := by
  have reaches := Position.length_mul_curvature curved
  have positive : 0 < (Position.start b).length A := div_pos (dot_self_pos_iff.2 moves) curved
  change Steepest A b radius ((Position.start b).along _)
  rw [start_along]
  exact ⟨climbs_of_admits moves positive, fun t _ _ => model_le_of_length curved.le reaches⟩

/-- If the boundary is before the minimum, it is the best step in the ball. -/
theorem steepest_boundary (moves : b ≠ 0) (positive : 0 < radius)
    (admits : (Position.start b).Admits A ((Position.start b).toBoundary radius)) :
    Steepest A b radius ((Position.start b).along ((Position.start b).toBoundary radius)) := by
  have outside := (Position.sound_start moves positive).on_boundary
  rw [start_along] at outside ⊢
  refine ⟨climbs_of_admits moves admits.positive, fun u nonneg within => ?_⟩
  refine model_le_of_shorter admits nonneg ?_
  rw [← outside] at within
  simp only [smul_dotProduct, dotProduct_smul, smul_eq_mul, ← mul_assoc] at within
  have squares := le_of_mul_le_mul_right within (dot_self_pos_iff.2 moves)
  exact (mul_self_le_mul_self_iff nonneg admits.positive.le).2 squares

/-- **The first iteration is the best step of steepest descent in the ball.** -/
theorem Stops.steepest (stops : Stops A radius tolerance (.start b) status x) (moves : b ≠ 0)
    (positive : 0 < radius) : Steepest A b radius x := by
  have sound := Position.sound_start moves positive
  cases stops with
  | flat notCurved => exact steepest_boundary moves positive (sound.admits_flat notCurved)
  | crossing curved leaves =>
      exact steepest_boundary moves positive (sound.admits_crossing curved leaves)
  | solved curved => exact steepest_next moves curved

/-- A run of at least one iteration improves on the best step of steepest descent. -/
theorem Ends.exists_steepest (ends : Ends A radius tolerance (k + 1) (.start b) status products x)
    (tight : 0 ≤ tolerance) (moves : b ≠ 0) (positive : 0 < radius) :
    ∃ y, Steepest A b radius y ∧ Improves A b y x := by
  cases ends with
  | stop stops => exact ⟨x, stops.steepest moves positive, .refl A b x⟩
  | further goes rest =>
      have searches := (Position.searches_start A moves positive).next tight goes
      exact ⟨_, steepest_next moves goes.curved, rest.improves_start tight searches⟩

/-! ## Calls -/

/-- Whatever ends a call, the curvature of its solution does not exceed the slope. -/
theorem Returns.curved_le {limit : Nat} {result : SubproblemResult}
    (returned : Returns A b radius tolerance limit result x products) (positive : 0 < radius)
    (tight : 0 ≤ tolerance) : x ⬝ᵥ A x ≤ b ⬝ᵥ x := by
  by_cases moves : b = 0
  · subst moves
    obtain ⟨-, rfl, -⟩ := returned.unique (returns_zero A radius tolerance limit)
    rw [zero_dotProduct, zero_dotProduct]
  · obtain ⟨status, k, y, ends, went⟩ := exists_returns A moves radius tolerance limit
    obtain ⟨-, rfl, -⟩ := returned.unique went
    exact ends.curved_le (mul_nonneg tight (Real.sqrt_nonneg _))
      (Position.searches_start A moves positive)

/-- **More iterations never hurt, and one is as good as steepest descent.** Calls with a symmetric operator,
definite or not, return; the solution of the call with the larger limit is at least as long and its model
value is at most the other one's. With at least one iteration the solution has a positive slope that its
curvature does not exceed, and no step of steepest descent in the ball has a lower model value. -/
theorem solve_improves (A : SymmetricOperator n) (moves : b ≠ 0) (positive : 0 < radius)
    (tight : 0 ≤ tolerance) {limit limit' : Nat} (more : limit ≤ limit') :
    ∃ result x products result' x' products',
      Returns A b radius tolerance limit result x products ∧
      Returns A b radius tolerance limit' result' x' products' ∧
      √(x ⬝ᵥ x) ≤ √(x' ⬝ᵥ x') ∧ A.model b x' ≤ A.model b x ∧
      (0 < limit → 0 < b ⬝ᵥ x ∧ x ⬝ᵥ A x ≤ b ⬝ᵥ x ∧
        ∀ t : ℝ, 0 ≤ t → √((t • b) ⬝ᵥ (t • b)) ≤ radius → A.model b x ≤ A.model b (t • b)) := by
  obtain ⟨status, products, x, ends, returned⟩ := exists_returns A moves radius tolerance limit
  obtain ⟨status', products', x', ends', returned'⟩ :=
    exists_returns A moves radius tolerance limit'
  have tight' : 0 ≤ tolerance * √(b ⬝ᵥ b) := mul_nonneg tight (Real.sqrt_nonneg _)
  have searches := Position.searches_start A moves positive
  have improves := ends.improves tight' searches ends' more
  refine ⟨_, x, _, _, x', _, returned, returned', Real.sqrt_le_sqrt improves.longer, improves.lower,
    fun allowed => ?_⟩
  obtain ⟨k, rfl⟩ := Nat.exists_eq_succ_of_ne_zero allowed.ne'
  obtain ⟨y, steepest, better⟩ := ends.exists_steepest tight' moves positive
  refine ⟨steepest.climbs.trans_le better.further, ends.curved_le tight' searches, ?_⟩
  intro t nonneg within
  refine better.lower.trans (steepest.best t nonneg ?_)
  rw [← pow_two]
  exact (Real.sqrt_le_left positive.le).1 within

/-- The operator that exchanges two variables. It is symmetric and indefinite. -/
def exchange : SymmetricOperator 2 where
  map := LinearMap.funLeft ℝ ℝ Fin.rev
  symmetric u v := by
    simp [dotProduct, Fin.sum_univ_two, LinearMap.funLeft, mul_comm]
    ring

theorem exchange_apply (a b : ℝ) : exchange ![a, b] = ![b, a] := by
  funext i
  fin_cases i <;> rfl

/-- With an indefinite operator, one iteration and three. -/
theorem solve_improves_exchange :
    (![2, -1] : Fin 2 → ℝ) ≠ 0 ∧ (0 : ℝ) < 3 ∧ (0 : ℝ) ≤ 1 / 10 ∧
    ∃ result x products result' x' products',
      Returns exchange ![2, -1] 3 (1 / 10) 1 result x products ∧
      Returns exchange ![2, -1] 3 (1 / 10) 3 result' x' products' ∧
      √(x ⬝ᵥ x) ≤ √(x' ⬝ᵥ x') ∧ exchange.model ![2, -1] x' ≤ exchange.model ![2, -1] x ∧
      0 < ![2, -1] ⬝ᵥ x ∧ x ⬝ᵥ exchange x ≤ ![2, -1] ⬝ᵥ x ∧
      exchange.model ![2, -1] x ≤ exchange.model ![2, -1] ((1 : ℝ) • ![2, -1]) := by
  have moves : (![2, -1] : Fin 2 → ℝ) ≠ 0 := by simp
  have positive : (0 : ℝ) < 3 := by norm_num
  have tight : (0 : ℝ) ≤ 1 / 10 := by norm_num
  have within : √(((1 : ℝ) • ![2, -1]) ⬝ᵥ ((1 : ℝ) • ![2, -1])) ≤ 3 := by
    rw [Real.sqrt_le_left positive.le, one_smul, dot_pair]
    norm_num
  obtain ⟨result, x, products, result', x', products', returned, returned', longer, lower, first⟩ :=
    solve_improves exchange moves positive tight (show 1 ≤ 3 by decide)
  obtain ⟨climbs, curved, best⟩ := first one_pos
  exact ⟨moves, positive, tight, result, x, products, result', x', products', returned, returned',
    longer, lower, climbs, curved, best 1 zero_le_one within⟩

end BoxNewton.ConjugateGradient
