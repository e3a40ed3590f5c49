import Mathlib
import BoxNewton.Proofs.PathSteps
import BoxNewton.Proofs.ProjectedPath
import BoxNewton.Proofs.StepBookkeeping

/-!
# The length that a projected search ends with

Halving goes on while the length is above the first breakpoint and its step fails the test of decrease.
It ends at the first number of halvings where one of the two does not hold (`ProjectedSearch.Halts`), and
what the search returns follows from this number alone (`ProjectedSearch.eval_find`). Read over the reals,
there are three ways to end (`ProjectedSearch.EndsAt`): the longest halved length beyond the first
breakpoint that decreases the model, the full length with all breakpoints at it or beyond, or the first
breakpoint after every longer length has failed, and then a variable has landed on its bound.

That there is such a number needs an argument only where no variable ever meets a bound. The path is then a
ray, on which a small length passes the test because the direction descends in the variables that can move
(`ProjectedSearch.exists_decreases`). The operator has to be linear for this, but neither symmetric nor
definite.
-/

set_option autoImplicit false

namespace BoxNewton

namespace ProjectedSearch

variable {n : Nat}

/-! ## Halving -/

section Halving

variable (search : ProjectedSearch EReal n) (A : Vec EReal n → Vec EReal n)

/-- Holds when halving does not go on after so many halvings: the length is not above the shortest, or
its step passes the test. -/
def Halts (k : ℕ) : Prop :=
  search.shortest < ((0.5 ^ k : ℝ) : EReal) → search.Passes A (0.5 ^ k)

variable {search A}

/-- Halving ends where it first does not go on. -/
theorem eval_backtrack {k : ℕ} (first : IsLeast {k | search.Halts A k} k) :
    ∀ (fuel j : Nat) (hs : Vec EReal n), j ≤ k → k < j + fuel →
      (search.backtrack fuel ((0.5 ^ j : ℝ) : EReal) hs).eval (answeredBy A) =
        some ((0.5 ^ k : ℝ) : EReal) := by
  intro fuel
  induction fuel with
  | zero => exact fun j _ before enough => absurd enough before.not_gt
  | succ fuel ih =>
      intro j hs before enough
      have half : ((0.5 ^ j : ℝ) : EReal) * (1 / (1 + 1)) = ((0.5 ^ (j + 1) : ℝ) : EReal) := by
        have two : (0.5 : ℝ) ^ (j + 1) = 0.5 ^ j * (1 / (1 + 1)) := by
          rw [pow_succ]
          norm_num
        rw [two]
        rfl
      unfold backtrack
      by_cases early : j < k
      · have goes : ¬ search.Halts A j := fun halts => (first.2 halts).not_gt early
        rw [Halts, Classical.not_imp, Passes] at goes
        rw [if_pos goes.1]
        simp only [ModelValue.measure, Dialogue.eval_bind, eval_request, Option.bind_some,
          Dialogue.eval_pure]
        rw [if_neg goes.2, half]
        exact ih (j + 1) _ early (by omega)
      · obtain rfl : j = k := le_antisymm before (not_lt.1 early)
        split
        · rename_i above
          have passes := first.1 above
          rw [Passes] at passes
          simp only [ModelValue.measure, Dialogue.eval_bind, eval_request, Option.bind_some,
            Dialogue.eval_pure]
          rw [if_pos passes]
          rfl
        · rfl

/-- The length that a search ends with, which is not below the shortest. -/
theorem eval_find {k : ℕ} (first : IsLeast {k | search.Halts A k} k) {fuel : Nat} (enough : k < fuel)
    (hs : Vec EReal n) {a : ℝ} (length : (a : EReal) =
      if ((0.5 ^ k : ℝ) : EReal) < 1 ∧ ((0.5 ^ k : ℝ) : EReal) < search.shortest then search.shortest
      else ((0.5 ^ k : ℝ) : EReal)) :
    (search.find fuel hs).eval (answeredBy A) =
      some ⟨a, search.step a, search.land (search.step a)⟩ := by
  have reached := eval_backtrack first fuel 0 hs (Nat.zero_le k) (by omega)
  rw [pow_zero, EReal.coe_one] at reached
  unfold find
  simp only [Dialogue.eval_bind, reached, Option.bind_some, Dialogue.eval_remarkWhen,
    Dialogue.eval_remark, Dialogue.eval_pure, decide_eq_true_eq, length]

end Halving

/-! ## Where a search ends -/

section End

variable (box : Box EReal n) (x d g : Fin n → ℝ) (H : (Fin n → ℝ) → Fin n → ℝ) (mu0 : ℝ)

/-- The ways in which a search ends. -/
inductive EndsAt : ℝ → Prop where
  /-- The longest of the halved lengths beyond the first breakpoint that decreases the model, where the
  path has a breakpoint at all. -/
  | decreased {k : ℕ} (past : (∃ i t, box.Meets x d i t) → ∃ i t, box.Meets x d i t ∧ t < 0.5 ^ k)
      (decreases : box.Decreases x d g H mu0 (0.5 ^ k))
      (longest : ∀ j : ℕ, (0.5 : ℝ) ^ k < 0.5 ^ j → ¬ box.Decreases x d g H mu0 (0.5 ^ j)) :
      EndsAt (0.5 ^ k)
  /-- The full length, which is not beyond the first breakpoint. -/
  | full {b : ℝ} (first : IsLeast {t | ∃ i, box.Meets x d i t} b) (before : 1 ≤ b) : EndsAt 1
  /-- The first breakpoint, when none of the halved lengths beyond it decreases the model. -/
  | snapped {b : ℝ} (first : IsLeast {t | ∃ i, box.Meets x d i t} b) (short : b ≤ 1)
      (failed : ∀ j : ℕ, b < 0.5 ^ j → ¬ box.Decreases x d g H mu0 (0.5 ^ j))
      (lands : ∃ i, box.Lands x d i b) : EndsAt b

variable {box x d g H mu0} {A : Vec EReal n → Vec EReal n}

/-- The test of a search over real vectors. -/
theorem passes_iff (inside : box.Contains (Vec.ofReal x)) (acts : Vec.ActsBy A H) (a : ℝ) :
    (ofReal box x d g mu0).Passes A a ↔ box.Decreases x d g H mu0 a := by
  rw [Passes, step_eq_path rfl inside rfl, acts, Box.decreases_iff]
  exact ModelValue.isSufficient_ofReal _ _ _ _

/-- The shortest length of a search over real vectors. -/
theorem shortest_ofReal (inside : box.Contains (Vec.ofReal x)) (d g : Fin n → ℝ) (mu0 : ℝ) :
    (ofReal box x d g mu0).shortest = 0 ∧ (∀ i t, ¬ box.Meets x d i t) ∨
      ∃ b : ℝ, (ofReal box x d g mu0).shortest = b ∧ IsLeast {t | ∃ i, box.Meets x d i t} b := by
  have unfolded : (ofReal box x d g mu0).shortest =
      if Scalar.IsFinite (box.breakpoints (Vec.ofReal x) (Vec.ofReal d)).min
      then (box.breakpoints (Vec.ofReal x) (Vec.ofReal d)).min else 0 := rfl
  rcases Box.breakpoints_min_cases inside (d := d) with ⟨far, never⟩ | ⟨b, near, first⟩
  · rw [unfolded, far, if_neg fun finite => lt_irrefl _ finite.2]
    exact .inl ⟨rfl, never⟩
  · rw [unfolded, near, if_pos (Scalar.isFinite_coe b)]
    exact .inr ⟨b, rfl, first⟩

/-- Longer lengths than the one that halving ends with have failed. -/
theorem not_decreases (inside : box.Contains (Vec.ofReal x)) (acts : Vec.ActsBy A H) {j k : ℕ}
    (first : IsLeast {k | (ofReal box x d g mu0).Halts A k} k) (longer : (0.5 : ℝ) ^ k < 0.5 ^ j) :
    ¬ box.Decreases x d g H mu0 (0.5 ^ j) := by
  intro decreases
  have earlier : j < k := (pow_lt_pow_iff_right_of_lt_one₀ (by norm_num) (by norm_num)).1 longer
  exact (first.2 fun _ => (passes_iff inside acts _).2 decreases).not_gt earlier

/-- If halving has gone beyond the first breakpoint, this breakpoint is an end. -/
theorem endsAt_breakpoint (inside : box.Contains (Vec.ofReal x)) (acts : Vec.ActsBy A H) {k : ℕ} {b : ℝ}
    (first : IsLeast {k | (ofReal box x d g mu0).Halts A k} (k + 1))
    (near : (ofReal box x d g mu0).shortest = b) (least : IsLeast {t | ∃ i, box.Meets x d i t} b)
    (below : (0.5 : ℝ) ^ (k + 1) ≤ b) : b ≤ 1 ∧ EndsAt box x d g H mu0 b := by
  have last : ¬ (ofReal box x d g mu0).Halts A k := fun halts =>
    (first.2 halts).not_gt (Nat.lt_succ_self k)
  rw [Halts, Classical.not_imp, near, EReal.coe_lt_coe_iff] at last
  have short : b ≤ 1 := last.1.le.trans (pow_le_one₀ (by norm_num) (by norm_num))
  obtain ⟨i, meets⟩ := least.1
  exact ⟨short, .snapped least short
    (fun j above => not_decreases inside acts first (below.trans_lt above)) ⟨i, meets.lands inside⟩⟩

/-- Where halving leads to: a positive length up to one, which is the one that the search ends with. -/
theorem exists_length (inside : box.Contains (Vec.ofReal x)) (acts : Vec.ActsBy A H) {k : ℕ}
    (first : IsLeast {k | (ofReal box x d g mu0).Halts A k} k) :
    ∃ a : ℝ, 0 < a ∧ a ≤ 1 ∧ EndsAt box x d g H mu0 a ∧
      (a : EReal) =
        if ((0.5 ^ k : ℝ) : EReal) < 1 ∧ ((0.5 ^ k : ℝ) : EReal) < (ofReal box x d g mu0).shortest
        then (ofReal box x d g mu0).shortest else ((0.5 ^ k : ℝ) : EReal) := by
  have positive : (0 : ℝ) < 0.5 ^ k := by positivity
  have atMost : (0.5 : ℝ) ^ k ≤ 1 := pow_le_one₀ (by norm_num) (by norm_num)
  have kept : (ofReal box x d g mu0).shortest < ((0.5 ^ k : ℝ) : EReal) →
      ((∃ i t, box.Meets x d i t) → ∃ i t, box.Meets x d i t ∧ t < 0.5 ^ k) →
      EndsAt box x d g H mu0 (0.5 ^ k) ∧ ((0.5 ^ k : ℝ) : EReal) =
        if ((0.5 ^ k : ℝ) : EReal) < 1 ∧ ((0.5 ^ k : ℝ) : EReal) < (ofReal box x d g mu0).shortest
        then (ofReal box x d g mu0).shortest else ((0.5 ^ k : ℝ) : EReal) := by
    intro above past
    exact ⟨.decreased past ((passes_iff inside acts _).1 (first.1 above))
      fun _ => not_decreases inside acts first, (if_neg fun snaps => above.not_gt snaps.2).symm⟩
  rcases shortest_ofReal inside d g mu0 with ⟨zero, never⟩ | ⟨b, near, least⟩
  · refine ⟨0.5 ^ k, positive, atMost, kept (zero ▸ EReal.coe_pos.2 positive) ?_⟩
    rintro ⟨i, t, meets⟩
    exact absurd meets (never i t)
  · obtain ⟨i, meets⟩ := least.1
    rcases lt_or_ge b (0.5 ^ k) with above | below
    · exact ⟨0.5 ^ k, positive, atMost, kept (near ▸ EReal.coe_lt_coe_iff.2 above) fun _ =>
        ⟨i, b, meets, above⟩⟩
    · rw [near]
      simp only [EReal.coe_lt_coe_iff]
      cases k with
      | zero =>
          rw [pow_zero] at below ⊢
          exact ⟨1, one_pos, le_rfl, .full least below,
            (if_neg fun snaps => lt_irrefl _ snaps.1).symm⟩
      | succ k =>
          obtain ⟨short, ends⟩ := endsAt_breakpoint inside acts first near least below
          refine ⟨b, meets.pos, short, ends, ?_⟩
          rcases below.lt_or_eq with less | same
          · have less' : (0.5 : ℝ) ^ (k + 1) < 1 := less.trans_le short
            rw [if_pos ⟨EReal.coe_lt_coe_iff.2 less', less⟩]
          · rw [same, if_neg fun snaps => lt_irrefl _ snaps.2]

/-- A search whose halving comes to an end ends in one of these ways. -/
theorem find_of_halts (inside : box.Contains (Vec.ofReal x)) (acts : Vec.ActsBy A H)
    (halts : ∃ k, (ofReal box x d g mu0).Halts A k) :
    ∃ a : ℝ, 0 < a ∧ a ≤ 1 ∧ EndsAt box x d g H mu0 a ∧
      ∃ enough, ∀ fuel, enough ≤ fuel → ∀ hs,
        ((ofReal box x d g mu0).find fuel hs).eval (answeredBy A) =
          some ⟨a, Vec.ofReal (box.path x d a), Vec.ofReal (x + box.path x d a)⟩ := by
  classical
  have first : IsLeast {k | (ofReal box x d g mu0).Halts A k} (Nat.find halts) := Nat.isLeast_find halts
  obtain ⟨a, positive, atMost, ends, length⟩ := exists_length inside acts first
  refine ⟨a, positive, atMost, ends, Nat.find halts + 1, fun fuel enough hs => ?_⟩
  rw [eval_find first enough hs length, step_eq_path rfl inside rfl, land_path rfl inside]
  rfl

/-! ## Halving comes to an end -/

/-- If the full step decreases the model, the search ends with it at once. -/
theorem find_of_decreases (inside : box.Contains (Vec.ofReal x)) (acts : Vec.ActsBy A H)
    (decreases : box.Decreases x d g H mu0 1) {fuel : Nat} (enough : 0 < fuel) (hs : Vec EReal n) :
    ((ofReal box x d g mu0).find fuel hs).eval (answeredBy A) =
      some ⟨((1 : ℝ) : EReal), Vec.ofReal (box.path x d 1), Vec.ofReal (x + box.path x d 1)⟩ := by
  have halts : (ofReal box x d g mu0).Halts A 0 := by
    intro _
    rw [pow_zero]
    exact (passes_iff inside acts 1).2 decreases
  have length : ((1 : ℝ) : EReal) =
      if ((0.5 ^ 0 : ℝ) : EReal) < 1 ∧ ((0.5 ^ 0 : ℝ) : EReal) < (ofReal box x d g mu0).shortest
      then (ofReal box x d g mu0).shortest else ((0.5 ^ 0 : ℝ) : EReal) := by
    rw [pow_zero]
    exact (if_neg fun snaps => lt_irrefl _ snaps.1).symm
  rw [eval_find ⟨halts, fun _ _ => Nat.zero_le _⟩ enough hs length, step_eq_path rfl inside rfl,
    land_path rfl inside]
  rfl

/-- Along a path that meets no bound, small lengths decrease a model with a negative slope: the curvature loses
against the slope once it is halved often enough. -/
theorem exists_decreases (H : (Fin n → ℝ) →ₗ[ℝ] Fin n → ℝ) (inside : box.Contains (Vec.ofReal x))
    (never : ∀ i t, ¬ box.Meets x d i t) (less : mu0 < 1) (descends : g ⬝ᵥ box.movable x d < 0) :
    ∃ k : ℕ, box.Decreases x d g H mu0 (0.5 ^ k) := by
  have gap : 0 < (mu0 - 1) * (g ⬝ᵥ box.movable x d) := mul_pos_of_neg_of_neg (by linarith) descends
  have scale : 0 < |box.movable x d ⬝ᵥ H (box.movable x d)| + 1 := by positivity
  obtain ⟨k, small⟩ := exists_pow_lt_of_lt_one (div_pos gap scale) (by norm_num : (0.5 : ℝ) < 1)
  rw [lt_div_iff₀ scale] at small
  have positive : (0 : ℝ) < 0.5 ^ k := by positivity
  refine ⟨k, ?_⟩
  have before : ((0.5 ^ k : ℝ) : EReal) ≤ (box.breakpoints (Vec.ofReal x) (Vec.ofReal d)).min :=
    Box.breakpoints_min_of_never inside never ▸ le_top
  rw [Box.decreases_iff, Box.path_eq_smul inside positive.le before]
  simp only [map_smul, smul_dotProduct, dotProduct_smul, smul_eq_mul]
  have bounded := mul_le_mul_of_nonneg_left (le_abs_self (box.movable x d ⬝ᵥ H (box.movable x d)))
    positive.le
  have total : 0.5 ^ k * (box.movable x d ⬝ᵥ H (box.movable x d)) ≤
      2 * ((mu0 - 1) * (g ⬝ᵥ box.movable x d)) := by linarith
  have scaled := mul_le_mul_of_nonneg_left total positive.le
  linarith

/-- Halving comes to an end: a path with a breakpoint is not walked back beyond the first one, and along any
other a small length passes the test. -/
theorem exists_halts (H : (Fin n → ℝ) →ₗ[ℝ] Fin n → ℝ) (inside : box.Contains (Vec.ofReal x))
    (acts : Vec.ActsBy A H) (less : mu0 < 1) (descends : g ⬝ᵥ box.movable x d < 0) :
    ∃ k, (ofReal box x d g mu0).Halts A k := by
  rcases shortest_ofReal inside d g mu0 with ⟨-, never⟩ | ⟨b, near, least⟩
  · obtain ⟨k, decreases⟩ := exists_decreases H inside never less descends
    exact ⟨k, fun _ => (passes_iff inside acts _).2 decreases⟩
  · obtain ⟨i, meets⟩ := least.1
    obtain ⟨k, small⟩ := exists_pow_lt_of_lt_one meets.pos (by norm_num : (0.5 : ℝ) < 1)
    refine ⟨k, fun above => ?_⟩
    rw [near, EReal.coe_lt_coe_iff] at above
    exact absurd above small.not_gt

/-- **The search ends.** Along a direction that descends in the variables that are not blocked, and for any
linear operator, the search ends whatever the last product has left, with a length between zero and one
that is distinguished in one of three ways, with the step on the projected path at this length, and with
the point that the step leads to, which is in the box. -/
theorem find_finishes (H : (Fin n → ℝ) →ₗ[ℝ] Fin n → ℝ) (inside : box.Contains (Vec.ofReal x))
    (acts : Vec.ActsBy A H) (less : mu0 < 1) (descends : g ⬝ᵥ box.movable x d < 0) :
    ∃ (a : ℝ) (s : Fin n → ℝ), 0 < a ∧ a ≤ 1 ∧ EndsAt box x d g H mu0 a ∧
      Vec.ofReal (x + s) = box.project (Vec.ofReal (x + a • d)) ∧
      box.Contains (Vec.ofReal (x + s)) ∧
      ∃ enough, ∀ fuel, enough ≤ fuel → ∀ hs,
        ((ofReal box x d g mu0).find fuel hs).eval (answeredBy A) =
          some ⟨a, Vec.ofReal s, Vec.ofReal (x + s)⟩ := by
  obtain ⟨a, positive, atMost, ends, found⟩ :=
    find_of_halts inside acts (exists_halts H inside acts less descends)
  exact ⟨a, box.path x d a, positive, atMost, ends, Box.ofReal_add_path inside a,
    Box.contains_path inside a, found⟩

end End

/-! ### A search from a corner -/

/-- The square with the side one half. -/
noncomputable def halfSquare : Box EReal 2 :=
  .ofReal 0 (fun _ => 0.5) fun _ => by norm_num

/-- From the corner at zero, the second variable is pressed against its bound and the first is free to
move. -/
theorem find_finishes_halfSquare :
    halfSquare.Contains (Vec.ofReal 0) ∧ ![-1, 3] ⬝ᵥ halfSquare.movable 0 ![1, -1] < 0 ∧
      ∃ (a : ℝ) (s : Fin 2 → ℝ), 0 < a ∧ a ≤ 1 ∧
        EndsAt halfSquare 0 ![1, -1] ![-1, 3] id (1 / 4) a ∧
        Vec.ofReal (0 + s) = halfSquare.project (Vec.ofReal (0 + a • ![1, -1])) ∧
        halfSquare.Contains (Vec.ofReal (0 + s)) ∧
        ∃ enough, ∀ fuel, enough ≤ fuel → ∀ hs,
          ((ofReal halfSquare 0 ![1, -1] ![-1, 3] (1 / 4)).find fuel hs).eval
              (answeredBy (Vec.realMap id)) =
            some ⟨a, Vec.ofReal s, Vec.ofReal (0 + s)⟩ := by
  have inside : halfSquare.Contains (Vec.ofReal 0) := by
    rw [halfSquare, Box.contains_ofReal]
    intro i
    norm_num
  have descends : ![-1, 3] ⬝ᵥ halfSquare.movable 0 ![1, -1] < 0 := by
    simp [dotProduct, Fin.sum_univ_two, Box.movable, Box.Blocks, halfSquare, Box.ofReal]
    norm_num
  exact ⟨inside, descends, find_finishes LinearMap.id inside (Vec.realMap_ofReal id)
    (by norm_num) descends⟩

end ProjectedSearch

end BoxNewton
