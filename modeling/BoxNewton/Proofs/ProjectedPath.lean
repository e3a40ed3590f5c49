import Mathlib
import BoxNewton.ProjectedSearch
import BoxNewton.Proofs.PathSteps
import BoxNewton.Proofs.TruncatedDirections

/-!
# What a projected search does to the model

A projected search ends on the path (`ProjectedSearch.find_path`) in one of two ways. Either its step has
passed the test of decrease, or the step length is not above the first breakpoint and the step is taken
untested. A step that has passed the test does not increase a model with a positive definite Hessian.

Up to the first breakpoint the path runs along the direction itself, unless a variable on a bound is
pressed against it from the start (`ProjectedSearch.PressesOutward`); such a variable has no breakpoint
and stays where it is. Without one, an untested step is a part of the direction, since no search goes
beyond the full step, and along a solution of the trust-region subproblem no part increases the model.

So the one way to increase the model is an untested step with a variable pressed outward
(`ProjectedSearch.find_decreases`).
-/

set_option autoImplicit false

namespace BoxNewton

namespace ProjectedSearch

section Terms

variable {α : Type} [Scalar α] {n : Nat}

/-- Holds when the direction presses a variable that is on a bound against it. -/
def PressesOutward (search : ProjectedSearch α n) : Prop :=
  ∃ i : Fin n, (search.d.get i < 0 ∧ search.x.get i ≤ search.box.lower i) ∨
    (0 < search.d.get i ∧ search.box.upper i ≤ search.x.get i)

/-- Holds when a search has ended without a test of its step, at a step length that is not above the
first breakpoint. -/
def EndsUntested (search : ProjectedSearch α n) (found : SearchResult α n) : Prop :=
  ¬ search.shortest < found.length

end Terms

variable {n : Nat}

/-! ## The shortest length -/

/-- A search over real vectors. -/
noncomputable def ofReal (box : Box EReal n) (x d g : Fin n → ℝ) (mu0 : ℝ) :
    ProjectedSearch EReal n where
  box
  x := Vec.ofReal x
  d := Vec.ofReal d
  g := Vec.ofReal g
  mu0 := mu0

variable {box : Box EReal n} {x d g : Fin n → ℝ} {mu0 : ℝ}

/-- The shortest step length is zero or real and not beyond any breakpoint. -/
theorem shortest_cases (search : ProjectedSearch EReal n) :
    search.shortest = 0 ∨ ∃ a : ℝ, search.shortest = a ∧
      search.shortest = (search.box.breakpoints search.x search.d).min := by
  unfold shortest
  dsimp only
  split
  · rename_i finite
    exact .inr ⟨_, (EReal.coe_toReal finite.2.ne finite.1.ne').symm, rfl⟩
  · exact .inl rfl

theorem pressesOutward_ofReal :
    (ofReal box x d g mu0).PressesOutward ↔ ∃ i, box.Blocks x d i := by
  simp [PressesOutward, ofReal, Box.Blocks]

/-- Up to the shortest length the path runs along the direction, if it presses no variable outward. -/
theorem path_of_le_shortest (inside : box.Contains (Vec.ofReal x))
    (free : ¬ (ofReal box x d g mu0).PressesOutward) {a : ℝ} (nonneg : 0 ≤ a)
    (short : (a : EReal) ≤ (ofReal box x d g mu0).shortest) : box.path x d a = a • d := by
  have before : (a : EReal) ≤ (box.breakpoints (Vec.ofReal x) (Vec.ofReal d)).min := by
    rcases shortest_cases (ofReal box x d g mu0) with zero | ⟨_, -, first⟩
    · exact (zero ▸ short).trans (Box.breakpoints_min_nonneg inside)
    · exact first ▸ short
  rw [pressesOutward_ofReal, not_exists] at free
  rw [Box.path_eq_smul inside nonneg before, Box.movable_of_open free]

/-! ## The end of a search -/

/-- Holds when a step at this length has passed the test of decrease. -/
def Passes (search : ProjectedSearch EReal n) (A : Vec EReal n → Vec EReal n) (a : ℝ) : Prop :=
  (ModelValue.ofImage search.g (search.step a) (A (search.step a))).IsSufficient search.mu0

/-- What backtracking keeps of a step length: it is the full one, or half of one that is at most full and
was above the shortest. -/
def IsHalved (search : ProjectedSearch EReal n) (a : ℝ) : Prop :=
  a = 1 ∨ a + a ≤ 1 ∧ search.shortest < ((a + a : ℝ) : EReal)

/-- The step length at the end of the backtracking has passed the test or is not above the shortest. -/
theorem backtrack_ends (search : ProjectedSearch EReal n) (A : Vec EReal n → Vec EReal n) :
    ∀ (fuel : Nat) (length : ℝ) (hs : Vec EReal n) (reached : EReal), 0 < length →
      search.IsHalved length → (search.backtrack fuel length hs).eval (answeredBy A) = some reached →
        ∃ a : ℝ, reached = a ∧ 0 < a ∧ search.IsHalved a ∧
          (search.shortest < (a : EReal) ∧ search.Passes A a ∨ (a : EReal) ≤ search.shortest) := by
  intro fuel
  induction fuel with
  | zero => exact fun _ _ _ _ _ went => by cases went
  | succ fuel ih =>
      intro length hs reached positive halved went
      unfold backtrack at went
      split at went
      · rename_i above
        simp only [ModelValue.measure, Dialogue.eval_bind, eval_request, Option.bind_some,
          Dialogue.eval_pure] at went
        split at went
        · rename_i holds
          cases went
          exact ⟨length, rfl, positive, halved, .inl ⟨above, holds⟩⟩
        · have half : (length : EReal) * (1 / (1 + 1)) = ((length * (1 / (1 + 1)) : ℝ) : EReal) := rfl
          have double : length * (1 / (1 + 1)) + length * (1 / (1 + 1)) = length := by ring
          have short : length ≤ 1 := by
            rcases halved with one | ⟨less, -⟩ <;> linarith
          rw [half] at went
          refine ih _ _ _ (by linarith) (.inr ?_) went
          rw [double]
          exact ⟨short, above⟩
      · rename_i notAbove
        cases went
        exact ⟨length, rfl, positive, halved, .inr (not_lt.1 notAbove)⟩

/-- What a search ends with: a step at a length that has passed the test, or at a length not above the
shortest. The length is never above the full one. -/
theorem find_ends (search : ProjectedSearch EReal n) (A : Vec EReal n → Vec EReal n) {fuel : Nat}
    {hs : Vec EReal n} {found : SearchResult EReal n}
    (went : (search.find fuel hs).eval (answeredBy A) = some found) :
    ∃ a : ℝ, 0 < a ∧ a ≤ 1 ∧ found = ⟨a, search.step a, search.land (search.step a)⟩ ∧
      (search.shortest < (a : EReal) ∧ search.Passes A a ∨ (a : EReal) ≤ search.shortest) := by
  unfold find at went
  simp only [Dialogue.eval_bind, Option.bind_eq_some_iff, Dialogue.eval_remarkWhen,
    Dialogue.eval_remark, Option.bind_some, Dialogue.eval_pure, Option.some.injEq] at went
  obtain ⟨reached, walked, rfl⟩ := went
  obtain ⟨a, rfl, positive, halved, ends⟩ :=
    search.backtrack_ends A fuel 1 hs reached one_pos (.inl rfl) walked
  by_cases snaps : (a : EReal) < 1 ∧ (a : EReal) < search.shortest
  · simp only [snaps, and_self, decide_true, if_true]
    rcases search.shortest_cases with zero | ⟨b, same, -⟩
    · exact absurd (zero ▸ snaps.2) (not_lt.2 (EReal.coe_nonneg.2 positive.le))
    · have beyond : a < b := EReal.coe_lt_coe_iff.1 (same ▸ snaps.2)
      refine ⟨b, positive.trans beyond, ?_, by rw [same], .inr same.ge⟩
      rcases halved with one | ⟨less, double⟩
      · exact absurd snaps.1 (not_lt.2 (EReal.coe_le_coe_iff.2 one.ge))
      · have near : b < a + a := EReal.coe_lt_coe_iff.1 (same ▸ double)
        exact (near.trans_le less).le
  · simp only [snaps, decide_false, Bool.false_eq_true, if_false]
    refine ⟨a, positive, ?_, rfl, ends⟩
    rcases halved with one | ⟨less, -⟩ <;> linarith

section Path

variable {search : ProjectedSearch EReal n} {A : Vec EReal n → Vec EReal n}
  (start : search.x = Vec.ofReal x) (inside : search.box.Contains (Vec.ofReal x))

include start inside

theorem step_eq_path (direction : search.d = Vec.ofReal d) (a : ℝ) :
    search.step a = Vec.ofReal (search.box.path x d a) := by
  rw [step, start, direction, Box.projectedStep_eq_path inside]

theorem land_path (a : ℝ) : search.land (Vec.ofReal (search.box.path x d a)) =
    Vec.ofReal (x + search.box.path x d a) := by
  rw [land, start, Vec.ofReal_add]
  exact Box.project_ofReal (Box.contains_path inside a)

/-- A search along a real direction ends on the path, not beyond the full step. -/
theorem find_path (direction : search.d = Vec.ofReal d) {fuel : Nat} {hs : Vec EReal n}
    {found : SearchResult EReal n} (went : (search.find fuel hs).eval (answeredBy A) = some found) :
    ∃ a : ℝ, 0 < a ∧ a ≤ 1 ∧ found = ⟨a, Vec.ofReal (search.box.path x d a),
        Vec.ofReal (x + search.box.path x d a)⟩ ∧
      (search.shortest < (a : EReal) ∧ search.Passes A a ∨ (a : EReal) ≤ search.shortest) := by
  obtain ⟨a, positive, full, rfl, ends⟩ := search.find_ends A went
  refine ⟨a, positive, full, ?_, ends⟩
  rw [step_eq_path start inside direction, land_path start inside]

end Path

/-! ## The model along the path -/

/-- A step that has passed the test does not increase the model. -/
theorem model_nonpos_of_sufficient {q slope c mu0 : ℝ} (curved : 0 ≤ c) (value : q = c + slope)
    (pos : 0 < mu0) (less : mu0 < 1) (passes : q ≤ mu0 * slope) : q ≤ 0 := by
  rcases le_total slope 0 with down | up
  · exact passes.trans (mul_nonpos_of_nonneg_of_nonpos pos.le down)
  · nlinarith

/-- A part of a solution of the subproblem does not increase the model. -/
theorem model_smul_nonpos (H : Curvature n) (descends : d ⬝ᵥ H d ≤ (-g) ⬝ᵥ d) {a : ℝ} (nonneg : 0 ≤ a)
    (full : a ≤ 1) : 1 / 2 * ((a • d) ⬝ᵥ H (a • d)) + (a • d) ⬝ᵥ g ≤ 0 := by
  have curved := H.nonneg d
  rw [neg_dotProduct, dotProduct_comm g d] at descends
  simp only [map_smul, smul_dotProduct, dotProduct_smul, smul_eq_mul]
  nlinarith [mul_nonneg nonneg (sub_nonneg.2 descends), mul_nonneg nonneg curved,
    mul_nonneg (mul_nonneg nonneg (sub_nonneg.2 full)) curved]

/-- **The model along the path.** A search along a solution of the subproblem ends at a real point of
the box. The model does not increase, unless the step is untested and a variable is pressed
outward. -/
theorem find_decreases (H : Curvature n) (descends : d ⬝ᵥ H d ≤ (-g) ⬝ᵥ d)
    (inside : box.Contains (Vec.ofReal x)) (pos : 0 < mu0) (less : mu0 < 1) {fuel : Nat}
    {hs : Vec EReal n} {found : SearchResult EReal n}
    (went : ((ofReal box x d g mu0).find fuel hs).eval (answeredBy H.answer) = some found) :
    ∃ p : Fin n → ℝ, found.step = Vec.ofReal p ∧ found.point = Vec.ofReal (x + p) ∧
      box.Contains (Vec.ofReal (x + p)) ∧
      (1 / 2 * (p ⬝ᵥ H p) + p ⬝ᵥ g ≤ 0 ∨ (ofReal box x d g mu0).EndsUntested found ∧
        (ofReal box x d g mu0).PressesOutward) := by
  obtain ⟨a, positive, full, rfl, ends⟩ := find_path rfl inside rfl went
  refine ⟨box.path x d a, rfl, rfl, Box.contains_path inside a, ?_⟩
  rcases ends with ⟨-, passes⟩ | short
  · left
    rw [Passes, step_eq_path rfl inside rfl, H.answer_ofReal] at passes
    have sufficient := (ModelValue.isSufficient_ofReal g _ _ mu0).1 passes
    change 1 / 2 * (box.path x d a ⬝ᵥ H (box.path x d a)) + g ⬝ᵥ box.path x d a ≤
      mu0 * (g ⬝ᵥ box.path x d a) at sufficient
    rw [dotProduct_comm g] at sufficient
    exact model_nonpos_of_sufficient (by linarith [H.nonneg (box.path x d a)]) rfl pos less sufficient
  · by_cases outward : (ofReal box x d g mu0).PressesOutward
    · exact .inr ⟨not_lt.2 short, outward⟩
    · left
      rw [path_of_le_shortest inside outward positive.le short]
      exact model_smul_nonpos H descends positive.le full

end ProjectedSearch

end BoxNewton
