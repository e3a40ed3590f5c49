import Mathlib
import BoxNewton.CauchyPoint
import BoxNewton.Proofs.Evaluation
import BoxNewton.Proofs.ExactNumbers

/-!
# What the search for the Cauchy point finds

What one pass of either loop comes to does not depend on the arithmetic (`CauchySearch.eval_shrink_succ`,
`CauchySearch.eval_extend_succ`).

The search overwrites its step and its product with every candidate, does not measure candidates that
are too long, and goes back to a length that it has held. None of this shows in what it finds. In exact
arithmetic the length is positive and admissible, the step is the one on the projected path at this
very length and the product belongs to this very step (`CauchySearch.find_found`).

For real data this says that the step leads to `P(x - a g)`, fits, decreases the model by the fraction
of its slope and ends in the box (`CauchySearch.find_isCauchyStep`). The Hessian may be any map of real
vectors, linear or not.
-/

set_option autoImplicit false

namespace BoxNewton

namespace CauchySearch

variable {α : Type} [Scalar α] {n : Nat}

/-- Holds when the step at a length fits and passes the stricter of the two tests. -/
def AdmitsStrictly (search : CauchySearch α n) (A : Vec α n → Vec α n) (length : α) : Prop :=
  (search.step length).norm ≤ search.maxNorm ∧
    ¬ (ModelValue.ofImage search.g (search.step length) (A (search.step length))).IsInsufficient
      search.mu0

/-- Holds when a search divides the length that it starts from. -/
def Divides (search : CauchySearch α n) (A : Vec α n → Vec α n) (length : α) : Prop :=
  search.maxNorm < (search.step length).norm ∨ (ModelValue.ofImage search.g (search.step length)
    (A (search.step length))).IsInsufficient search.mu0

/-! ## One pass of each loop -/

section Passes

/-- One division. -/
theorem eval_shrink_succ (search : CauchySearch α n) (A : Vec α n → Vec α n) (fuel : Nat)
    (previous : α) (hs : Vec α n) {length : α} (divide : previous / search.sigma = length) :
    ∃ left,
      (length < Scalar.tinyStep →
        (search.shrink (fuel + 1) previous hs).eval (answeredBy A) = some (.underflow length left)) ∧
      (¬ length < Scalar.tinyStep → search.AdmitsStrictly A length →
        (search.shrink (fuel + 1) previous hs).eval (answeredBy A) =
          some (.found length (search.step length) (A (search.step length)))) ∧
      (¬ length < Scalar.tinyStep → ¬ search.AdmitsStrictly A length →
        (search.shrink (fuel + 1) previous hs).eval (answeredBy A) =
          (search.shrink fuel length left).eval (answeredBy A)) := by
  simp only [shrink, divide]
  by_cases fits : (search.step length).norm ≤ search.maxNorm
  · refine ⟨A (search.step length), fun tiny => ?_, fun normal holds => ?_, fun normal fails => ?_⟩
    · simp only [if_pos fits, if_pos tiny, measure, ModelValue.measure, Dialogue.eval_bind,
        eval_request, Dialogue.eval_remark, Dialogue.eval_pure, Option.bind_some]
      rfl
    · simp only [if_pos fits, if_neg normal, measure, ModelValue.measure, Dialogue.eval_bind,
        eval_request, Dialogue.eval_pure, Option.bind_some, decide_eq_true_eq, if_neg holds.2]
      rfl
    · have insufficient := Classical.not_not.1 (not_and.1 fails fits)
      simp only [if_pos fits, if_neg normal, measure, ModelValue.measure, Dialogue.eval_bind,
        eval_request, Dialogue.eval_pure, Option.bind_some, decide_eq_true_eq, if_pos insufficient]
      rfl
  · refine ⟨hs, fun tiny => ?_, fun _ holds => absurd holds.1 fits, fun normal _ => ?_⟩
    · simp only [if_neg fits, if_pos tiny, Dialogue.eval_bind, Dialogue.eval_remark,
        Dialogue.eval_pure, Option.bind_some]
    · simp only [if_neg fits, if_neg normal, Dialogue.eval_bind, Dialogue.eval_pure,
        Option.bind_some, if_true]

/-- One multiplication. -/
theorem eval_extend_succ (search : CauchySearch α n) (A : Vec α n → Vec α n) (lastBreakpoint : α)
    (fuel : Nat) (previous held : α) (hs : Vec α n) {length : α}
    (multiply : previous * search.sigma = length) :
    (previous ≤ lastBreakpoint → (search.step length).norm ≤ search.maxNorm →
      (search.extend lastBreakpoint (fuel + 1) previous held hs).eval (answeredBy A) =
        (search.extend lastBreakpoint fuel length
          (if (ModelValue.ofImage search.g (search.step length)
            (A (search.step length))).IsSufficient search.mu0 then length else held)
          (A (search.step length))).eval (answeredBy A)) ∧
    (¬ (previous ≤ lastBreakpoint ∧ (search.step length).norm ≤ search.maxNorm) →
      (search.extend lastBreakpoint (fuel + 1) previous held hs).eval (answeredBy A) =
        some (held, hs)) := by
  simp only [extend, multiply]
  refine ⟨fun within fits => ?_, fun ends => ?_⟩
  · simp only [if_pos within, if_pos fits, measure, ModelValue.measure, Dialogue.eval_bind,
      eval_request, Dialogue.eval_pure, Option.bind_some]
    rfl
  · by_cases within : previous ≤ lastBreakpoint
    · rw [if_pos within, if_neg (not_and.1 ends within)]
      rfl
    · rw [if_neg within]
      rfl

@[simp] theorem eval_announce (A : Vec α n → Vec α n) (outcome : CauchyOutcome α n) :
    (announce outcome).eval (answeredBy A) = some outcome := by
  cases outcome <;> rfl

variable {search : CauchySearch α n} {A : Vec α n → Vec α n} {length : α}

/-- A search divides a length that fails, if lengths and limit are numbers. -/
theorem divides_iff [Scalar.LawfulOrder α] (norm : Scalar.IsNumber (search.step length).norm)
    (limit : Scalar.IsNumber search.maxNorm) :
    search.Divides A length ↔ ¬ search.AdmitsStrictly A length := by
  rw [Divides, AdmitsStrictly, not_and_or, Classical.not_not, Scalar.LawfulOrder.lt_iff]
  have total := Scalar.LawfulOrder.le_total limit norm
  exact or_congr_left ⟨And.right, fun long => ⟨total.resolve_right long, long⟩⟩

/-- A search that divides its first length ends where division does. -/
theorem eval_find_of_divides (divides : search.Divides A length) (fuel : Nat) (hs : Vec α n) :
    (search.find fuel length hs).eval (answeredBy A) =
      (search.shrink fuel length (A (search.step length))).eval (answeredBy A) := by
  rw [Divides] at divides
  simp only [find, measure, ModelValue.measure, Dialogue.eval_bind, eval_request, Option.bind_some,
    Dialogue.eval_pure]
  rw [if_pos divides]
  simp only [Dialogue.eval_bind, Dialogue.eval_remark, Option.bind_some, eval_announce,
    Option.bind_fun_some]
  rfl

/-- Any other search ends with the length that multiplication ends with, if a variable can move. -/
theorem eval_find_of_not_divides (holds : ¬ search.Divides A length) (fuel : Nat) (hs : Vec α n) :
    (search.find fuel length hs).eval (answeredBy A) =
      (if 0 < (search.box.breakpoints search.x search.d).count then
        (search.extend (search.box.breakpoints search.x search.d).max fuel length length
          (A (search.step length))).eval (answeredBy A)
      else some (length, A (search.step length))).map fun out =>
        .found out.1 (search.step out.1) (A (search.step out.1)) := by
  rw [Divides] at holds
  simp only [find, measure, ModelValue.measure, Dialogue.eval_bind, eval_request, Option.bind_some,
    Dialogue.eval_pure]
  rw [if_neg holds, Dialogue.eval_bind, Dialogue.eval_remark, Option.bind_some]
  split
  · simp only [Dialogue.eval_bind, eval_request, eval_announce, Option.bind_some]
    exact Option.map_eq_bind.symm
  · simp only [Dialogue.eval_bind, Dialogue.eval_pure, eval_request, eval_announce, Option.bind_some]
    rfl

end Passes

/-! ## Lengths that are held -/

/-- Holds when the step at a length fits and decreases the model sufficiently. -/
def Admits (search : CauchySearch EReal n) (A : Vec EReal n → Vec EReal n) (length : EReal) : Prop :=
  (search.step length).norm ≤ search.maxNorm ∧
    (ModelValue.ofImage search.g (search.step length) (A (search.step length))).IsSufficient
      search.mu0

section Loops

variable {search : CauchySearch EReal n} {A : Vec EReal n → Vec EReal n} {sigma : ℝ}

/-- Of the two opposite tests the strict one decides for the other. -/
theorem AdmitsStrictly.admits {length : EReal} (holds : search.AdmitsStrictly A length) :
    search.Admits A length :=
  ⟨holds.1, (not_le.1 holds.2).le⟩

theorem divides_iff_not_admitsStrictly {length : EReal} :
    search.Divides A length ↔ ¬ search.AdmitsStrictly A length :=
  divides_iff (Scalar.isNumber _) (Scalar.isNumber _)

variable (A)

/-- A length that the division ends with is admissible. -/
theorem shrink_found (factor : search.sigma = sigma) (scaled : 0 < sigma) :
    ∀ (fuel : Nat) (previous : ℝ) (hs : Vec EReal n) {length : EReal} {s image : Vec EReal n},
      0 < previous →
      (search.shrink fuel previous hs).eval (answeredBy A) = some (.found length s image) →
        ∃ a : ℝ, 0 < a ∧ length = a ∧ s = search.step a ∧ image = A s ∧ search.Admits A a := by
  intro fuel
  induction fuel with
  | zero => exact fun _ _ _ _ _ _ went => by cases went
  | succ fuel ih =>
      intro previous hs length s image positive went
      have divide : (previous : EReal) / search.sigma = ((previous / sigma : ℝ) : EReal) := by
        rw [factor]
        rfl
      have smaller : 0 < previous / sigma := div_pos positive scaled
      obtain ⟨left, underflows, finds, goes⟩ := eval_shrink_succ search A fuel _ hs divide
      by_cases tiny : ((previous / sigma : ℝ) : EReal) < Scalar.tinyStep
      · rw [underflows tiny] at went
        cases went
      · by_cases holds : search.AdmitsStrictly A ((previous / sigma : ℝ) : EReal)
        · rw [finds tiny holds] at went
          cases went
          exact ⟨_, smaller, rfl, rfl, rfl, holds.admits⟩
        · rw [goes tiny holds] at went
          exact ih _ _ smaller went

/-- The length that the multiplication goes back to is admissible, as the first one was. -/
theorem extend_held (factor : search.sigma = sigma) (scaled : 0 < sigma) (lastBreakpoint : EReal) :
    ∀ (fuel : Nat) (previous held : ℝ) (hs : Vec EReal n) {out : EReal × Vec EReal n},
      0 < previous → 0 < held → search.Admits A held →
      (search.extend lastBreakpoint fuel previous held hs).eval (answeredBy A) = some out →
        ∃ a : ℝ, 0 < a ∧ out.1 = a ∧ search.Admits A a := by
  intro fuel
  induction fuel with
  | zero => exact fun _ _ _ _ _ _ _ went => by cases went
  | succ fuel ih =>
      intro previous held hs out positive heldPositive admits went
      have multiply : (previous : EReal) * search.sigma = ((previous * sigma : ℝ) : EReal) := by
        rw [factor]
        rfl
      have larger : 0 < previous * sigma := mul_pos positive scaled
      obtain ⟨goes, stops⟩ := eval_extend_succ search A lastBreakpoint fuel _ (held : EReal) hs multiply
      by_cases further : (previous : EReal) ≤ lastBreakpoint ∧
        (search.step ((previous * sigma : ℝ) : EReal)).norm ≤ search.maxNorm
      · rw [goes further.1 further.2] at went
        split at went
        · rename_i holds
          exact ih _ _ _ larger larger ⟨further.2, holds⟩ went
        · exact ih _ _ _ larger heldPositive admits went
      · rw [stops further] at went
        cases went
        exact ⟨held, heldPositive, rfl, admits⟩

/-- **What is found.** The length is positive and admissible, the step is the one at this length, and
the product is the one with this step. -/
theorem find_found (factor : search.sigma = sigma) (scaled : 0 < sigma) {fuel : Nat} {start : ℝ}
    (positive : 0 < start) {hs : Vec EReal n} {length : EReal} {s image : Vec EReal n}
    (went : (search.find fuel start hs).eval (answeredBy A) = some (.found length s image)) :
    ∃ a : ℝ, 0 < a ∧ length = a ∧ s = search.step a ∧ image = A s ∧ search.Admits A a := by
  by_cases divides : search.Divides A start
  · rw [eval_find_of_divides divides] at went
    exact shrink_found A factor scaled fuel start _ positive went
  · have admits := (Classical.not_not.1 (mt divides_iff_not_admitsStrictly.2 divides)).admits
    rw [eval_find_of_not_divides divides, Option.map_eq_some_iff] at went
    obtain ⟨⟨held, left⟩, extended, found⟩ := went
    cases found
    split at extended
    · obtain ⟨a, heldPositive, rfl, heldAdmits⟩ :=
        extend_held A factor scaled _ fuel start start _ positive positive admits extended
      exact ⟨a, heldPositive, rfl, rfl, rfl, heldAdmits⟩
    · cases extended
      exact ⟨start, positive, rfl, rfl, rfl, admits⟩

/-- A first length beyond the last breakpoint that is admissible is what is found. -/
theorem find_beyond {length : EReal} (fits : (search.step length).norm ≤ search.maxNorm)
    (holds : ¬ (ModelValue.ofImage search.g (search.step length)
      (A (search.step length))).IsInsufficient search.mu0)
    (past : ¬ length ≤ (search.box.breakpoints search.x search.d).max) (fuel : Nat)
    (hs : Vec EReal n) : (search.find (fuel + 1) length hs).eval (answeredBy A) =
      some (.found length (search.step length) (A (search.step length))) := by
  have multiplies : ¬ search.Divides A length := not_or.2 ⟨not_lt.2 fits, holds⟩
  rw [eval_find_of_not_divides multiplies]
  split
  · rw [(eval_extend_succ search A _ fuel length length _ rfl).2 fun further => past further.1]
    rfl
  · rfl

end Loops

/-! ## Real data -/

/-- The search from a real point along the steepest descent of a real gradient. -/
noncomputable def ofReal (box : Box EReal n) (x g : Fin n → ℝ) (mu0 : ℝ) (maxNorm : EReal)
    (sigma : ℝ) : CauchySearch EReal n where
  box
  x := Vec.ofReal x
  g := Vec.ofReal g
  d := -Vec.ofReal g
  mu0
  maxNorm
  sigma

theorem sigma_ofReal (box : Box EReal n) (x g : Fin n → ℝ) (mu0 : ℝ) (maxNorm : EReal) (sigma : ℝ) :
    (ofReal box x g mu0 maxNorm sigma).sigma = sigma := rfl

/-- A step of the projected steepest descent path that fits and decreases the model. -/
structure IsCauchyStep (box : Box EReal n) (x g : Fin n → ℝ) (H : (Fin n → ℝ) → Fin n → ℝ)
    (mu0 : ℝ) (maxNorm : EReal) (length : ℝ) (s : Fin n → ℝ) : Prop where
  length_pos : 0 < length
  path : Vec.ofReal (x + s) = box.project (Vec.ofReal (x - length • g))
  feasible : box.Contains (Vec.ofReal (x + s))
  fits : ((√(s ⬝ᵥ s) : ℝ) : EReal) ≤ maxNorm
  decreases : 1 / 2 * (s ⬝ᵥ H s) + g ⬝ᵥ s ≤ mu0 * (g ⬝ᵥ s)

/-- **The Cauchy step.** From a point of the box, whatever the search starts from and whatever the last
product left, a search that succeeds returns a real step with these properties, the length that it
belongs to and the product with it. -/
theorem find_isCauchyStep {box : Box EReal n} {x g : Fin n → ℝ}
    (inside : box.Contains (Vec.ofReal x)) (H : (Fin n → ℝ) → Fin n → ℝ) {mu0 sigma start : ℝ}
    {mu1 radius : EReal} (scaled : 1 < sigma) (positive : 0 < start) {fuel : Nat} {hs : Vec EReal n}
    {length : EReal} {step image : Vec EReal n}
    (found : ((ofReal box x g mu0 (mu1 * radius) sigma).find fuel start hs).eval
      (answeredBy (Vec.realMap H)) = some (.found length step image)) :
    ∃ (a : ℝ) (s : Fin n → ℝ), length = a ∧ step = Vec.ofReal s ∧ image = Vec.ofReal (H s) ∧
      IsCauchyStep box x g H mu0 (mu1 * radius) a s := by
  obtain ⟨a, lengthPositive, rfl, rfl, rfl, fits, decreases⟩ :=
    find_found (Vec.realMap H) (sigma_ofReal ..) (one_pos.trans scaled) positive found
  obtain ⟨s, stepped, lands⟩ := Box.exists_projectedStep inside (-g) a
  have same : (ofReal box x g mu0 (mu1 * radius) sigma).step a = Vec.ofReal s := by
    rw [← stepped, ← Vec.ofReal_neg]
    rfl
  rw [same] at fits decreases ⊢
  refine ⟨a, s, rfl, rfl, Vec.realMap_ofReal H s, lengthPositive, ?_, lands, ?_, ?_⟩
  · rw [← Box.project_of_projectedStep stepped, smul_neg, sub_eq_add_neg]
  · exact (Vec.norm_ofReal s).ge.trans fits
  · rw [Vec.realMap_ofReal] at decreases
    exact (ModelValue.isSufficient_ofReal g s (H s) mu0).1 decreases

/-! ## A search from both sides

A model that is too large from some length on: the search that starts beyond divides its length, and the
one that starts before tries longer ones and has to go back. Both come to the same step. -/

section Steep

/-- Entries times a hundred, to the third power. -/
def cubes (v : Fin 1 → ℝ) : Fin 1 → ℝ := fun i => 100.0 * v i ^ 3

theorem cubes_neg (b : ℝ) : (cubes fun _ => -b) = fun _ => -(100 * b ^ 3) := by
  funext i
  have hundred : (100.0 : ℝ) = 100 := by norm_num
  rw [cubes, hundred]
  ring

theorem steep_ordered : ∀ _ : Fin 1, (-1 : ℝ) ≤ 1 := fun _ => by norm_num

/-- The search from zero along a slope of one, between minus one and one. The model falls up to the
length `1 / 10` and is far too large at `1`. -/
noncomputable def steep : CauchySearch EReal 1 :=
  ofReal (.ofReal (fun _ => -1) (fun _ => 1) steep_ordered) (fun _ => 0) (fun _ => 1) 0.25
    (1 * 1) 10.0

theorem steep_mu0 : steep.mu0 = ((1 / 4 : ℝ) : EReal) := by
  change ((0.25 : ℝ) : EReal) = _
  norm_num

theorem steep_sigma : steep.sigma = ((10 : ℝ) : EReal) := by
  change ((10.0 : ℝ) : EReal) = _
  norm_num

theorem steep_step {a b : ℝ} (reaches : min (max (-a) (-1)) 1 = -b) :
    steep.step (a : EReal) = Vec.ofReal fun _ => -b := by
  have path : steep.step (a : EReal) =
      (Box.ofReal (fun _ => -1) (fun _ => 1) steep_ordered).projectedStep
        (Vec.ofReal fun _ : Fin 1 => 0) (-Vec.ofReal fun _ => 1) (a : EReal) := rfl
  rw [path, Vec.ofReal_neg, Box.projectedStep_ofReal, ← reaches]
  congr 1
  funext i
  simp

theorem steep_model (b : ℝ) :
    (ModelValue.ofImage steep.g (Vec.ofReal fun _ => -b) (Vec.ofReal (cubes fun _ => -b))).value =
        ((50 * b ^ 4 - b : ℝ) : EReal) ∧
      steep.mu0 * (ModelValue.ofImage steep.g (Vec.ofReal fun _ => -b)
        (Vec.ofReal (cubes fun _ => -b))).slope = ((-(1 / 4 * b) : ℝ) : EReal) := by
  have value : 1 / 2 * ((fun _ => -b) ⬝ᵥ cubes fun _ => -b) + (fun _ : Fin 1 => -b) ⬝ᵥ (fun _ => 1) =
      50 * b ^ 4 - b := by
    rw [cubes_neg]
    simp only [dotProduct, Finset.univ_unique, Finset.sum_singleton]
    ring
  have slope : 1 / 4 * ((fun _ : Fin 1 => -b) ⬝ᵥ (fun _ => 1)) = -(1 / 4 * b) := by
    simp [dotProduct]
  rw [steep_mu0]
  change (ModelValue.ofImage (Vec.ofReal fun _ => 1) _ _).value = _ ∧
    _ * (ModelValue.ofImage (Vec.ofReal fun _ => 1) _ _).slope = _
  rw [ModelValue.ofImage_ofReal, value, ← slope, EReal.coe_mul]
  exact ⟨rfl, rfl⟩

theorem steep_insufficient (b : ℝ) :
    (ModelValue.ofImage steep.g (Vec.ofReal fun _ => -b)
      (Vec.ofReal (cubes fun _ => -b))).IsInsufficient steep.mu0 ↔
        -(1 / 4 * b) ≤ 50 * b ^ 4 - b := by
  rw [ModelValue.IsInsufficient, (steep_model b).1, (steep_model b).2, EReal.coe_le_coe_iff]

theorem steep_sufficient (b : ℝ) :
    (ModelValue.ofImage steep.g (Vec.ofReal fun _ => -b)
      (Vec.ofReal (cubes fun _ => -b))).IsSufficient steep.mu0 ↔
        50 * b ^ 4 - b ≤ -(1 / 4 * b) := by
  rw [ModelValue.IsSufficient, (steep_model b).1, (steep_model b).2, EReal.coe_le_coe_iff]

theorem steep_fits (b : ℝ) (short : |b| ≤ 1) :
    (Vec.ofReal fun _ : Fin 1 => -b).norm ≤ steep.maxNorm := by
  change _ ≤ (1 * 1 : EReal)
  rw [Vec.norm_ofReal, one_mul, ← EReal.coe_one, EReal.coe_le_coe_iff]
  simpa [dotProduct, Real.sqrt_mul_self_eq_abs] using short

/-- From the length one the search divides once. -/
theorem steep_shrinks (hs : Vec EReal 1) :
    (steep.find 1 ((1 : ℝ) : EReal) hs).eval (answeredBy (Vec.realMap cubes)) =
      some (.found ((1 / 10 : ℝ) : EReal) (Vec.ofReal fun _ => -(1 / 10))
        (Vec.ofReal (cubes fun _ => -(1 / 10)))) := by
  have far : steep.step ((1 : ℝ) : EReal) = Vec.ofReal fun _ => -1 := steep_step (by norm_num)
  have near : steep.step ((1 / 10 : ℝ) : EReal) = Vec.ofReal fun _ => -(1 / 10) :=
    steep_step (by norm_num)
  have divide : ((1 : ℝ) : EReal) / steep.sigma = ((1 / 10 : ℝ) : EReal) := by
    rw [steep_sigma, ← EReal.coe_div]
  have fails := (steep_insufficient 1).2 (by norm_num)
  have holds := mt (steep_insufficient (1 / 10)).1 (by norm_num)
  have fits := steep_fits (1 / 10) (by norm_num [abs_of_pos])
  have normal : ¬ ((1 / 10 : ℝ) : EReal) < Scalar.tinyStep := by
    change ¬ ((1 / 10 : ℝ) : EReal) < ((2.2227587494850775e-162 : ℝ) : EReal)
    rw [EReal.coe_lt_coe_iff]
    norm_num
  have divides : steep.Divides (Vec.realMap cubes) ((1 : ℝ) : EReal) := by
    rw [Divides, far, Vec.realMap_ofReal]
    exact .inr fails
  have admits : steep.AdmitsStrictly (Vec.realMap cubes) ((1 / 10 : ℝ) : EReal) := by
    rw [AdmitsStrictly, near, Vec.realMap_ofReal]
    exact ⟨fits, holds⟩
  obtain ⟨left, -, finds, -⟩ := eval_shrink_succ steep (Vec.realMap cubes) 0 _
    (Vec.realMap cubes (steep.step ((1 : ℝ) : EReal))) divide
  rw [eval_find_of_divides divides, finds normal admits, near, Vec.realMap_ofReal]

theorem steep_breakpoints :
    steep.box.breakpoints steep.x steep.d = ⟨1, ((1 : ℝ) : EReal), ((1 : ℝ) : EReal)⟩ := by
  have direction : steep.d = Vec.ofReal fun _ => -1 := Vec.ofReal_neg fun _ => 1
  rw [direction]
  refine Box.breakpoints_single zero_le_one ?_
  refine (Box.breakpoint?_ofReal steep_ordered (fun _ => 0) _ _).trans ?_
  norm_num

/-- From the length `1 / 10` the search tries one and ten, and goes back. -/
theorem steep_extends (hs : Vec EReal 1) :
    (steep.find 3 ((1 / 10 : ℝ) : EReal) hs).eval (answeredBy (Vec.realMap cubes)) =
      some (.found ((1 / 10 : ℝ) : EReal) (Vec.ofReal fun _ => -(1 / 10))
        (Vec.ofReal (cubes fun _ => -(1 / 10)))) := by
  have far : steep.step ((1 : ℝ) : EReal) = Vec.ofReal fun _ => -1 := steep_step (by norm_num)
  have farther : steep.step ((10 : ℝ) : EReal) = Vec.ofReal fun _ => -1 := steep_step (by norm_num)
  have near : steep.step ((1 / 10 : ℝ) : EReal) = Vec.ofReal fun _ => -(1 / 10) :=
    steep_step (by norm_num)
  have first : ((1 / 10 : ℝ) : EReal) * steep.sigma = ((1 : ℝ) : EReal) := by
    rw [steep_sigma, ← EReal.coe_mul]
    norm_num
  have second : ((1 : ℝ) : EReal) * steep.sigma = ((10 : ℝ) : EReal) := by
    rw [steep_sigma, ← EReal.coe_mul]
    norm_num
  have fits := steep_fits 1 (by norm_num)
  have short := steep_fits (1 / 10) (by norm_num [abs_of_pos])
  have fails := mt (steep_sufficient 1).1 (by norm_num)
  have holds := mt (steep_insufficient (1 / 10)).1 (by norm_num)
  have before : ((1 / 10 : ℝ) : EReal) ≤ ((1 : ℝ) : EReal) := EReal.coe_le_coe_iff.2 (by norm_num)
  have past : ¬ ((10 : ℝ) : EReal) ≤ ((1 : ℝ) : EReal) := mt EReal.coe_le_coe_iff.1 (by norm_num)
  have multiplies : ¬ steep.Divides (Vec.realMap cubes) ((1 / 10 : ℝ) : EReal) := by
    rw [Divides, near, Vec.realMap_ofReal]
    exact not_or.2 ⟨not_lt.2 short, holds⟩
  have once := fun hs => (eval_extend_succ steep (Vec.realMap cubes) ((1 : ℝ) : EReal) 2 _
    ((1 / 10 : ℝ) : EReal) hs first).1 before (far ▸ fits)
  have twice := fun hs => (eval_extend_succ steep (Vec.realMap cubes) ((1 : ℝ) : EReal) 1 _
    ((1 / 10 : ℝ) : EReal) hs second).1 le_rfl (farther ▸ fits)
  have ends := fun hs => (eval_extend_succ steep (Vec.realMap cubes) ((1 : ℝ) : EReal) 0 _
    ((1 / 10 : ℝ) : EReal) hs rfl).2 fun further => past further.1
  simp only [far, farther, Vec.realMap_ofReal, if_neg fails] at once twice
  rw [eval_find_of_not_divides multiplies, steep_breakpoints, if_pos one_pos, once, twice, ends]
  simp only [Option.map_some, near, Vec.realMap_ofReal]

theorem steep_inside :
    (Box.ofReal (fun _ => -1) (fun _ => 1) steep_ordered).Contains (Vec.ofReal fun _ => 0) :=
  (Box.contains_ofReal steep_ordered).2 fun _ => by norm_num

/-- The step that is found from either side is a Cauchy step. -/
theorem steep_isCauchyStep :
    (∃ length step image,
      (steep.find 1 ((1 : ℝ) : EReal) (Vec.zeros 1)).eval (answeredBy (Vec.realMap cubes)) =
        some (.found length step image) ∧
      ∃ (a : ℝ) (s : Fin 1 → ℝ), length = a ∧ step = Vec.ofReal s ∧ image = Vec.ofReal (cubes s) ∧
        IsCauchyStep steep.box (fun _ => 0) (fun _ => 1) cubes 0.25 (1 * 1) a s) ∧
    ∃ length step image,
      (steep.find 3 ((1 / 10 : ℝ) : EReal) (Vec.zeros 1)).eval (answeredBy (Vec.realMap cubes)) =
        some (.found length step image) ∧
      ∃ (a : ℝ) (s : Fin 1 → ℝ), length = a ∧ step = Vec.ofReal s ∧ image = Vec.ofReal (cubes s) ∧
        IsCauchyStep steep.box (fun _ => 0) (fun _ => 1) cubes 0.25 (1 * 1) a s := by
  have scaled : (1 : ℝ) < 10.0 := by norm_num
  have nearby : (0 : ℝ) < 1 / 10 := by norm_num
  constructor
  · have shrinks := steep_shrinks (Vec.zeros 1)
    exact ⟨_, _, _, shrinks, find_isCauchyStep steep_inside cubes scaled one_pos shrinks⟩
  · have extends' := steep_extends (Vec.zeros 1)
    exact ⟨_, _, _, extends', find_isCauchyStep steep_inside cubes scaled nearby extends'⟩

end Steep

end CauchySearch

end BoxNewton
