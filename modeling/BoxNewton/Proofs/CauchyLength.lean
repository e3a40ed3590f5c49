import Mathlib
import BoxNewton.Proofs.CauchyStep
import BoxNewton.Proofs.PathSteps

/-!
# The length that a search for the Cauchy point ends with

A first length that fails is divided until the step holds or the length is below what a search works with
(`CauchySearch.ShrinksTo`). One that holds is multiplied until the path does not change any more or the
next step is too long (`CauchySearch.ExtendsTo`), over candidates that do not decrease the model, and the
longest that did is taken. Either way the least number of factors at which this happens decides what the
search returns (`CauchySearch.eval_shrink`, `CauchySearch.eval_extend`).

For real data both ways end (`CauchySearch.find_longest`). That multiplication may stop where it does is a
fact about the path: a variable never turns back, so beyond a step that is too long every step is, and
after the last breakpoint all steps are the same (`CauchySearch.admissible_beyond`). The Hessian may be any
map, and the model may hold at a length, fail at longer ones and hold again.
-/

set_option autoImplicit false

namespace BoxNewton

namespace CauchySearch

variable {n : Nat}

/-! ## Dividing -/

section Shrink

variable {search : CauchySearch EReal n} {A : Vec EReal n → Vec EReal n} {sigma start : ℝ}

/-- Dividing so many times ends: the length is below what a search works with, or it holds. -/
def ShrinksTo (search : CauchySearch EReal n) (A : Vec EReal n → Vec EReal n) (sigma start : ℝ)
    (k : ℕ) : Prop :=
  0 < k ∧ (((start / sigma ^ k : ℝ) : EReal) < Scalar.tinyStep ∨
    search.AdmitsStrictly A ((start / sigma ^ k : ℝ) : EReal))

/-- Division ends where it first can. A length below what a search works with is given up, whether its
step holds or not. -/
theorem eval_shrink (factor : search.sigma = sigma) {k : ℕ}
    (first : IsLeast {k | search.ShrinksTo A sigma start k} k) :
    ∀ (fuel j : Nat) (hs : Vec EReal n), j < k → k ≤ j + fuel →
      ∃ image, (search.shrink fuel ((start / sigma ^ j : ℝ) : EReal) hs).eval (answeredBy A) =
        some (if ((start / sigma ^ k : ℝ) : EReal) < Scalar.tinyStep
          then .underflow ((start / sigma ^ k : ℝ) : EReal) image
          else .found ((start / sigma ^ k : ℝ) : EReal)
            (search.step ((start / sigma ^ k : ℝ) : EReal))
            (A (search.step ((start / sigma ^ k : ℝ) : EReal)))) := by
  intro fuel
  induction fuel with
  | zero => exact fun j _ before enough => absurd enough before.not_ge
  | succ fuel ih =>
      intro j hs before enough
      have divide : ((start / sigma ^ j : ℝ) : EReal) / search.sigma =
          ((start / sigma ^ (j + 1) : ℝ) : EReal) := by
        rw [factor, pow_succ, ← div_div]
        rfl
      obtain ⟨left, underflows, finds, goes⟩ := eval_shrink_succ search A fuel _ hs divide
      rcases Nat.lt_or_eq_of_le (Nat.succ_le_of_lt before) with early | rfl
      · have fails : ¬ search.ShrinksTo A sigma start (j + 1) := fun ends =>
          (first.2 ends).not_gt early
        rw [ShrinksTo, not_and, not_or] at fails
        obtain ⟨normal, fails⟩ := fails (Nat.succ_pos j)
        rw [goes normal fails]
        exact ih (j + 1) left early (by omega)
      · refine ⟨left, ?_⟩
        by_cases tiny : ((start / sigma ^ (j + 1) : ℝ) : EReal) < Scalar.tinyStep
        · rw [underflows tiny, if_pos tiny]
        · rw [finds tiny (first.1.2.resolve_left tiny), if_neg tiny]

/-- Division leads below what a search works with. -/
theorem exists_quotient_lt (scaled : 1 < sigma) (positive : 0 < start) :
    ∃ k : ℕ, ((start / sigma ^ (k + 1) : ℝ) : EReal) < Scalar.tinyStep := by
  have tiny : (0 : ℝ) < 2.2227587494850775e-162 := by norm_num
  obtain ⟨k, beyond⟩ := pow_unbounded_of_one_lt (start / 2.2227587494850775e-162) scaled
  rw [div_lt_iff₀ tiny] at beyond
  have power : 0 < sigma ^ k := pow_pos (one_pos.trans scaled) k
  have below : start / sigma ^ (k + 1) < 2.2227587494850775e-162 := by
    rw [div_lt_iff₀' (pow_pos (one_pos.trans scaled) _), pow_succ]
    nlinarith
  exact ⟨k, EReal.coe_lt_coe_iff.2 below⟩

/-- Division comes to an end: below what a search works with, at the latest. -/
theorem exists_shrinksTo (search : CauchySearch EReal n) (A : Vec EReal n → Vec EReal n)
    (scaled : 1 < sigma) (positive : 0 < start) : ∃ k, search.ShrinksTo A sigma start k := by
  obtain ⟨k, below⟩ := exists_quotient_lt scaled positive
  exact ⟨k + 1, Nat.succ_pos k, .inl below⟩

end Shrink

/-! ## Multiplying -/

section Extend

variable {search : CauchySearch EReal n} {A : Vec EReal n → Vec EReal n} {sigma start : ℝ}

theorem multiplied_pos (scaled : 1 < sigma) (positive : 0 < start) (j : ℕ) : 0 < start * sigma ^ j :=
  mul_pos positive (pow_pos (one_pos.trans scaled) j)

theorem multiplied_mono (scaled : 1 < sigma) (positive : 0 < start) {i j : ℕ} (less : i ≤ j) :
    start * sigma ^ i ≤ start * sigma ^ j :=
  mul_le_mul_of_nonneg_left (pow_le_pow_right₀ scaled.le less) positive.le

/-- Multiplication leads beyond any length. -/
theorem exists_lt_multiplied (scaled : 1 < sigma) (positive : 0 < start) (c : ℝ) :
    ∃ j : ℕ, c < start * sigma ^ j := by
  obtain ⟨j, beyond⟩ := pow_unbounded_of_one_lt (c / start) scaled
  exact ⟨j, by rwa [div_lt_iff₀' positive] at beyond⟩

/-- Multiplying so many times ends: the path does not change any more, or the next step does not fit. -/
def ExtendsTo (search : CauchySearch EReal n) (lastBreakpoint : EReal) (sigma start : ℝ) (j : ℕ) :
    Prop :=
  lastBreakpoint < ((start * sigma ^ j : ℝ) : EReal) ∨
    search.maxNorm < (search.step ((start * sigma ^ (j + 1) : ℝ) : EReal)).norm

/-- Multiplication ends where it first can, and goes back to the longest of the lengths up to there that
are admissible. -/
theorem eval_extend (factor : search.sigma = sigma) {lastBreakpoint : EReal} {J k : ℕ}
    (first : IsLeast {j | search.ExtendsTo lastBreakpoint sigma start j} J)
    (longest : IsGreatest {i | i ≤ J ∧ search.Admits A ((start * sigma ^ i : ℝ) : EReal)} k) :
    ∀ (fuel j i : Nat) (hs : Vec EReal n), j ≤ J → J < j + fuel →
      IsGreatest {i | i ≤ j ∧ search.Admits A ((start * sigma ^ i : ℝ) : EReal)} i →
      ∃ left, (search.extend lastBreakpoint fuel ((start * sigma ^ j : ℝ) : EReal)
        ((start * sigma ^ i : ℝ) : EReal) hs).eval (answeredBy A) =
          some (((start * sigma ^ k : ℝ) : EReal), left) := by
  intro fuel
  induction fuel with
  | zero => exact fun j _ _ before enough => absurd enough before.not_gt
  | succ fuel ih =>
      intro j i hs before enough held
      have multiply : ((start * sigma ^ j : ℝ) : EReal) * search.sigma =
          ((start * sigma ^ (j + 1) : ℝ) : EReal) := by
        rw [factor, pow_succ, ← mul_assoc]
        rfl
      obtain ⟨goesOn, stops⟩ := eval_extend_succ search A lastBreakpoint fuel _
        ((start * sigma ^ i : ℝ) : EReal) hs multiply
      rcases before.lt_or_eq with early | rfl
      · have goes : ¬ search.ExtendsTo lastBreakpoint sigma start j := fun ends =>
          (first.2 ends).not_gt early
        rw [ExtendsTo, not_or, not_lt, not_lt] at goes
        rw [goesOn goes.1 goes.2]
        split
        · rename_i sufficient
          refine ih (j + 1) (j + 1) _ early (by omega) ⟨⟨le_rfl, goes.2, sufficient⟩, ?_⟩
          exact fun _ => And.left
        · rename_i insufficient
          refine ih (j + 1) i _ early (by omega) ⟨⟨held.1.1.trans (Nat.le_succ j), held.1.2⟩, ?_⟩
          rintro l ⟨within, admits⟩
          rcases within.lt_or_eq with less | rfl
          · exact held.2 ⟨Nat.le_of_lt_succ less, admits⟩
          · exact absurd admits.2 insufficient
      · obtain rfl := held.unique longest
        refine ⟨hs, stops (not_and_or.2 ?_)⟩
        exact first.1.imp (fun past => past.not_ge) fun long => long.not_ge

end Extend

/-! ## The search -/

section Find

variable {search : CauchySearch EReal n} {A : Vec EReal n → Vec EReal n} {sigma start : ℝ}
  {length : EReal}

/-- A search whose first length fails ends where division does. -/
theorem eval_find_shrinks (factor : search.sigma = sigma) {k : ℕ}
    (first : IsLeast {k | search.ShrinksTo A sigma start k} k)
    (fails : ¬ search.AdmitsStrictly A (start : EReal)) (fuel : Nat) (enough : k ≤ fuel)
    (hs : Vec EReal n) : ∃ image, (search.find fuel (start : EReal) hs).eval (answeredBy A) =
      some (if ((start / sigma ^ k : ℝ) : EReal) < Scalar.tinyStep
        then .underflow ((start / sigma ^ k : ℝ) : EReal) image
        else .found ((start / sigma ^ k : ℝ) : EReal)
          (search.step ((start / sigma ^ k : ℝ) : EReal))
          (A (search.step ((start / sigma ^ k : ℝ) : EReal)))) := by
  have shrunk := eval_shrink factor first fuel 0 (A (search.step (start : EReal))) first.1.1 (by omega)
  rwa [pow_zero, div_one, ← eval_find_of_divides (divides_iff_not_admitsStrictly.2 fails) fuel hs]
    at shrunk

/-- A search whose first length holds ends with the one that multiplication ends with. -/
theorem eval_find_of_holds (holds : search.AdmitsStrictly A length) {held : EReal} {fuel : Nat}
    {hs : Vec EReal n} (reached : 0 < (search.box.breakpoints search.x search.d).count → ∃ left,
      (search.extend (search.box.breakpoints search.x search.d).max fuel length length
        (A (search.step length))).eval (answeredBy A) = some (held, left))
    (still : ¬ 0 < (search.box.breakpoints search.x search.d).count → held = length) :
    (search.find fuel length hs).eval (answeredBy A) =
      some (.found held (search.step held) (A (search.step held))) := by
  rw [eval_find_of_not_divides fun divides => divides_iff_not_admitsStrictly.1 divides holds]
  by_cases counted : 0 < (search.box.breakpoints search.x search.d).count
  · obtain ⟨left, extended⟩ := reached counted
    rw [if_pos counted, extended]
    rfl
  · rw [if_neg counted, still counted]
    rfl

end Find

/-! ## Real data -/

section Real

variable {box : Box EReal n} {x g : Fin n → ℝ} {H : (Fin n → ℝ) → Fin n → ℝ}
  {mu0 mu1 radius limit sigma start a b : ℝ}

/-- The step at a length fits and decreases the model sufficiently. -/
structure IsAdmissible (box : Box EReal n) (x g : Fin n → ℝ) (H : (Fin n → ℝ) → Fin n → ℝ)
    (mu0 limit a : ℝ) : Prop where
  fits : √(box.path x (-g) a ⬝ᵥ box.path x (-g) a) ≤ limit
  decreases : box.Decreases x (-g) g H mu0 a

/-- The step at a length fits and decreases the model by more than is asked for. -/
structure IsStrictlyAdmissible (box : Box EReal n) (x g : Fin n → ℝ) (H : (Fin n → ℝ) → Fin n → ℝ)
    (mu0 limit a : ℝ) : Prop where
  fits : √(box.path x (-g) a ⬝ᵥ box.path x (-g) a) ≤ limit
  decreases : 1 / 2 * (box.path x (-g) a ⬝ᵥ H (box.path x (-g) a)) + g ⬝ᵥ box.path x (-g) a <
    mu0 * (g ⬝ᵥ box.path x (-g) a)

/-- Only the step counts. -/
theorem IsAdmissible.of_path_eq (same : box.path x (-g) a = box.path x (-g) b)
    (admissible : IsAdmissible box x g H mu0 limit b) : IsAdmissible box x g H mu0 limit a := by
  obtain ⟨fits, decreases⟩ := admissible
  rw [Box.decreases_iff] at decreases
  constructor
  · rwa [same]
  · rwa [Box.decreases_iff, same]

theorem IsStrictlyAdmissible.admissible (strict : IsStrictlyAdmissible box x g H mu0 limit a) :
    IsAdmissible box x g H mu0 limit a :=
  ⟨strict.fits, Box.decreases_iff.2 strict.decreases.le⟩

/-- With enough fuel, and whatever the last product has left, the search finds this length and its step on
the path, with the product that belongs to the step. -/
def Finds (box : Box EReal n) (x g : Fin n → ℝ) (H : (Fin n → ℝ) → Fin n → ℝ)
    (mu0 mu1 radius sigma start a : ℝ) : Prop :=
  ∃ enough, ∀ fuel, enough ≤ fuel → ∀ hs,
    ((ofReal box x g mu0 (mu1 * radius) sigma).find fuel start hs).eval (answeredBy (Vec.realMap H)) =
      some (.found a (Vec.ofReal (box.path x (-g) a)) (Vec.ofReal (H (box.path x (-g) a))))

/-- With enough fuel, and whatever the last product has left, the search gives up at this length. -/
def Underflows (box : Box EReal n) (x g : Fin n → ℝ) (H : (Fin n → ℝ) → Fin n → ℝ)
    (mu0 mu1 radius sigma start a : ℝ) : Prop :=
  ∃ enough, ∀ fuel, enough ≤ fuel → ∀ hs, ∃ image,
    ((ofReal box x g mu0 (mu1 * radius) sigma).find fuel start hs).eval (answeredBy (Vec.realMap H)) =
      some (.underflow a image)

/-- The search finds the longest admissible one of the lengths that multiplication leads to. One that is
longer has the same step. -/
def FindsLongest (box : Box EReal n) (x g : Fin n → ℝ) (H : (Fin n → ℝ) → Fin n → ℝ)
    (mu0 mu1 radius sigma start : ℝ) : Prop :=
  ∃ k : ℕ, IsAdmissible box x g H mu0 (mu1 * radius) (start * sigma ^ k) ∧
    (∀ j : ℕ, IsAdmissible box x g H mu0 (mu1 * radius) (start * sigma ^ j) →
      j ≤ k ∨ box.path x (-g) (start * sigma ^ j) = box.path x (-g) (start * sigma ^ k)) ∧
    Finds box x g H mu0 mu1 radius sigma start (start * sigma ^ k)

/-- The search finds the first strictly admissible one of the lengths that division leads to. -/
def FindsFirst (box : Box EReal n) (x g : Fin n → ℝ) (H : (Fin n → ℝ) → Fin n → ℝ)
    (mu0 mu1 radius sigma start : ℝ) : Prop :=
  ∃ k : ℕ, IsLeast
      {k | 0 < k ∧ IsStrictlyAdmissible box x g H mu0 (mu1 * radius) (start / sigma ^ k)} k ∧
    Finds box x g H mu0 mu1 radius sigma start (start / sigma ^ k)

/-- The search gives up below the lengths that it works with, and none of those that division leads to and
that are not below is strictly admissible. -/
def GivesUp (box : Box EReal n) (x g : Fin n → ℝ) (H : (Fin n → ℝ) → Fin n → ℝ)
    (mu0 mu1 radius sigma start : ℝ) : Prop :=
  ∃ k : ℕ, ((start / sigma ^ k : ℝ) : EReal) < Scalar.tinyStep ∧
    (∀ j : ℕ, Scalar.tinyStep ≤ ((start / sigma ^ j : ℝ) : EReal) →
      ¬ IsStrictlyAdmissible box x g H mu0 (mu1 * radius) (start / sigma ^ j)) ∧
    Underflows box x g H mu0 mu1 radius sigma start (start / sigma ^ k)

section Inside

variable (inside : box.Contains (Vec.ofReal x))

include inside

theorem step_ofReal (a : ℝ) : (ofReal box x g mu0 (mu1 * radius) sigma).step (a : EReal) =
    Vec.ofReal (box.path x (-g) a) := by
  rw [← Box.projectedStep_eq_path inside, ← Vec.ofReal_neg]
  rfl

theorem fits_iff (a : ℝ) : ((ofReal box x g mu0 (mu1 * radius) sigma).step (a : EReal)).norm ≤
    (ofReal box x g mu0 (mu1 * radius) sigma).maxNorm ↔
      √(box.path x (-g) a ⬝ᵥ box.path x (-g) a) ≤ mu1 * radius := by
  rw [step_ofReal inside, Vec.norm_ofReal]
  change _ ≤ (mu1 * radius : EReal) ↔ _
  rw [← EReal.coe_mul, EReal.coe_le_coe_iff]

theorem admits_iff (a : ℝ) :
    (ofReal box x g mu0 (mu1 * radius) sigma).Admits (Vec.realMap H) (a : EReal) ↔
      IsAdmissible box x g H mu0 (mu1 * radius) a := by
  rw [Admits, fits_iff inside, step_ofReal inside, Vec.realMap_ofReal]
  have sufficient := ModelValue.isSufficient_ofReal g (box.path x (-g) a) (H (box.path x (-g) a)) mu0
  rw [← Box.decreases_iff] at sufficient
  exact ⟨fun holds => ⟨holds.1, sufficient.1 holds.2⟩, fun holds => ⟨holds.1, sufficient.2 holds.2⟩⟩

theorem admitsStrictly_iff (a : ℝ) :
    (ofReal box x g mu0 (mu1 * radius) sigma).AdmitsStrictly (Vec.realMap H) (a : EReal) ↔
      IsStrictlyAdmissible box x g H mu0 (mu1 * radius) a := by
  rw [AdmitsStrictly, fits_iff inside, step_ofReal inside, Vec.realMap_ofReal]
  have insufficient :=
    ModelValue.isInsufficient_ofReal g (box.path x (-g) a) (H (box.path x (-g) a)) mu0
  exact ⟨fun holds => ⟨holds.1, not_le.1 (mt insufficient.2 holds.2)⟩,
    fun holds => ⟨holds.1, mt insufficient.1 holds.2.not_ge⟩⟩

/-! ### Multiplication -/

/-- Multiplication comes to an end: beyond the last breakpoint, or, if that is infinite, out of the ball. -/
theorem exists_extendsTo (scaled : 1 < sigma) (positive : 0 < start)
    (counted : 0 < (box.breakpoints (Vec.ofReal x) (Vec.ofReal (-g))).count) :
    ∃ j, (ofReal box x g mu0 (mu1 * radius) sigma).ExtendsTo
      (box.breakpoints (Vec.ofReal x) (Vec.ofReal (-g))).max sigma start j := by
  induction last : (box.breakpoints (Vec.ofReal x) (Vec.ofReal (-g))).max with
  | bot => exact ⟨0, .inl (EReal.bot_lt_coe _)⟩
  | coe c =>
      obtain ⟨j, beyond⟩ := exists_lt_multiplied scaled positive c
      exact ⟨j, .inl (EReal.coe_lt_coe_iff.2 beyond)⟩
  | top =>
      obtain ⟨c, leaves⟩ := Box.exists_lt_norm_path inside last counted (mu1 * radius)
      obtain ⟨j, beyond⟩ := exists_lt_multiplied scaled positive c
      have longer := multiplied_mono scaled positive (Nat.le_succ j)
      refine ⟨j, .inr (not_le.1 (mt (fits_iff inside _).1 (not_le.2 ?_)))⟩
      exact leaves _ (multiplied_pos scaled positive _).le (beyond.trans_le longer)

/-- **Nothing is lost by stopping.** A longer length than those up to where multiplication ends is not
admissible, or has the same step as the longest admissible one of these. -/
theorem admissible_beyond (scaled : 1 < sigma) (positive : 0 < start) {J k j : ℕ}
    (ends : (ofReal box x g mu0 (mu1 * radius) sigma).ExtendsTo
      (box.breakpoints (Vec.ofReal x) (Vec.ofReal (-g))).max sigma start J)
    (longest : IsGreatest {i | i ≤ J ∧ IsAdmissible box x g H mu0 (mu1 * radius) (start * sigma ^ i)} k)
    (admissible : IsAdmissible box x g H mu0 (mu1 * radius) (start * sigma ^ j)) :
    j ≤ k ∨ box.path x (-g) (start * sigma ^ j) = box.path x (-g) (start * sigma ^ k) := by
  have nonneg := fun i => (multiplied_pos scaled positive i).le
  rcases le_or_gt j J with within | beyond
  · exact .inl (longest.2 ⟨within, admissible⟩)
  · rcases ends with past | long
    · have same := Box.path_eq_of_max_le inside (nonneg J) past.le (multiplied_mono scaled positive beyond.le)
      have last := admissible.of_path_eq same.symm
      obtain rfl : k = J := le_antisymm longest.1.1 (longest.2 ⟨le_rfl, last⟩)
      exact .inr same
    · have leaves := not_le.1 (mt (fits_iff inside _).2 long.not_ge)
      have further : √(box.path x (-g) (start * sigma ^ (J + 1)) ⬝ᵥ
            box.path x (-g) (start * sigma ^ (J + 1))) ≤
          √(box.path x (-g) (start * sigma ^ j) ⬝ᵥ box.path x (-g) (start * sigma ^ j)) :=
        Real.sqrt_le_sqrt (Box.path_dot_self_le inside (nonneg (J + 1))
          (multiplied_mono scaled positive beyond))
      exact absurd admissible.fits (leaves.trans_le further).not_ge

/-! ### What is found -/

/-- A search whose first length holds, read over the reals. -/
theorem eval_find_ofReal (strict : IsStrictlyAdmissible box x g H mu0 (mu1 * radius) start)
    {fuel : Nat} {hs : Vec EReal n}
    (reached : 0 < (box.breakpoints (Vec.ofReal x) (Vec.ofReal (-g))).count → ∃ left,
      ((ofReal box x g mu0 (mu1 * radius) sigma).extend
        (box.breakpoints (Vec.ofReal x) (Vec.ofReal (-g))).max fuel start start
        (Vec.ofReal (H (box.path x (-g) start)))).eval (answeredBy (Vec.realMap H)) =
          some ((a : EReal), left))
    (still : ¬ 0 < (box.breakpoints (Vec.ofReal x) (Vec.ofReal (-g))).count → a = start) :
    ((ofReal box x g mu0 (mu1 * radius) sigma).find fuel start hs).eval (answeredBy (Vec.realMap H)) =
      some (.found a (Vec.ofReal (box.path x (-g) a)) (Vec.ofReal (H (box.path x (-g) a)))) := by
  have breakpoints : (ofReal box x g mu0 (mu1 * radius) sigma).box.breakpoints
      (ofReal box x g mu0 (mu1 * radius) sigma).x (ofReal box x g mu0 (mu1 * radius) sigma).d =
        box.breakpoints (Vec.ofReal x) (Vec.ofReal (-g)) :=
    congrArg (box.breakpoints (Vec.ofReal x)) (Vec.ofReal_neg g)
  rw [← breakpoints] at reached still
  rw [← Vec.realMap_ofReal, ← step_ofReal inside] at reached
  rw [eval_find_of_holds ((admitsStrictly_iff inside start).2 strict) reached
    fun fixed => congrArg _ (still fixed), step_ofReal inside, Vec.realMap_ofReal]

/-- A search whose first length holds finds the longest. -/
theorem findsLongest (scaled : 1 < sigma) (positive : 0 < start)
    (strict : IsStrictlyAdmissible box x g H mu0 (mu1 * radius) start) :
    FindsLongest box x g H mu0 mu1 radius sigma start := by
  classical
  have zeroth : start * sigma ^ 0 = start := by rw [pow_zero, mul_one]
  by_cases counted : 0 < (box.breakpoints (Vec.ofReal x) (Vec.ofReal (-g))).count
  · have ends : ∃ j, (ofReal box x g mu0 (mu1 * radius) sigma).ExtendsTo
        (box.breakpoints (Vec.ofReal x) (Vec.ofReal (-g))).max sigma start j :=
      exists_extendsTo inside scaled positive counted
    have first := Nat.isLeast_find ends
    have bounded : BddAbove {i | i ≤ Nat.find ends ∧
        IsAdmissible box x g H mu0 (mu1 * radius) (start * sigma ^ i)} :=
      ⟨Nat.find ends, fun _ => And.left⟩
    obtain ⟨k, longest⟩ := bounded.exists_isGreatest_of_nonempty
      ⟨0, Nat.zero_le _, zeroth.symm ▸ strict.admissible⟩
    refine ⟨k, longest.1.2, fun j => admissible_beyond inside scaled positive first.1 longest,
      Nat.find ends + 1, fun fuel enough hs => ?_⟩
    have longest' : IsGreatest {i | i ≤ Nat.find ends ∧ (ofReal box x g mu0 (mu1 * radius) sigma).Admits
        (Vec.realMap H) ((start * sigma ^ i : ℝ) : EReal)} k := by
      simpa only [admits_iff inside] using longest
    have zeroth' : IsGreatest {i | i ≤ 0 ∧ (ofReal box x g mu0 (mu1 * radius) sigma).Admits
        (Vec.realMap H) ((start * sigma ^ i : ℝ) : EReal)} 0 :=
      ⟨⟨le_rfl, (admits_iff inside _).2 (zeroth.symm ▸ strict.admissible)⟩, fun _ => And.left⟩
    refine eval_find_ofReal inside strict (fun _ => ?_) (absurd counted)
    have extended := eval_extend (sigma_ofReal ..) first longest' fuel 0 0
      (Vec.ofReal (H (box.path x (-g) start))) (Nat.zero_le _) (by omega) zeroth'
    rwa [zeroth] at extended
  · have still : ∀ j : ℕ, box.path x (-g) (start * sigma ^ j) = 0 := fun j =>
      Box.path_eq_zero inside (multiplied_pos scaled positive j).le counted
    exact ⟨0, zeroth.symm ▸ strict.admissible, fun j _ => .inr ((still j).trans (still 0).symm), 0,
      fun fuel _ hs => eval_find_ofReal inside strict (fun moves => absurd moves counted) fun _ => zeroth⟩

/-- A search whose first length fails finds the first that holds, unless it gives up before. -/
theorem findsFirst_or_givesUp (scaled : 1 < sigma) (positive : 0 < start)
    (fails : ¬ IsStrictlyAdmissible box x g H mu0 (mu1 * radius) start) :
    FindsFirst box x g H mu0 mu1 radius sigma start ∨
      GivesUp box x g H mu0 mu1 radius sigma start := by
  classical
  have ends := exists_shrinksTo (ofReal box x g mu0 (mu1 * radius) sigma) (Vec.realMap H) scaled positive
  have first := Nat.isLeast_find ends
  set k := Nat.find ends
  have earlier : ∀ j, 0 < j → j < k → Scalar.tinyStep ≤ ((start / sigma ^ j : ℝ) : EReal) ∧
      ¬ IsStrictlyAdmissible box x g H mu0 (mu1 * radius) (start / sigma ^ j) := by
    intro j started before
    have goes := mt (@first.2 j) before.not_ge
    rw [Set.mem_ofPred_eq, ShrinksTo, not_and, not_or, not_lt, admitsStrictly_iff inside] at goes
    exact goes started
  have went := eval_find_shrinks (sigma_ofReal ..) first (mt (admitsStrictly_iff inside start).1 fails)
  by_cases tiny : ((start / sigma ^ k : ℝ) : EReal) < Scalar.tinyStep
  · simp only [if_pos tiny] at went
    refine .inr ⟨k, tiny, fun j normal => ?_, k, went⟩
    rcases j.eq_zero_or_pos with rfl | started
    · rwa [pow_zero, div_one]
    · refine (earlier j started (lt_of_not_ge fun later => (normal.trans ?_).not_gt tiny)).2
      exact EReal.coe_le_coe_iff.2 (div_le_div_of_nonneg_left positive.le
        (pow_pos (one_pos.trans scaled) k) (pow_le_pow_right₀ scaled.le later))
  · simp only [if_neg tiny, exists_const, step_ofReal inside, Vec.realMap_ofReal] at went
    have strict := (admitsStrictly_iff inside _).1 (first.1.2.resolve_left tiny)
    refine .inl ⟨k, ⟨⟨first.1.1, strict⟩, fun j admissible => ?_⟩, k, went⟩
    exact le_of_not_gt fun before => (earlier j admissible.1 before).2 admissible.2

/-- **The search always ends, and nothing longer is missed.** From a point of the box, whatever the Hessian
does, a first length that is strictly admissible leads to the longest admissible one, and any other to the
first one that is strictly admissible, unless there is none among those that a search works with. -/
theorem find_longest (H : (Fin n → ℝ) → Fin n → ℝ) (mu0 mu1 radius : ℝ) (scaled : 1 < sigma)
    (positive : 0 < start) :
    (IsStrictlyAdmissible box x g H mu0 (mu1 * radius) start →
      FindsLongest box x g H mu0 mu1 radius sigma start) ∧
    (¬ IsStrictlyAdmissible box x g H mu0 (mu1 * radius) start →
      FindsFirst box x g H mu0 mu1 radius sigma start ∨
        GivesUp box x g H mu0 mu1 radius sigma start) :=
  ⟨findsLongest inside scaled positive, findsFirst_or_givesUp inside scaled positive⟩

end Inside

end Real

/-! ### Both ways into one search -/

section Steep

theorem steep_path {a b : ℝ} (reaches : min (max (-a) (-1)) 1 = -b) :
    steep.box.path (fun _ => 0) (-fun _ => 1) a = fun _ => -b := by
  refine (Box.path_ofReal steep_ordered _ _ _).trans (funext fun _ => ?_)
  rw [← reaches]
  simp

theorem steep_strictly {a b : ℝ} (reaches : min (max (-a) (-1)) 1 = -b) :
    IsStrictlyAdmissible steep.box (fun _ => 0) (fun _ => 1) cubes (1 / 4) (1 * 1) a ↔
      |b| ≤ 1 ∧ 50 * b ^ 4 - b < -(1 / 4 * b) := by
  have norm : √((fun _ : Fin 1 => -b) ⬝ᵥ fun _ => -b) = |b| := by
    simp [dotProduct, Real.sqrt_mul_self_eq_abs]
  have value : 1 / 2 * ((fun _ : Fin 1 => -b) ⬝ᵥ cubes fun _ => -b) +
      (fun _ : Fin 1 => 1) ⬝ᵥ (fun _ => -b) = 50 * b ^ 4 - b := by
    rw [cubes_neg]
    simp only [dotProduct, Finset.univ_unique, Finset.sum_singleton]
    ring
  have slope : 1 / 4 * ((fun _ : Fin 1 => 1) ⬝ᵥ (fun _ => -b)) = -(1 / 4 * b) := by
    simp [dotProduct]
  constructor
  · rintro ⟨fits, decreases⟩
    rw [steep_path reaches] at fits decreases
    rw [norm, mul_one] at fits
    rw [value, slope] at decreases
    exact ⟨fits, decreases⟩
  · rintro ⟨fits, decreases⟩
    constructor
    · rwa [steep_path reaches, norm, mul_one]
    · rwa [steep_path reaches, value, slope]

/-- A search from `1 / 100` multiplies, and one from `1` divides. -/
theorem find_longest_steep :
    FindsLongest steep.box (fun _ => 0) (fun _ => 1) cubes (1 / 4) 1 1 10 (1 / 100) ∧
      (FindsFirst steep.box (fun _ => 0) (fun _ => 1) cubes (1 / 4) 1 1 10 1 ∨
        GivesUp steep.box (fun _ => 0) (fun _ => 1) cubes (1 / 4) 1 1 10 1) := by
  have scaled : (1 : ℝ) < 10 := by norm_num
  have positive : (0 : ℝ) < 1 / 100 := by norm_num
  have strict := (steep_strictly (a := 1 / 100) (b := 1 / 100) (by norm_num)).2
    ⟨by norm_num [abs_of_pos], by norm_num⟩
  have fails := mt (steep_strictly (a := 1) (b := 1) (by norm_num)).1
    fun holds => absurd holds.2 (by norm_num)
  exact ⟨(find_longest steep_inside cubes (1 / 4) 1 1 scaled positive).1 strict,
    (find_longest steep_inside cubes (1 / 4) 1 1 scaled one_pos).2 fails⟩

end Steep

end CauchySearch

end BoxNewton
