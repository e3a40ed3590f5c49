import Mathlib
import BoxNewton.Proofs.CauchyLength
import BoxNewton.Proofs.ExtendedNumbers
import BoxNewton.Proofs.Products

/-!
# When a search for the Cauchy point ends

Each of the two loops of the search goes through the iterates of one operation on the step length. Division
ends at an iterate that is below what a search works with or whose step holds (`DivisionEnds`).
Multiplication ends at one that is past the last breakpoint or whose step does not fit
(`MultiplicationEnds`). There is no other way out of either loop, for any type of scalars: a search
terminates if the loop that it enters ends, and runs forever if that loop does not.

Usable options include infinite factors. From real data under such options, every search with a finite
factor `mu1` and a finite first length terminates. Two kinds do not (`within_terminates`). When the step may
be as long as it likes, the last breakpoint is infinite and the first length holds, multiplication never
comes to an end: nothing is too long and nothing is past the last breakpoint. Division has a test for
lengths that have become too small, and multiplication has none for those that have become too large. When
the first length is infinite and fails, division leaves it what it is, or makes it what is not a number.
-/

set_option autoImplicit false

namespace BoxNewton

/-- The standard options of the trust region are in their ranges among the extended numbers. -/
theorem RegionOptions.standard_usable_extended :
    (RegionOptions.standard : RegionOptions Extended).Usable := by
  obtain ⟨largest, accept, acceptLe, shrink, grow, strong, strongLt, mild, growth⟩ :=
    RegionOptions.standard_usable
  refine ⟨?_, accept, acceptLe, shrink, grow, strong, strongLt, mild, growth⟩
  have quotient : (1 / Scalar.sqrtEpsilon : Extended) = Extended.number (1 / Scalar.sqrtEpsilon) :=
    Extended.div_coe 1 (by norm_num)
  change 0 < (1 / Scalar.sqrtEpsilon : Extended)
  rw [quotient]
  exact largest

namespace CauchySearch

section Loops

variable {α : Type} [Scalar α] {n : Nat}

/-- Some quotient of the length is below what a search works with, or its step holds. -/
def DivisionEnds (search : CauchySearch α n) (A : Vec α n → Vec α n) (length : α) : Prop :=
  ∃ k : ℕ, (· / search.sigma)^[k + 1] length < Scalar.tinyStep ∨
    search.AdmitsStrictly A ((· / search.sigma)^[k + 1] length)

/-- Some product of the length is past the last breakpoint, or the step at the next one does not fit. -/
def MultiplicationEnds (search : CauchySearch α n) (lastBreakpoint length : α) : Prop :=
  ∃ k : ℕ, ¬ ((· * search.sigma)^[k] length ≤ lastBreakpoint ∧
    (search.step ((· * search.sigma)^[k + 1] length)).norm ≤ search.maxNorm)

/-- With enough fuel the search comes to an outcome, whatever the last product has left. -/
def Terminates (search : CauchySearch α n) (A : Vec α n → Vec α n) (start : α) : Prop :=
  ∃ enough, ∀ fuel, enough ≤ fuel → ∀ hs, ∃ outcome,
    (search.find fuel start hs).eval (answeredBy A) = some outcome

/-- No fuel is enough. -/
def RunsForever (search : CauchySearch α n) (A : Vec α n → Vec α n) (start : α) : Prop :=
  ∀ fuel hs, (search.find fuel start hs).eval (answeredBy A) = none

/-- Any step fits, the path has no last breakpoint and the first length holds. -/
structure MultipliesForever (search : CauchySearch α n) (A : Vec α n → Vec α n) (start : α) : Prop where
  unlimited : Scalar.infinity ≤ search.maxNorm
  moves : 0 < (search.box.breakpoints search.x search.d).count
  endless : Scalar.infinity ≤ (search.box.breakpoints search.x search.d).max
  holds : search.AdmitsStrictly A start

/-- The first length is infinite, and neither it nor its quotient holds. -/
structure DividesForever (search : CauchySearch α n) (A : Vec α n → Vec α n) (start : α) : Prop where
  infinite : Scalar.infinity ≤ start
  fails : ¬ search.AdmitsStrictly A start
  failsAgain : ¬ search.AdmitsStrictly A (start / search.sigma)

variable {search : CauchySearch α n} {A : Vec α n → Vec α n} {length start : α}

/-! ## Division -/

/-- Division ends at the first of the quotients at which it can, or before. -/
theorem shrink_ends {k : ℕ} (ends : (· / search.sigma)^[k + 1] length < Scalar.tinyStep ∨
    search.AdmitsStrictly A ((· / search.sigma)^[k + 1] length)) {fuel : Nat} (enough : k < fuel)
    (hs : Vec α n) :
    ∃ outcome, (search.shrink fuel length hs).eval (answeredBy A) = some outcome := by
  induction fuel generalizing length k hs with
  | zero => exact absurd enough (Nat.not_lt_zero k)
  | succ fuel ih =>
      obtain ⟨left, underflows, finds, goes⟩ := eval_shrink_succ search A fuel length hs rfl
      by_cases tiny : length / search.sigma < Scalar.tinyStep
      · exact ⟨_, underflows tiny⟩
      · by_cases holds : search.AdmitsStrictly A (length / search.sigma)
        · exact ⟨_, finds tiny holds⟩
        · rw [goes tiny holds]
          cases k with
          | zero => exact absurd ends (not_or.2 ⟨tiny, holds⟩)
          | succ k => exact ih (k := k) ends (Nat.lt_of_succ_lt_succ enough) left

theorem shrink_runsForever (never : ¬ search.DivisionEnds A length) (fuel : Nat) (hs : Vec α n) :
    (search.shrink fuel length hs).eval (answeredBy A) = none := by
  induction fuel generalizing length hs with
  | zero => rfl
  | succ fuel ih =>
      obtain ⟨left, -, -, goes⟩ := eval_shrink_succ search A fuel length hs rfl
      obtain ⟨normal, fails⟩ := not_or.1 (not_exists.1 never 0)
      rw [goes normal fails]
      refine ih (fun ends => never ?_) left
      obtain ⟨k, ends⟩ := ends
      exact ⟨k + 1, ends⟩

/-! ## Multiplication -/

theorem extend_ends {lastBreakpoint : α} {k : ℕ}
    (ends : ¬ ((· * search.sigma)^[k] length ≤ lastBreakpoint ∧
      (search.step ((· * search.sigma)^[k + 1] length)).norm ≤ search.maxNorm)) {fuel : Nat}
    (enough : k < fuel) (held : α) (hs : Vec α n) :
    ∃ out, (search.extend lastBreakpoint fuel length held hs).eval (answeredBy A) = some out := by
  induction fuel generalizing length k held hs with
  | zero => exact absurd enough (Nat.not_lt_zero k)
  | succ fuel ih =>
      obtain ⟨goes, stops⟩ := eval_extend_succ search A lastBreakpoint fuel length held hs rfl
      by_cases further : length ≤ lastBreakpoint ∧
        (search.step (length * search.sigma)).norm ≤ search.maxNorm
      · rw [goes further.1 further.2]
        cases k with
        | zero => exact absurd further ends
        | succ k => exact ih (k := k) ends (Nat.lt_of_succ_lt_succ enough) _ _
      · exact ⟨_, stops further⟩

theorem extend_runsForever {lastBreakpoint : α} (never : ¬ search.MultiplicationEnds lastBreakpoint length)
    (fuel : Nat) (held : α) (hs : Vec α n) :
    (search.extend lastBreakpoint fuel length held hs).eval (answeredBy A) = none := by
  induction fuel generalizing length held hs with
  | zero => rfl
  | succ fuel ih =>
      obtain ⟨goes, -⟩ := eval_extend_succ search A lastBreakpoint fuel length held hs rfl
      obtain ⟨within, fits⟩ := Classical.not_not.1 (not_exists.1 never 0)
      rw [goes within fits]
      refine ih (fun ends => never ?_) _ _
      obtain ⟨k, ends⟩ := ends
      exact ⟨k + 1, ends⟩

/-! ## The search -/

/-- A search terminates if the loop that it enters ends. -/
theorem terminates (divides : search.Divides A start → search.DivisionEnds A start)
    (multiplies : ¬ search.Divides A start → 0 < (search.box.breakpoints search.x search.d).count →
      search.MultiplicationEnds (search.box.breakpoints search.x search.d).max start) :
    search.Terminates A start := by
  by_cases loop : search.Divides A start
  · obtain ⟨k, ends⟩ := divides loop
    refine ⟨k + 1, fun fuel enough hs => ?_⟩
    rw [eval_find_of_divides loop]
    exact shrink_ends ends enough _
  · by_cases counted : 0 < (search.box.breakpoints search.x search.d).count
    · obtain ⟨k, ends⟩ := multiplies loop counted
      refine ⟨k + 1, fun fuel enough hs => ?_⟩
      obtain ⟨out, extended⟩ := extend_ends (A := A) ends enough start (A (search.step start))
      rw [eval_find_of_not_divides loop, if_pos counted, extended]
      exact ⟨_, rfl⟩
    · refine ⟨0, fun fuel _ hs => ?_⟩
      rw [eval_find_of_not_divides loop, if_neg counted]
      exact ⟨_, rfl⟩

theorem runsForever_of_divides (divides : search.Divides A start)
    (never : ¬ search.DivisionEnds A start) : search.RunsForever A start := fun fuel hs => by
  rw [eval_find_of_divides divides, shrink_runsForever never]

theorem runsForever_of_not_divides (holds : ¬ search.Divides A start)
    (counted : 0 < (search.box.breakpoints search.x search.d).count)
    (never : ¬ search.MultiplicationEnds (search.box.breakpoints search.x search.d).max start) :
    search.RunsForever A start := fun fuel hs => by
  rw [eval_find_of_not_divides holds, if_pos counted, extend_runsForever never]
  rfl

end Loops

/-! ## Lengths and factors that may be infinite -/

section Extended

open Extended

variable {n : Nat} {box : Box EReal n} {x g : Fin n → ℝ} {A : Vec Extended n → Vec Extended n}
  {mu0 : Extended} {limit sigma start : EReal}

/-- The search from real data. -/
noncomputable def ofNumbers (box : Box EReal n) (x g : Fin n → ℝ) (mu0 : Extended)
    (limit sigma : EReal) : CauchySearch Extended n where
  box := box.numbers
  x := (Vec.ofReal x).numbers
  g := (Vec.ofReal g).numbers
  d := (Vec.ofReal (-g)).numbers
  mu0
  maxNorm := number limit
  sigma := number sigma

theorem breakpoints_ofNumbers : (ofNumbers box x g mu0 limit sigma).box.breakpoints
      (ofNumbers box x g mu0 limit sigma).x (ofNumbers box x g mu0 limit sigma).d =
    { count := (box.breakpoints (Vec.ofReal x) (Vec.ofReal (-g))).count
      min := number (box.breakpoints (Vec.ofReal x) (Vec.ofReal (-g))).min
      max := number (box.breakpoints (Vec.ofReal x) (Vec.ofReal (-g))).max } :=
  Box.breakpoints_numbers box x (-g)

/-! ### Products and quotients -/

theorem iterate_mul_coe (a s : ℝ) (k : ℕ) :
    (· * number s)^[k] (number a) = number ((a * s ^ k : ℝ) : EReal) := by
  induction k with
  | zero => rw [Function.iterate_zero_apply, pow_zero, mul_one]
  | succ k ih =>
      rw [Function.iterate_succ_apply', ih, coe_mul, pow_succ, ← mul_assoc, ← EReal.coe_mul]

theorem exists_iterate_mul (scaled : 0 < sigma) (positive : 0 < start) (k : ℕ) :
    ∃ t, 0 < t ∧ (· * number sigma)^[k] (number start) = number t := by
  induction k with
  | zero => exact ⟨start, positive, rfl⟩
  | succ k ih =>
      obtain ⟨t, before, same⟩ := ih
      refine ⟨t * sigma, EReal.mul_pos before scaled, ?_⟩
      rw [Function.iterate_succ_apply', same, mul_of_pos before scaled]

theorem iterate_div_coe {s : ℝ} (nonzero : s ≠ 0) (a : ℝ) (k : ℕ) :
    (· / number s)^[k] (number a) = number ((a / s ^ k : ℝ) : EReal) := by
  induction k with
  | zero => rw [Function.iterate_zero_apply, pow_zero, div_one]
  | succ k ih =>
      rw [Function.iterate_succ_apply', ih, div_coe _ nonzero, pow_succ, ← div_div, ← EReal.coe_div]

/-- Dividing infinity leads to infinity or to what is not a number, and no further. -/
theorem top_div (scaled : 1 < sigma) :
    number ⊤ / number sigma / number sigma = number ⊤ / number sigma ∧
      ¬ number ⊤ / number sigma < Scalar.tinyStep := by
  induction sigma with
  | bot => exact absurd scaled not_lt_bot
  | top =>
      rw [top_div_top]
      exact ⟨rfl, fun below => below⟩
  | coe s =>
      have positive : (0 : EReal) < s := one_pos.trans scaled
      have same : number ⊤ / number s = number ⊤ := by
        rw [div_coe _ (EReal.coe_pos.1 positive).ne',
          EReal.top_div_of_pos_ne_top positive (EReal.coe_ne_top s)]
      rw [same, same, tinyStep_eq, number_lt]
      exact ⟨rfl, not_top_lt⟩

/-! ### Division -/

theorem divisionEnds (scaled : 1 < sigma) {start : ℝ} (positive : 0 < start) :
    (ofNumbers box x g mu0 limit sigma).DivisionEnds A (number start) := by
  induction sigma with
  | bot => exact absurd scaled not_lt_bot
  | top =>
      refine ⟨0, .inl ?_⟩
      change number start / number ⊤ < Scalar.tinyStep
      rw [coe_div_top, tinyStep_eq, number_lt]
      exact EReal.coe_pos.2 (by norm_num)
  | coe s =>
      rw [← EReal.coe_one, EReal.coe_lt_coe_iff] at scaled
      obtain ⟨k, below⟩ := exists_quotient_lt scaled positive
      refine ⟨k, .inl ?_⟩
      change (· / number s)^[k + 1] (number start) < Scalar.tinyStep
      rw [iterate_div_coe (one_pos.trans scaled).ne']
      exact below

theorem divisionEnds_top (scaled : 1 < sigma) :
    (ofNumbers box x g mu0 limit sigma).DivisionEnds A (number ⊤) ↔
      (ofNumbers box x g mu0 limit sigma).AdmitsStrictly A (number ⊤ / number sigma) := by
  obtain ⟨fixed, normal⟩ := top_div scaled
  have quotients : ∀ k, (· / number sigma)^[k + 1] (number ⊤) = number ⊤ / number sigma := fun k => by
    rw [Function.iterate_succ_apply, Function.iterate_fixed fixed]
  constructor
  · rintro ⟨k, ends⟩
    change (· / number sigma)^[k + 1] (number ⊤) < _ ∨
      AdmitsStrictly _ _ ((· / number sigma)^[k + 1] _) at ends
    rw [quotients] at ends
    exact ends.resolve_left normal
  · exact fun holds => ⟨0, .inr holds⟩

section Inside

variable (inside : box.Contains (Vec.ofReal x))

include inside

/-! ### Steps -/

theorem step_coe (t : ℝ) : (ofNumbers box x g mu0 limit sigma).step (number t) =
    (Vec.ofReal (box.path x (-g) t)).numbers := by
  rw [← Box.projectedStep_eq_path inside]
  exact Box.projectedStep_numbers box x (-g) t

theorem norm_step_coe (t : ℝ) : ((ofNumbers box x g mu0 limit sigma).step (number t)).norm =
    number ((√(box.path x (-g) t ⬝ᵥ box.path x (-g) t) : ℝ) : EReal) := by
  rw [step_coe inside, Vec.norm_numbers, Vec.norm_ofReal]

section Norms

variable (g mu0 limit sigma)

/-- The step of infinite length is infinitely long, if the path has no last breakpoint. -/
theorem exists_norm_step_top : ∃ r,
    ((ofNumbers box x g mu0 limit sigma).step (number ⊤)).norm = number r ∧
      (0 < (box.breakpoints (Vec.ofReal x) (Vec.ofReal (-g))).count →
        (box.breakpoints (Vec.ofReal x) (Vec.ofReal (-g))).max = ⊤ → r = ⊤) := by
  obtain ⟨e, same, far⟩ := Box.exists_step_top inside (-g)
  refine ⟨e.norm, (congrArg Vec.norm same).trans (Vec.norm_numbers e), fun counted endless => ?_⟩
  obtain ⟨i, meets⟩ := Box.breakpoints_max_mem counted (by rw [endless]; exact EReal.zero_lt_top)
  exact Vec.norm_of_infinite (far i (meets.trans (congrArg some endless)))

theorem exists_norm_step {t : EReal} (positive : 0 < t) :
    ∃ r, ((ofNumbers box x g mu0 limit sigma).step (number t)).norm = number r := by
  induction t with
  | bot => exact absurd positive not_lt_bot
  | coe t => exact ⟨_, norm_step_coe inside t⟩
  | top =>
      obtain ⟨r, norm, -⟩ := exists_norm_step_top g mu0 limit sigma inside
      exact ⟨r, norm⟩

end Norms

theorem divides_ofNumbers (positive : 0 < start) :
    (ofNumbers box x g mu0 limit sigma).Divides A (number start) ↔
      ¬ (ofNumbers box x g mu0 limit sigma).AdmitsStrictly A (number start) := by
  obtain ⟨r, norm⟩ := exists_norm_step g mu0 limit sigma inside positive
  exact divides_iff (norm ▸ isNumber r) (isNumber limit)

/-! ### Multiplication -/

section Ends

variable (counted : 0 < (box.breakpoints (Vec.ofReal x) (Vec.ofReal (-g))).count)
  (limited : (box.breakpoints (Vec.ofReal x) (Vec.ofReal (-g))).max = ⊤ → limit < ⊤)

include counted limited

/-- An infinite length is past the last breakpoint, or its step does not fit. -/
theorem multiplicationEnds_of_top (scaled : 0 < sigma) (positive : 0 < start)
    (infinite : start * sigma = ⊤) : (ofNumbers box x g mu0 limit sigma).MultiplicationEnds
      (number (box.breakpoints (Vec.ofReal x) (Vec.ofReal (-g))).max) (number start) := by
  have product : number start * number sigma = number ⊤ := by
    rw [mul_of_pos positive scaled, infinite]
  by_cases endless : (box.breakpoints (Vec.ofReal x) (Vec.ofReal (-g))).max = ⊤
  · obtain ⟨r, norm, long⟩ := exists_norm_step_top g mu0 limit sigma inside
    refine ⟨0, fun further => ?_⟩
    obtain ⟨-, fits⟩ := further
    change (step _ (number start * number sigma)).norm ≤ number limit at fits
    rw [product, norm, long counted endless, number_le] at fits
    exact fits.not_gt (limited endless)
  · refine ⟨1, fun further => ?_⟩
    obtain ⟨within, -⟩ := further
    change number start * number sigma ≤ _ at within
    rw [product, number_le] at within
    exact endless (top_le_iff.1 within)

/-- Finite lengths grow beyond the last breakpoint, or their steps out of the ball. -/
theorem multiplicationEnds_coe {s a : ℝ} (scaled : 1 < s) (positive : 0 < a) :
    (ofNumbers box x g mu0 limit s).MultiplicationEnds
      (number (box.breakpoints (Vec.ofReal x) (Vec.ofReal (-g))).max) (number a) := by
  by_cases endless : (box.breakpoints (Vec.ofReal x) (Vec.ofReal (-g))).max = ⊤
  · obtain ⟨c, leaves⟩ := Box.exists_lt_norm_path inside endless counted limit.toReal
    obtain ⟨j, beyond⟩ := exists_lt_multiplied scaled positive c
    refine ⟨j, fun further => ?_⟩
    obtain ⟨-, fits⟩ := further
    change (step _ ((· * number s)^[j + 1] (number a))).norm ≤ number limit at fits
    rw [iterate_mul_coe, norm_step_coe inside, number_le] at fits
    have longer := beyond.trans_le (multiplied_mono scaled positive (Nat.le_succ j))
    have long := leaves _ (multiplied_pos scaled positive _).le longer
    have least := fits.trans (EReal.le_coe_toReal (limited endless).ne)
    exact (EReal.coe_le_coe_iff.1 least).not_gt long
  · obtain ⟨j, beyond⟩ := exists_lt_multiplied scaled positive
      (box.breakpoints (Vec.ofReal x) (Vec.ofReal (-g))).max.toReal
    refine ⟨j, fun further => ?_⟩
    obtain ⟨within, -⟩ := further
    change (· * number s)^[j] (number a) ≤ _ at within
    rw [iterate_mul_coe, number_le] at within
    have least := within.trans (EReal.le_coe_toReal endless)
    exact (EReal.coe_le_coe_iff.1 least).not_gt beyond

/-- **Multiplication ends** if one of the two limits is finite. -/
theorem multiplicationEnds (scaled : 1 < sigma) (positive : 0 < start) :
    (ofNumbers box x g mu0 limit sigma).MultiplicationEnds
      (number (box.breakpoints (Vec.ofReal x) (Vec.ofReal (-g))).max) (number start) := by
  have factor : 0 < sigma := one_pos.trans scaled
  induction start with
  | bot => exact absurd positive not_lt_bot
  | top =>
      refine multiplicationEnds_of_top inside counted limited factor positive ?_
      exact EReal.top_mul_of_pos factor
  | coe a =>
      induction sigma with
      | bot => exact absurd factor not_lt_bot
      | top =>
          refine multiplicationEnds_of_top inside counted limited factor positive ?_
          exact EReal.mul_top_of_pos positive
      | coe s =>
          rw [← EReal.coe_one, EReal.coe_lt_coe_iff] at scaled
          exact multiplicationEnds_coe inside counted limited scaled (EReal.coe_pos.1 positive)

end Ends

/-- Multiplication never ends if none of them is. -/
theorem not_multiplicationEnds (scaled : 1 < sigma) (positive : 0 < start) :
    ¬ (ofNumbers box x g mu0 ⊤ sigma).MultiplicationEnds (number ⊤) (number start) := by
  rintro ⟨k, ends⟩
  have scaled := one_pos.trans scaled
  obtain ⟨t, -, same⟩ := exists_iterate_mul scaled positive k
  obtain ⟨u, longer, same'⟩ := exists_iterate_mul scaled positive (k + 1)
  obtain ⟨r, norm⟩ := exists_norm_step g mu0 ⊤ sigma inside longer
  refine ends ⟨?_, ?_⟩
  · change (· * number sigma)^[k] (number start) ≤ number ⊤
    rw [same, number_le]
    exact le_top
  · change (step _ ((· * number sigma)^[k + 1] (number start))).norm ≤ number ⊤
    rw [same', norm, number_le]
    exact le_top

/-! ### Both -/

theorem runsForever_of_multipliesForever (scaled : 1 < sigma) (positive : 0 < start)
    (forever : (ofNumbers box x g mu0 limit sigma).MultipliesForever A (number start)) :
    (ofNumbers box x g mu0 limit sigma).RunsForever A (number start) := by
  obtain ⟨unlimited, moves, endless, holds⟩ := forever
  rw [breakpoints_ofNumbers] at endless
  obtain rfl : limit = ⊤ := top_le_iff.1 unlimited
  have endless : (box.breakpoints (Vec.ofReal x) (Vec.ofReal (-g))).max = ⊤ := top_le_iff.1 endless
  refine runsForever_of_not_divides (fun divides => ?_) moves ?_
  · exact (divides_ofNumbers inside positive).1 divides holds
  · rw [breakpoints_ofNumbers, endless]
    exact not_multiplicationEnds inside scaled positive

theorem runsForever_of_dividesForever (scaled : 1 < sigma) (positive : 0 < start)
    (forever : (ofNumbers box x g mu0 limit sigma).DividesForever A (number start)) :
    (ofNumbers box x g mu0 limit sigma).RunsForever A (number start) := by
  obtain ⟨infinite, fails, failsAgain⟩ := forever
  obtain rfl : start = ⊤ := top_le_iff.1 infinite
  refine runsForever_of_divides ((divides_ofNumbers inside positive).2 fails) ?_
  exact mt (divisionEnds_top scaled).1 failsAgain

/-- A search that does neither terminates. -/
theorem terminates_ofNumbers (scaled : 1 < sigma) (positive : 0 < start)
    (multiplies : ¬ (ofNumbers box x g mu0 limit sigma).MultipliesForever A (number start))
    (divides : ¬ (ofNumbers box x g mu0 limit sigma).DividesForever A (number start)) :
    (ofNumbers box x g mu0 limit sigma).Terminates A (number start) := by
  refine terminates (fun loop => ?_) fun loop counted => ?_
  · have fails := (divides_ofNumbers inside positive).1 loop
    induction start with
    | bot => exact absurd positive not_lt_bot
    | coe a => exact divisionEnds scaled (EReal.coe_pos.1 positive)
    | top =>
        rw [divisionEnds_top scaled]
        by_contra failsAgain
        exact divides ⟨isNumber ⊤, fails, failsAgain⟩
  · have holds := Classical.not_not.1 (mt (divides_ofNumbers inside positive).2 loop)
    have moves := counted
    rw [breakpoints_ofNumbers] at counted ⊢
    refine multiplicationEnds inside counted (fun endless => ?_) scaled positive
    by_contra unlimited
    refine multiplies ⟨?_, moves, ?_, holds⟩
    · exact (not_lt_top_iff.1 unlimited).ge
    · rw [breakpoints_ofNumbers, endless]
      exact isNumber ⊤

end Inside

/-! ### The search of an iteration -/

section Within

variable {options : Options Extended} (usable : options.fault? = none) {box : Box Extended n}
  (inside : box.Contains (Vec.ofReal x).numbers) {radius : ℝ} (positive : 0 < radius)
  {start : Extended} (started : 0 < start)

include usable positive started

/-- Under usable options the search is one between numbers. Its limit is finite if the factor is. -/
theorem exists_ofNumbers (box : Box Extended n) (x g : Fin n → ℝ) :
    ∃ (box' : Box EReal n) (limit sigma start' : EReal), box = box'.numbers ∧ start = number start' ∧
      0 < start' ∧ 1 < sigma ∧ (options.mu1 < Scalar.infinity → limit < ⊤) ∧
      within options box (Vec.ofReal x).numbers (Vec.ofReal g).numbers (number radius) =
        ofNumbers box' x g options.mu0 limit sigma := by
  obtain ⟨box, rfl⟩ := box.exists_numbers
  obtain ⟨start, rfl, started⟩ := exists_of_number_lt started
  obtain ⟨mu1, limit, above⟩ := exists_of_number_lt (Options.fault?_eq_none.1 usable).mu1_pos
  obtain ⟨sigma, factor, scaled⟩ := exists_of_number_lt (Options.fault?_eq_none.1 usable).one_lt_sigma
  refine ⟨box, mu1 * radius, sigma, start, rfl, rfl, started, scaled, fun bounded => ?_, ?_⟩
  · rw [limit] at bounded
    exact Scalar.mul_lt_top above (number_lt.1 bounded) (EReal.coe_pos.2 positive)
      (EReal.coe_lt_top radius)
  · rw [within, limit, factor, mul_of_pos above (EReal.coe_pos.2 positive), Vec.neg_numbers,
      Vec.ofReal_neg]
    rfl

include inside

theorem terminates_within (g : Fin n → ℝ) (A : Vec Extended n → Vec Extended n)
    (multiplies : ¬ (within options box (Vec.ofReal x).numbers (Vec.ofReal g).numbers
      (number radius)).MultipliesForever A start)
    (divides : ¬ (within options box (Vec.ofReal x).numbers (Vec.ofReal g).numbers
      (number radius)).DividesForever A start) :
    (within options box (Vec.ofReal x).numbers (Vec.ofReal g).numbers (number radius)).Terminates A
      start := by
  obtain ⟨box, limit, sigma, start, rfl, rfl, started, scaled, -, same⟩ :=
    exists_ofNumbers usable positive started box x g
  rw [same] at multiplies divides ⊢
  exact terminates_ofNumbers ((Box.contains_numbers _).1 inside) scaled started multiplies divides

theorem runsForever_within (g : Fin n → ℝ) (A : Vec Extended n → Vec Extended n)
    (forever : (within options box (Vec.ofReal x).numbers (Vec.ofReal g).numbers
        (number radius)).MultipliesForever A start ∨
      (within options box (Vec.ofReal x).numbers (Vec.ofReal g).numbers
        (number radius)).DividesForever A start) :
    (within options box (Vec.ofReal x).numbers (Vec.ofReal g).numbers (number radius)).RunsForever A
      start := by
  obtain ⟨box, limit, sigma, start, rfl, rfl, started, scaled, -, same⟩ :=
    exists_ofNumbers usable positive started box x g
  rw [same] at forever ⊢
  rcases forever with multiplies | divides
  · exact runsForever_of_multipliesForever ((Box.contains_numbers _).1 inside) scaled started multiplies
  · exact runsForever_of_dividesForever ((Box.contains_numbers _).1 inside) scaled started divides

/-- **Which searches end.** From a point of the box, under usable options and with any answers to the
products, a search with a finite factor `mu1` and a finite first length terminates. So does every other
one, unless it multiplies forever or divides forever. Those run forever. -/
theorem within_terminates (g : Fin n → ℝ) (A : Vec Extended n → Vec Extended n) :
    let search := within options box (Vec.ofReal x).numbers (Vec.ofReal g).numbers (number radius)
    (options.mu1 < Scalar.infinity → start < Scalar.infinity → search.Terminates A start) ∧
      (¬ search.MultipliesForever A start → ¬ search.DividesForever A start →
        search.Terminates A start) ∧
      (search.MultipliesForever A start ∨ search.DividesForever A start →
        search.RunsForever A start) := by
  intro search
  have ends := terminates_within usable inside positive started g A
  refine ⟨fun bounded finite => ends (fun forever => ?_) fun forever => ?_, ends,
    runsForever_within usable inside positive started g A⟩
  · obtain ⟨_, limit, _, _, -, -, -, -, limited, same⟩ :=
      exists_ofNumbers usable positive started box x g
    rw [same] at forever
    exact (limited bounded).not_ge (number_le.1 forever.unlimited)
  · exact Scalar.not_lt_of_le forever.infinite finite

end Within

end Extended

/-! ### A search without limits

A search from one half along the negative gradient of `x² / 2`, without bounds on the variable. -/

section Roaming

open Extended

/-- Standard options but for the factor between radius and limit. -/
noncomputable def factored (mu1 : EReal) : Options Extended :=
  { Options.standard with mu1 := number mu1 }

theorem fault?_factored {mu1 : EReal} (positive : 0 < mu1) : (factored mu1).fault? = none := by
  have epsilon : (0 : Extended) ≤ Scalar.sqrtEpsilon := EReal.coe_nonneg.2 (by norm_num)
  have small : (0 : Extended) < 1e-2 ∧ (1e-2 : Extended) < 0.5 :=
    ⟨EReal.coe_pos.2 (by norm_num), EReal.coe_lt_coe_iff.2 (by norm_num)⟩
  have inner : (0 : Extended) < 0.1 ∧ (0.1 : Extended) < 1 :=
    ⟨EReal.coe_pos.2 (by norm_num), EReal.coe_lt_coe_iff.2 (by norm_num)⟩
  have scaled : (1 : Extended) < 10.0 := EReal.coe_lt_coe_iff.2 (by norm_num)
  have limit : (factored mu1).maxInnerIterations ≠ 0 := OfNat.ofNat_ne_zero 50
  exact Options.fault?_eq_none.2 ⟨small, positive, scaled, inner, ⟨epsilon, epsilon⟩, limit,
    RegionOptions.standard_usable_extended⟩

/-- The point, and the gradient there. -/
noncomputable def half : Fin 1 → ℝ := fun _ => 0.5

theorem half_inside : (Box.unbounded 1).Contains (Vec.ofReal half) := Box.contains_unbounded _

noncomputable def roaming (mu1 : EReal) : CauchySearch Extended 1 :=
  within (factored mu1) (.unbounded 1) (Vec.ofReal half).numbers (Vec.ofReal half).numbers
    (number (1 : ℝ))

theorem roaming_eq : roaming ⊤ =
    ofNumbers (.unbounded 1) half half (number ((1e-2 : ℝ) : EReal)) ⊤ ((10.0 : ℝ) : EReal) := by
  have limit : number ⊤ * number (1 : ℝ) = number ⊤ := by
    rw [mul_of_pos EReal.zero_lt_top (EReal.coe_pos.2 one_pos), EReal.coe_one, mul_one]
  rw [roaming, within, Vec.neg_numbers, Vec.ofReal_neg]
  change CauchySearch.mk _ _ _ _ _ (number ⊤ * number (1 : ℝ)) _ = _
  rw [limit]
  rfl

theorem roaming_path : (Box.unbounded 1).path half (-half) 1 = -half := by
  funext i
  rw [Box.path_eq_of_between half_inside bot_le le_top, one_mul]

theorem roaming_breakpoint :
    (Box.unbounded 1).breakpoint? (Vec.ofReal half) (Vec.ofReal (-half)) 0 = some ⊤ := by
  have down : (-half) 0 < 0 := by norm_num [half]
  rw [Box.breakpoint?_of_neg down (EReal.bot_lt_coe _)]
  change some ((⊥ - ((half 0 : ℝ) : EReal)) / (((-half) 0 : ℝ) : EReal)) = some ⊤
  rw [EReal.bot_sub, EReal.bot_div_of_neg_ne_bot (EReal.coe_neg'.2 down) (EReal.coe_ne_bot _)]

theorem roaming_multiplies : (roaming ⊤).MultipliesForever id 1 := by
  rw [roaming_eq]
  refine ⟨isNumber ⊤, ?_, ?_, ?_, fun insufficient => ?_⟩
  · rw [breakpoints_ofNumbers]
    exact Box.breakpoints_count_pos roaming_breakpoint
  · rw [breakpoints_ofNumbers]
    exact number_le.2 (Box.le_breakpoints_max roaming_breakpoint)
  · change (step _ (number (1 : ℝ))).norm ≤ number ⊤
    rw [norm_step_coe half_inside, number_le]
    exact le_top
  · change (ModelValue.ofImage _ (step _ (number (1 : ℝ))) (step _ (number (1 : ℝ)))).IsInsufficient _
      at insufficient
    rw [step_coe half_inside, roaming_path] at insufficient
    have insufficient := (ModelValue.isInsufficient_numbers half (-half) (-half) 1e-2).1 insufficient
    simp only [dotProduct, Finset.univ_unique, Finset.sum_singleton, Pi.neg_apply, half] at insufficient
    norm_num at insufficient

/-- Without limits the search goes on forever, under options that are usable. -/
theorem roaming_runsForever : (factored ⊤).fault? = none ∧
    (Box.unbounded 1 : Box Extended 1).Contains (Vec.ofReal half).numbers ∧
    (roaming ⊤).RunsForever id 1 := by
  have usable := fault?_factored EReal.zero_lt_top
  have inside := (Box.contains_numbers _).2 half_inside
  exact ⟨usable, inside, runsForever_within usable inside one_pos (number_lt.2 one_pos) half id
    (.inl roaming_multiplies)⟩

/-- With a limit the same search terminates. -/
theorem within_terminates_roaming : (factored 1).fault? = none ∧ (factored ⊤).fault? = none ∧
    (Box.unbounded 1 : Box Extended 1).Contains (Vec.ofReal half).numbers ∧ (0 : Extended) < 1 ∧
    (roaming 1).Terminates id 1 ∧ (roaming ⊤).RunsForever id 1 := by
  have limited : (factored 1).fault? = none := fault?_factored one_pos
  have unlimited := fault?_factored EReal.zero_lt_top
  have inside : (Box.unbounded 1 : Box Extended 1).Contains (Vec.ofReal half).numbers :=
    (Box.contains_numbers _).2 half_inside
  have started : (0 : Extended) < 1 := number_lt.2 one_pos
  have finite : (number 1 : Extended) < Scalar.infinity := number_lt.2 (EReal.coe_lt_top 1)
  exact ⟨limited, unlimited, inside, started,
    (within_terminates limited inside one_pos started half id).1 finite finite,
    (within_terminates unlimited inside one_pos started half id).2.2 (.inl roaming_multiplies)⟩

end Roaming

end CauchySearch

end BoxNewton
