import Mathlib
import BoxNewton.Proofs.TrialSteps

/-!
# What measured steps gain

A step is measured when the objective is finite at both of its ends and round-off dominates neither the
model nor the change of the objective. In exact arithmetic, a measured step that is accepted decreases the
objective by at least the accepted fraction of what the model predicts. The shift by round-off counts
against the step twice, since it is taken off the reduction and added to the prediction, and a decrease
is predicted even with the shift; so the objective falls by more than the shift (`Trial.gains`), which is
never below that of an objective of size one (`Trial.leastShift_le`).

A minimization hands the value on from each iteration to the next, whatever the observer does
(`LeadsTo`). So every measured step that is accepted takes the objective down by more than a fixed amount,
and a minimization without other accepted steps has fallen by this amount for each of them
(`Solver.solve_gains`). Nothing is asked of the objective, the subsolver and the observer.
-/

set_option autoImplicit false

namespace BoxNewton

open Scalar
open Dialogue (Contract keeps_free)

variable {S : Subsolver EReal} {n : Nat}

/-! ## One step -/

namespace Trial

variable {o : RegionOptions EReal} {t : Trial EReal}

/-- The objective is finite at both ends of the step, and its change is measured. -/
structure IsMeasured (t : Trial EReal) : Prop where
  before : IsFinite t.before
  after : IsFinite t.after
  far : ¬ t.IsNearRoundoff

/-- The objective falls by the accepted fraction of the predicted decrease, and by more than the shift. -/
structure Gains (o : RegionOptions EReal) (t : Trial EReal) : Prop where
  sufficient : o.acceptFrom * -t.model + (1 + o.acceptFrom) * t.shift ≤ t.before - t.after
  beyond : t.shift < t.before - t.after

/-- The shift of an objective of size one. -/
noncomputable def leastShift : EReal := epsilon * 10.0

theorem leastShift_eq : leastShift = ((2.220446049250313e-16 * 10.0 : ℝ) : EReal) := by
  rw [leastShift, epsilon_eq, ofScientific_eq, EReal.coe_mul]

theorem leastShift_pos : 0 < leastShift := by
  rw [leastShift_eq, EReal.coe_pos]
  norm_num

theorem leastShift_le (t : Trial EReal) : leastShift ≤ t.shift := by
  have size : 1 ≤ larger (abs t.before) 1 := by
    rw [larger_eq_max]
    exact le_max_right _ _
  have epsilon : (0 : EReal) ≤ epsilon := by
    rw [epsilon_eq, EReal.coe_nonneg]
    norm_num
  have ten : (0 : EReal) ≤ 10.0 := by
    rw [ofScientific_eq, EReal.coe_nonneg]
    norm_num
  have scaled := mul_le_mul_of_nonneg_right size epsilon
  rw [one_mul] at scaled
  exact mul_le_mul_of_nonneg_right scaled ten

/-- A model that is not real predicts no decrease, or one of which nothing is a positive fraction. -/
theorem exists_model_coe {b : ℝ} (before : t.before = b) (descends : t.predicted < 0)
    (positive : 0 < t.actual / t.predicted) : ∃ q : ℝ, t.model = q := by
  rw [predicted, shift_coe before] at descends positive
  cases model : t.model with
  | coe q => exact ⟨q, rfl⟩
  | top =>
      rw [model, EReal.top_sub_coe] at descends
      exact absurd descends not_top_lt
  | bot =>
      rw [model, EReal.bot_sub, EReal.div_bot] at positive
      exact absurd positive (lt_irrefl _)

/-- **What an accepted step gains.** -/
theorem gains (usable : o.Usable) (finite : t.IsMeasured) (descends : t.predicted < 0)
    (high : o.acceptFrom ≤ t.actual / t.predicted) : t.Gains o := by
  have positive := usable.accept_pos
  obtain ⟨b, before⟩ := exists_coe_of_isFinite finite.before
  obtain ⟨a, after⟩ := exists_coe_of_isFinite finite.after
  obtain ⟨q, model⟩ := exists_model_coe before descends (positive.trans_le high)
  obtain ⟨eta, threshold⟩ : ∃ eta : ℝ, o.acceptFrom = eta := by
    refine exists_coe_of_isFinite ⟨bot_lt_iff_ne_bot.2 positive.ne_bot, ?_⟩
    exact (usable.accept_le.trans_lt (usable.shrink_lt.trans usable.grow_lt)).trans
      (EReal.coe_lt_top 1)
  rw [predicted, shift_coe before, model, ← EReal.coe_sub, EReal.coe_neg'] at descends
  rw [actual_coe before after, predicted, shift_coe before, model, ← EReal.coe_sub, ← EReal.coe_div,
    threshold, EReal.coe_le_coe_iff, le_div_iff_of_neg descends] at high
  rw [threshold, EReal.coe_pos] at positive
  constructor
  · rw [threshold, model, before, after, shift_coe before, ← EReal.coe_one]
    norm_cast
    linarith
  · have margin := mul_neg_of_pos_of_neg positive descends
    rw [before, after, shift_coe before, ← EReal.coe_sub, EReal.coe_lt_coe_iff]
    linarith

/-- Between finite values, the fall leaves the later value below the earlier one by a fixed amount. -/
theorem Gains.falls (gains : t.Gains o) (finite : t.IsMeasured) : t.after + leastShift < t.before := by
  obtain ⟨b, before⟩ := exists_coe_of_isFinite finite.before
  obtain ⟨a, after⟩ := exists_coe_of_isFinite finite.after
  have beyond := t.leastShift_le.trans_lt gains.beyond
  rw [before, after, leastShift_eq, ← EReal.coe_sub, EReal.coe_lt_coe_iff] at beyond
  rw [before, after, leastShift_eq, ← EReal.coe_add, EReal.coe_lt_coe_iff]
  linarith

end Trial

/-- A rating that accepts a measured step comes with its gain. -/
theorem TrustRegion.Rates.gains {o : RegionOptions EReal} {region : TrustRegion EReal} {t : Trial EReal}
    {step : Vec EReal n} {known : Vec EReal n → Prop} {rating : Rating EReal n}
    (rates : Rates o region t step known (some rating)) (usable : o.Usable) (measured : t.IsMeasured)
    (high : o.acceptFrom ≤ rating.region.ratio) : t.Gains o := by
  cases rates with
  | infinite descends value => exact absurd measured.after value
  | estimated descends value near g answered => exact absurd near measured.far
  | measured descends value far => exact Trial.gains usable measured descends high

/-! ## One iteration -/

/-- The step of an episode was measured. -/
def Episode.IsMeasured (e : Episode EReal S n) : Prop :=
  ∃ a ∈ e.assessment, (a.step.rated a.state).IsMeasured

/-- An accepted step that was measured gains between the values that the episode starts and ends with, and
takes the objective down by more than a fixed amount. Without an accepted step the value is kept. -/
structure Episode.Falls (e : Episode EReal S n) (o : RegionOptions EReal) : Prop where
  kept : e.turn.accepts o = false → e.turn.progress.value = e.start.value
  gains : e.turn.accepts o = true → ∀ a ∈ e.assessment, (a.step.rated a.state).IsMeasured →
    (a.step.rated a.state).Gains o ∧ (a.step.rated a.state).before = e.start.value ∧
      (a.step.rated a.state).after = e.turn.progress.value ∧
      e.turn.progress.value + Trial.leastShift < e.start.value

namespace Setting

variable {st : Setting EReal n} {p : Progress EReal S n}

/-- **One iteration** keeps the value, or gains if its step was measured. -/
theorem iterateRecorded_falls (usable : st.options.region.Usable) (p : Progress EReal S n) :
    (st.iterateRecorded p).Keeps .free
      (fun e _ => e.start = p ∧ e.Falls st.options.region) () := by
  have judged := iterateRecorded_judges (permits_free p.x fun _ => True) (st.lands_anywhere S)
  refine ((st.iterateRecorded_records p).and judged).mono ?_
  rintro e _ ⟨records, judged⟩
  refine ⟨records.start, ⟨fun kept => ?_, fun accepted a member measured => ?_⟩⟩
  · rw [records.start]
    exact (records.stands kept).value
  · obtain ⟨-, judges⟩ := judged a member
    cases records with
    | underflow p' inner stands => cases member
    | assessed a' turn stands inner point step model carries =>
        cases member
        have after : (a.step.rated a.state).after = turn.progress.value :=
          (carries.value accepted).symm
        cases judges with
        | halted q flat stands region status => cases accepted
        | rejected q rating rated stands low => exact absurd (of_decide_eq_true accepted) low
        | accepted q rating rated moves high =>
            have gains := rated.rates.gains usable measured high
            refine ⟨gains, stands.value, after, ?_⟩
            have falls := gains.falls measured
            rwa [after, show (a.step.rated a.state).before = p.value from stands.value] at falls

end Setting

/-! ## Runs -/

/-- The value is handed on: each episode starts with the value that the one before it ended with. -/
def LeadsTo (first : EReal) : List (Episode EReal S n) → EReal → Prop
  | [], last => first = last
  | e :: later, last => e.start.value = first ∧ LeadsTo e.turn.progress.value later last

theorem LeadsTo.append {first middle : EReal} {episodes : List (Episode EReal S n)}
    (leads : LeadsTo first episodes middle) {e : Episode EReal S n} (start : e.start.value = middle) :
    LeadsTo first (episodes ++ [e]) e.turn.progress.value := by
  induction episodes generalizing first with
  | nil => exact ⟨start.trans (Eq.symm leads), rfl⟩
  | cons e' later ih => exact ⟨leads.1, ih leads.2⟩

/-- **A run without other accepted steps** falls by a fixed amount for each of them. -/
theorem LeadsTo.falls {o : RegionOptions EReal} {first last : EReal} {episodes : List (Episode EReal S n)}
    (leads : LeadsTo first episodes last) (falls : ∀ e ∈ episodes, e.Falls o)
    (measured : ∀ e ∈ episodes, e.turn.accepts o = true → e.IsMeasured) :
    last + (episodes.countP fun e => e.turn.accepts o) • Trial.leastShift ≤ first := by
  induction episodes generalizing first with
  | nil =>
      rw [List.countP_nil, zero_nsmul, add_zero]
      exact (Eq.symm leads).le
  | cons e later ih =>
      obtain ⟨rfl, rest⟩ := leads
      have here := falls e List.mem_cons_self
      have after := ih rest (fun e' member => falls e' (List.mem_cons_of_mem e member))
        fun e' member => measured e' (List.mem_cons_of_mem e member)
      cases accepted : e.turn.accepts o with
      | false =>
          simp only [List.countP_cons, accepted, Bool.false_eq_true, if_false, Nat.add_zero]
          exact after.trans (here.kept accepted).le
      | true =>
          obtain ⟨a, member, finite⟩ := measured e List.mem_cons_self accepted
          obtain ⟨-, -, -, fallen⟩ := here.gains accepted a member finite
          simp only [List.countP_cons, accepted, if_true, succ_nsmul, ← add_assoc]
          exact (add_le_add_left after _).trans fallen.le

/-- What the episodes of a minimization do to the objective. -/
structure FallsThroughout (o : RegionOptions EReal) (first : EReal) (episodes : List (Episode EReal S n))
    (last : EReal) : Prop where
  falls : ∀ e ∈ episodes, e.Falls o
  leads : LeadsTo first episodes last
  total : (∀ e ∈ episodes, e.turn.accepts o = true → e.IsMeasured) →
    last + (episodes.countP fun e => e.turn.accepts o) • Trial.leastShift ≤ first

section Runs

variable {st : Setting EReal n} {p : Progress EReal S n}

/-- Between two iterations the value is kept. -/
theorem Setting.conclude_value (st : Setting EReal n) (p : Progress EReal S n) (ratio : EReal) :
    (st.conclude p ratio).Keeps .free (fun p' _ => p'.value = p.value) () := by
  refine conclude_keeps (fun _ => ⟨trivial, fun _ _ => rfl⟩) ratio ?_
  intro status _
  exact ⟨trivial, fun seen _ => rfl⟩

/-- **Any number of iterations** hand the value on, and each of them falls. -/
theorem Setting.opening_falls (usable : st.options.region.Usable) (k : Nat) (p : Progress EReal S n) :
    (st.opening k p).Keeps .free (fun out _ => (∀ e ∈ out.1, e.Falls st.options.region) ∧
      LeadsTo p.value out.1 out.2.value) () := by
  refine opening_rule (fun episodes last _ => (∀ e ∈ episodes, e.Falls st.options.region) ∧
    LeadsTo p.value episodes last.value) ?_ k [] p ()
      ⟨fun _ none => absurd none List.not_mem_nil, rfl⟩
  rintro before q _ ⟨falls, leads⟩ _
  refine (iterateRecorded_falls usable q).mono ?_
  rintro e _ ⟨rfl, here⟩
  have after := leads.append (e := e) rfl
  have falls' : ∀ e' ∈ before ++ [e], e'.Falls st.options.region := by
    intro e' member
    rcases List.mem_append.1 member with earlier | last
    · exact falls e' earlier
    · rw [List.mem_singleton.1 last]
      exact here
  constructor
  · rintro p' halted
    rw [halted] at after
    exact ⟨falls', after⟩
  · rintro p' ratio judged
    rw [judged] at after
    refine (st.conclude_value p' ratio).mono ?_
    intro last _ same
    exact ⟨falls', same.symm ▸ after⟩

theorem SolverState.throughout_falls (state : SolverState EReal S n) (options : Options EReal)
    (usable : options.region.Usable) (box : Box EReal n) (start : Vec EReal n) (fuel : Nat) :
    state.Throughout options box start fuel .free
      (fun episodes p => ∃ first, FallsThroughout options.region first episodes p.value) () := by
  refine begin_keeps state fuel (permits_free _ fun _ => True) trivial
    (fun _ => ⟨trivial, fun _ _ => rfl⟩) ?_
  intro st p opens
  refine ⟨trivial, fun seen _ k => ?_⟩
  have same := opens.sameOptions
  subst same
  refine (Setting.opening_falls usable k _).mono ?_
  rintro ⟨episodes, last⟩ _ ⟨falls, leads⟩
  exact ⟨_, falls, leads, leads.falls falls⟩

end Runs

/-- **Measured steps gain.** Whatever is answered, in every iteration of a minimization whose step was
accepted and measured, the objective falls by the accepted fraction of the predicted decrease and by more
than the shift, so by more than a fixed positive amount; in every other iteration without an accepted
step it is kept. The iterations hand the value on, and if all accepted steps were measured the objective
has fallen by this amount for each of them. This holds after any number of iterations, and of the episodes
of every run. -/
theorem Solver.solve_gains (solver : Solver EReal S) (p : Problem EReal) (dom : Domain EReal)
    (start : Vec EReal dom.dim) (fuel : Nat) (usable : solver.options.fault? = none) :
    0 < Trial.leastShift ∧
    (solver.state.resize dom.dim).Throughout solver.options dom.box start fuel .free
      (fun episodes p => ∃ first, FallsThroughout solver.options.region first episodes p.value) () ∧
    ∀ {ω : Type} (observer : Observer EReal ω) (clock : Clock ω) (w : ω)
      (solution : Solution EReal S ω dom.dim),
      solver.run p dom start.toArray observer clock fuel w = .ok (.ok solution) →
        ∃ episodes first,
          solver.HasChronicle p dom start.toArray observer clock fuel w solution episodes ∧
          FallsThroughout solver.options.region first episodes solution.report.objective := by
  have throughout := (solver.state.resize dom.dim).throughout_falls solver.options
    (Options.region_usable usable) dom.box start fuel
  refine ⟨Trial.leastShift_pos, throughout, ?_⟩
  intro ω observer clock w solution ran
  obtain ⟨episodes, chronicle⟩ := exists_chronicle ran
  obtain ⟨last, ⟨first, falls⟩, -, report, -⟩ :=
    chronicle.described (fun _ _ _ _ _ => trivial) throughout
  exact ⟨episodes, first, chronicle, report ▸ falls⟩

/-- The step that halves the distance is accepted and measured, so it gains. -/
theorem solve_gains_halving : (halfSolver .exact).options.fault? = none ∧
    ∃ solution e first, (halfSolver .exact).run halfProblem halfDomain (entry 1).toArray .silent
        .stopped 9 () = .ok (.ok solution) ∧
      (halfSolver .exact).HasChronicle halfProblem halfDomain (entry 1).toArray .silent .stopped 9 ()
        solution [e] ∧
      e.turn.accepts (halfSolver .exact).options.region = true ∧ e.IsMeasured ∧
      FallsThroughout (halfSolver .exact).options.region first [e] solution.report.objective := by
  have unit : Vec.ActsBy (HessianModel.exact.operator sphereHessian (entry 1)) id := fun _ => rfl
  have usable : (halfSolver .exact).options.fault? = none := Options.fault?_standard
  obtain ⟨solution, e, ran, chronicle, -, accepted, -, -, a, member, step, stands⟩ := half_runs unit
  have measured : (a.step.rated a.state).IsMeasured := by
    have before : IsFinite a.state.value := stands.value ▸ isFinite_coe _
    have after : IsFinite halfTrial.value := isFinite_coe _
    rw [step]
    exact ⟨before, after, half_far stands⟩
  obtain ⟨-, -, runs⟩ := (halfSolver .exact).solve_gains halfProblem halfDomain (entry 1) 9 usable
  obtain ⟨episodes, first, chronicle', falls⟩ := runs .silent .stopped () solution ran
  obtain rfl := chronicle.unique chronicle'
  exact ⟨usable, solution, e, first, ran, chronicle, accepted, ⟨a, member, measured⟩, falls⟩

end BoxNewton
