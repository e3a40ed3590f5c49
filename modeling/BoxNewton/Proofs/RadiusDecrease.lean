import Mathlib
import BoxNewton.Proofs.Chronicle
import BoxNewton.Proofs.FloatingPoint
import BoxNewton.Proofs.RadiusUpdate
import BoxNewton.Subproblem.ConjugateGradient

/-!
# The radius after a step that is not accepted

A step is rejected when its ratio is not at least the threshold of acceptance, and the radius shrinks
when the ratio is below this threshold. For numbers these are opposites: a step that is rejected with a
ratio that is a number leaves at most a moderate decrease of the radius. A ratio that is not a number is
neither, and the radius that the step was limited to is kept or increased. This holds of every
judgement of a minimization, whatever is answered, for all scalars whose products with factors below
one are monotone (`Solver.solve_retreats`).

The second case is met by an objective that is not a number where the minimization starts
(`nanStart_repeats`): the change of the objective is then not a number at any trial point, and the
radius never shrinks.
-/

set_option autoImplicit false

namespace BoxNewton

open Scalar
open Dialogue (Contract)

variable {α : Type} [Scalar α] {S : Subsolver α} {n : Nat}

/-- Holds when a judgement that does not accept a step shrinks the radius. -/
def Turn.Shrinks (o : RegionOptions α) (before : α) : Turn α S n → Prop
  | .halted _ => True
  | .judged p' ratio => ¬ o.acceptFrom ≤ ratio → p'.state.region.radius ≤ o.mildShrink * before

/-- What a judgement makes of the radius when it does not accept the step. -/
def Turn.Retreats (o : RegionOptions α) (p : Progress α S n) (t : Setting.TrialStep α n) :
    Turn α S n → Prop
  | .halted p' => p'.state.region = p.state.region
  | .judged p' ratio => ¬ o.acceptFrom ≤ ratio → p.Stands p' ∧
      (IsNumber ratio → p'.state.region.radius ≤ o.mildShrink * p.state.region.radius) ∧
      (¬ IsNumber ratio →
        (p.state.region.limited (p.acceptedSteps == 0) t.step.norm).radius ≤
          p'.state.region.radius)

section Judgements

variable [LawfulProducts α] {σ : Type} {st : Setting α n} {c : Contract (Query α n) Query.Reply σ}
  {s : σ} {trial : Vec α n → Prop} {p p' : Progress α S n} {t : Setting.TrialStep α n}

theorem Setting.Iterates.capped {turn : Turn α S n} (iterates : st.Iterates c s trial p turn)
    (usable : st.options.region.Usable) (capped : p.state.region.Capped st.options.region) :
    turn.progress.state.region.Capped st.options.region :=
  iterates.region capped fun _ _ _ _ first norm rates => (capped.rated rates).revised usable first norm

/-- A judgement that does not accept the step retreats. -/
theorem Setting.Judges.retreats {turn : Turn α S n} (tries : st.Tries c s trial p p' t)
    (judges : st.Judges c s p' t turn) (usable : st.options.region.Usable)
    (capped : p.state.region.Capped st.options.region) : turn.Retreats st.options.region p t := by
  cases judges with
  | halted q flat stands region => exact region.trans tries.region
  | accepted q rating rated moves high => exact fun low => absurd high low
  | rejected q rating rated stands low =>
      intro _
      have radius : rating.region.radius = p.state.region.radius :=
        rated.rates.radius.trans (congrArg _ tries.region)
      rw [← tries.region] at capped
      have rerated := capped.rated rated.rates
      refine ⟨tries.stands.trans stands, fun number => ?_, fun special => ?_⟩
      · rw [rated.region, ← radius]
        exact TrustRegion.revised_shrinks usable rerated number low _ _
      · have limited := TrustRegion.limited_congr radius (p.acceptedSteps == 0) t.step.norm
        rw [rated.region, TrustRegion.revised, tries.stands.acceptedSteps, ← limited]
        refine TrustRegion.update_stays usable (rerated.limited _ _) ?_ _
        rwa [TrustRegion.limited_ratio]

/-- **Any number of iterations.** From a capped region, every judgement retreats. -/
theorem Setting.opening_retreats (usable : st.options.region.Usable) (k : Nat)
    (capped : p.state.region.Capped st.options.region) :
    (st.opening k p).Keeps .free
      (fun out _ => ∀ e ∈ out.1, e.IsDescribed (Turn.Retreats st.options.region)) () := by
  refine eachTurn_rule (fun p _ => p.state.region.Capped st.options.region)
    (fun p _ _ => permits_free p.x _) (st.lands_anywhere S) (fun _ _ => ⟨trivial, fun _ _ => rfl⟩)
    (fun p p' t turn _ capped tries judges => judges.retreats tries usable capped) ?_ k p () capped
  intro p p' ratio _ status capped iterates _
  exact ⟨trivial, fun _ _ => iterates.capped usable capped⟩

end Judgements

/-- **Rejected steps and the radius.** Whatever is answered, every step of a minimization that is not
accepted leaves at most a moderate decrease of the radius if its ratio is a number, and at least the
radius that the step was limited to if it is not. -/
theorem Solver.solve_retreats [LawfulProducts α] (solver : Solver α S) (dom : Domain α)
    (start : Vec α dom.dim) (fuel : Nat) (usable : solver.options.fault? = none) :
    (solver.state.resize dom.dim).EachTurn solver.options dom.box start fuel .free
      (Turn.Retreats solver.options.region) () := by
  have inRanges := Options.region_usable usable
  refine SolverState.begin_keeps _ fuel (permits_free _ fun _ => True) trivial
    (fun _ => ⟨trivial, fun _ _ => rfl⟩) ?_
  rintro st p opens
  obtain ⟨idle, started⟩ := opens.region
  rw [← opens.sameOptions] at inRanges started ⊢
  refine ⟨trivial, fun _ _ k => Setting.opening_retreats inRanges k ?_⟩
  change p.state.region.Capped st.options.region
  rw [started]
  exact TrustRegion.capped_start inRanges idle (startRadius_pos _)

/-! ## An objective that is not a number at the start -/

section NanStart

instance (o : RegionOptions α) (before : α) : (turn : Turn α S n) → Decidable (turn.Shrinks o before)
  | .halted _ => isTrue trivial
  | .judged p' ratio =>
    inferInstanceAs (Decidable (¬ o.acceptFrom ≤ ratio →
      p'.state.region.radius ≤ o.mildShrink * before))

/-- The sphere, which is not a number where its value is above one half. -/
def nanValue (x : Vec Float 1) : Float := if 1 < x.normSq then 0.0 / 0.0 else 0.5 * x.normSq

/-- The plain answers of this objective. -/
def nanAnswer : (q : Query Float 1) → q.Reply := plainAnswer nanValue id fun _ v => v

/-- The minimizer that starts where the objective is not a number. -/
def nanSolver : Solver Float ConjugateGradient.subsolver :=
  .new _ { Options.standard with sigma := 2, maxIterations := 1 } 1

/-- The trial point is the minimum and its value is zero, but the step is rejected and the radius stays
what it was. -/
theorem nanStart_repeats :
    ¬ nanSolver.state.EachTurn nanSolver.options (.unbounded 1) #v[2] 9 .free
      (fun p _ turn => turn.Shrinks nanSolver.options.region p.state.region.radius) () := by
  intro each
  have breaks : ((nanSolver.state.begin nanSolver.options (.unbounded 1) #v[2] 9).eval
      nanAnswer).any (fun begun => decide (begun.2.status = .unknown) &&
        ((begun.1.attempt begun.2).eval nanAnswer).any fun tried => tried.assessment.any fun a =>
          ((begun.1.judge a.state a.step).eval nanAnswer).any fun turn =>
            decide ¬ turn.Shrinks nanSolver.options.region begun.2.state.region.radius) = true := by
    decide +kernel
  simp only [Option.any_eq_true, Bool.and_eq_true, decide_eq_true_iff] at breaks
  obtain ⟨⟨st, p⟩, began, going, tried, attempted, a, made, turn, judged, grows⟩ := breaks
  cases tried with
  | underflow q => cases made
  | tried a' =>
      cases made
      exact grows (each.first (fun _ _ => trivial) began going attempted judged)

/-- The options of this minimizer are usable, so all it does is retreat as described. -/
theorem solve_retreats_nanStart : nanSolver.options.fault? = none ∧
    (nanSolver.state.resize 1).EachTurn nanSolver.options (.unbounded 1) #v[2] 9 .free
      (Turn.Retreats nanSolver.options.region) () := by
  have usable : nanSolver.options.fault? = none := by decide
  exact ⟨usable, nanSolver.solve_retreats (.unbounded 1 Nat.one_pos) #v[2] 9 usable⟩

end NanStart

end BoxNewton
