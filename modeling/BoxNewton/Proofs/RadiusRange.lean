import Mathlib
import BoxNewton.Proofs.CurrentPoint
import BoxNewton.Proofs.RadiusUpdate

/-!
# The radius stays positive and bounded

Once a radius has been set, the region can be judged, limited, updated, reset and set again in any order,
with any values and norms: when products do not underflow, the radius stays positive and not above the
largest one (`TrustRegion.InRange.after`). A minimization is one such sequence, so this is what every
report says that an observer is shown, and the report at the end (`Solver.solve_inRange`).
-/

set_option autoImplicit false

namespace BoxNewton

open Scalar
open Dialogue (Contract)

variable {α : Type} [Scalar α] {S : Subsolver α} {n : Nat}

/-! ## Sequences of calls -/

namespace TrustRegion

/-- What a region is asked to do. -/
inductive Call (α : Type) (n : Nat) where
  | start (radius : α)
  /-- To judge a step; the gradient is the answer if there is a question. -/
  | rate (t : Trial α) (step gradient : Vec α n)
  | limitBy (norm : α)
  | update (norm : α)
  | reset

/-- The region after a call. A judgement that is refused leaves it alone. -/
def Call.apply (o : RegionOptions α) (region : TrustRegion α) : Call α n → TrustRegion α
  | .start radius => region.start o radius
  | .rate t step gradient =>
    match (region.rate o t step).eval fun _ => gradient with
    | some (some rating) => rating.region
    | _ => region
  | .limitBy norm => region.limitBy norm
  | .update norm => region.update o norm
  | .reset => region.reset

/-- The region after a sequence of calls. -/
def after (o : RegionOptions α) (region : TrustRegion α) (calls : List (Call α n)) : TrustRegion α :=
  calls.foldl (Call.apply o) region

variable {o : RegionOptions α} {region : TrustRegion α} [LawfulProducts α] [NoUnderflow α]

/-- **Every call** keeps the radii in their range, if radii that are set are positive. -/
theorem InRange.apply (usable : o.Usable) (range : region.InRange o) (call : Call α n)
    (positive : ∀ radius, call = .start radius → 0 < radius) :
    (call.apply o region).InRange o := by
  cases call with
  | start radius => exact inRange_start usable region (positive radius rfl)
  | rate t step gradient =>
      unfold Call.apply
      dsimp only
      split
      · rename_i rating judged
        obtain ⟨-, rates⟩ := (rate_keeps o region t step fun _ => True).eval
          (fun _ _ => trivial) judged
        exact range.rated rates
      · exact range
  | limitBy norm => exact range.limitBy norm
  | update norm => exact range.update usable norm
  | reset => exact range.reset

/-- **Every sequence of calls** keeps the radii in their range. -/
theorem InRange.after (usable : o.Usable) (calls : List (Call α n)) (range : region.InRange o)
    (positive : ∀ radius, .start radius ∈ calls → 0 < radius) :
    (region.after o calls).InRange o := by
  induction calls generalizing region with
  | nil => exact range
  | cons call calls ih =>
      refine ih (range.apply usable call ?_) fun radius later =>
        positive radius (List.mem_cons_of_mem call later)
      rintro radius rfl
      exact positive radius List.mem_cons_self

end TrustRegion

/-! ## Runs -/

/-- The report that a question shows. -/
def Query.report? : Query α n → Option (Report α)
  | .observe _ _ report => some report
  | _ => none

/-- The contract to show reports with a positive radius that is not above the largest one. -/
def RegionOptions.reporting (o : RegionOptions α) (n : Nat) :
    Contract (Query α n) Query.Reply Unit :=
  .promising fun q => ∀ report ∈ q.report?, 0 < report.radius ∧ report.radius ≤ o.largestRadius

theorem RegionOptions.reporting_allows {o : RegionOptions α} {q : Query α n}
    (silent : q.report? = none) : (o.reporting n).Allows () q :=
  ⟨fun report here => by simp [silent] at here, fun _ _ => rfl⟩

theorem RegionOptions.permits_reporting (o : RegionOptions α) (x : Vec α n)
    (trial : Vec α n → Prop) : PermitsIteration (o.reporting n) () x trial where
  product _ _ := reporting_allows rfl
  value _ _ := reporting_allows rfl
  gradient _ _ _ := reporting_allows rfl
  valueGradient _ _ _ := reporting_allows rfl

namespace Setting

variable {st : Setting α n} {p : Progress α S n}

/-- The observer does not see the region and leaves it alone. -/
theorem checkpoint_inRange (range : p.state.region.InRange st.options.region) :
    (st.checkpoint p).Keeps (st.options.region.reporting n)
      (fun p' _ => p'.state.region.InRange st.options.region) () := by
  refine ⟨?_, fun _ _ => range⟩
  intro report here
  cases here
  exact ⟨range.radius_pos, range.radius_le⟩

variable [LawfulProducts α] [NoUnderflow α]

theorem Iterates.inRange {σ : Type} {c : Contract (Query α n) Query.Reply σ} {s : σ}
    {trial : Vec α n → Prop} {turn : Turn α S n} (iterates : st.Iterates c s trial p turn)
    (usable : st.options.region.Usable) (range : p.state.region.InRange st.options.region) :
    turn.progress.state.region.InRange st.options.region :=
  iterates.region range fun _ _ _ _ first norm rates => (range.rated rates).revised usable first norm

theorem loop_inRange (usable : st.options.region.Usable) (fuel : Nat)
    (range : p.state.region.InRange st.options.region) :
    (st.loop fuel p).Keeps (st.options.region.reporting n)
      (fun p' _ => p'.state.region.InRange st.options.region) () := by
  refine loop_rule (fun p _ => p.state.region.InRange st.options.region)
    (fun p _ _ => st.options.region.permits_reporting p.x _) (st.lands_anywhere S)
    (fun _ _ => RegionOptions.reporting_allows rfl) ?_ ?_ fuel p () range
  · intro p p' _ range iterates
    exact iterates.inRange usable range
  · intro p p' ratio _ status range iterates _
    exact checkpoint_inRange (iterates.inRange usable range)

end Setting

variable [LawfulProducts α] [NoUnderflow α]

theorem SolverState.minimize_inRange (state : SolverState α S n) (options : Options α)
    (usable : options.region.Usable) (box : Box α n) (start : Vec α n) (fuel : Nat) :
    (state.minimize options box start fuel).Keeps (options.region.reporting n)
      (fun found _ => 0 < found.report.radius ∧ found.report.radius ≤ options.region.largestRadius)
      () := by
  unfold minimize
  have opened : (state.begin options box start fuel).Keeps (options.region.reporting n)
      (fun out _ => out.1.options = options ∧ out.2.state.region.InRange options.region) () := by
    apply begin_keeps state fuel (options.region.permits_reporting _ fun _ => True) trivial
      (fun _ => RegionOptions.reporting_allows rfl)
    intro st p opens
    obtain ⟨idle, started⟩ := opens.region
    have range : p.state.region.InRange options.region :=
      started.symm ▸ TrustRegion.inRange_start usable idle (startRadius_pos _)
    have same := opens.sameOptions
    subst same
    exact (Setting.checkpoint_inRange range).mono fun _ _ kept => ⟨rfl, kept⟩
  refine opened.bind ?_
  rintro ⟨st, p⟩ _ ⟨rfl, range⟩
  refine (Setting.loop_inRange usable fuel range).bind ?_
  exact fun last _ kept => ⟨kept.radius_pos, kept.radius_le⟩

/-- **The radius stays in its range.** After every sequence of calls that starts by setting a radius, and
in every report of a minimization, the radius is positive and not above the largest one. -/
theorem Solver.solve_inRange (solver : Solver α S) (p : Problem α) (dom : Domain α) (x : Array α)
    (fuel : Nat) :
    (∀ (o : RegionOptions α) (region : TrustRegion α) (radius : α)
        (calls : List (TrustRegion.Call α dom.dim)), o.fault? = none → 0 < radius →
      (∀ r, .start r ∈ calls → 0 < r) → ((region.start o radius).after o calls).InRange o) ∧
    (∀ d, solver.solve p dom x fuel = .ok d → d.Keeps (solver.options.region.reporting dom.dim)
      (fun found _ => 0 < found.report.radius ∧
        found.report.radius ≤ solver.options.region.largestRadius) ()) ∧
    ∀ {ω : Type} (observer : Observer α ω) (clock : Clock ω) (w : ω)
      (solution : Solution α S ω dom.dim),
      solver.run p dom x observer clock fuel w = .ok (.ok solution) →
        (∀ y g report, .observe y g report ∈ solution.transcript.asked →
          0 < report.radius ∧ report.radius ≤ solver.options.region.largestRadius) ∧
        0 < solution.report.radius ∧
          solution.report.radius ≤ solver.options.region.largestRadius := by
  have kept : ∀ d, solver.solve p dom x fuel = .ok d →
      d.Keeps (solver.options.region.reporting dom.dim) (fun found _ => 0 < found.report.radius ∧
        found.report.radius ≤ solver.options.region.largestRadius) () := by
    intro d made
    obtain ⟨usable, -⟩ := solve_ok made
    exact solve_keeps (fun _ _ => SolverState.minimize_inRange _ _ (Options.region_usable usable)
      _ _ _) made
  refine ⟨?_, kept, ?_⟩
  · intro o region radius calls usable positive later
    rw [RegionOptions.fault?_eq_none] at usable
    exact (TrustRegion.inRange_start usable region positive).after usable calls later
  · intro ω observer clock w solution ran
    obtain ⟨asked, found, _, -, range, -, same, -⟩ := run_keeps (fun _ _ => True) kept
      (fun _ _ _ _ _ _ _ => ⟨trivial, trivial⟩) trivial ran
    refine ⟨fun y g report shown => ?_, same ▸ range⟩
    obtain ⟨_, promised⟩ := asked _ shown
    exact promised report rfl

/-! ## A start at rest -/

section AtRest

/-- The plain answers of the sphere. -/
noncomputable def sphereAnswer : (q : Query EReal 1) → q.Reply :=
  plainAnswer (fun x => 0.5 * x.normSq) id fun _ v => v

/-- The minimizer of one variable with the standard options, in exact numbers. -/
noncomputable def exactSolver : Solver EReal ConjugateGradient.subsolver := .new _ .standard 1

theorem stationarityAt_zeros :
    stationarityAt (.unbounded 1) (Vec.zeros 1 : Vec EReal 1) (Vec.zeros 1) = 0 := by
  rw [stationarityAt, Vec.zeros_eq_ofReal, ← EReal.coe_one, ← EReal.coe_neg,
    Box.projectedStep_of_contains (Box.contains_unbounded _), Vec.norm_ofReal]
  simp

/-- From the minimum of the sphere, a minimization ends before its first iteration. -/
theorem minimize_atRest : ∃ found, ((exactSolver.state.resize 1).minimize exactSolver.options
    (.unbounded 1) (Vec.zeros 1) 1).eval sphereAnswer = some found := by
  have still : (Box.unbounded 1 : Box EReal 1).project (Vec.zeros 1) = Vec.zeros 1 := by
    rw [Vec.zeros_eq_ofReal]
    exact Box.project_ofReal (Box.contains_unbounded _)
  have reached : (0 : EReal) ≤
      exactSolver.options.absoluteTolerance + exactSolver.options.relativeTolerance * 0 := by
    rw [mul_zero, add_zero]
    change (0 : EReal) ≤ sqrtEpsilon
    rw [sqrtEpsilon_eq, EReal.coe_nonneg]
    norm_num
  have separate : exactSolver.options.combinedEvaluation = false := rfl
  rw [← Option.isSome_iff_exists]
  simp only [SolverState.minimize, SolverState.begin, askStart, separate, still, Setting.verdict,
    Query.askValue, Query.askGradient, Dialogue.eval_bind, Dialogue.eval_remarkWhen,
    Dialogue.eval_remark, Dialogue.eval_question, Dialogue.eval_pure, Option.bind_some,
    Bool.false_eq_true, if_false, sphereAnswer, plainAnswer, id, stationarityAt_zeros]
  rw [if_pos reached]
  rfl

/-- The radii after calls with an infinite value, a step of length zero and a second start are in range,
and so is the radius of the minimization that ends at once. -/
theorem solve_inRange_atRest :
    (RegionOptions.standard : RegionOptions EReal).fault? = none ∧
    ((TrustRegion.initial.start .standard 1).after .standard
      [.rate ⟨0, ⊤, -1, -1⟩ (Vec.zeros 1) (Vec.zeros 1), .update 0, .limitBy (1 / 10), .reset,
        .start 2]).InRange (.standard : RegionOptions EReal) ∧
    ∃ d, exactSolver.solve (.minimize Sphere.objective (.unbounded 1 Nat.one_pos))
        (.unbounded 1 Nat.one_pos) (Vec.zeros 1).toArray 1 = .ok d ∧
      d.Keeps (exactSolver.options.region.reporting 1) (fun found _ => 0 < found.report.radius ∧
        found.report.radius ≤ exactSolver.options.region.largestRadius) () ∧
      ∃ solution, exactSolver.run (.minimize Sphere.objective (.unbounded 1 Nat.one_pos))
          (.unbounded 1 Nat.one_pos) (Vec.zeros 1).toArray .silent .stopped 1 () =
            .ok (.ok solution) ∧
        0 < solution.report.radius ∧
          solution.report.radius ≤ exactSolver.options.region.largestRadius := by
  obtain ⟨calls, dialogues, runs⟩ := exactSolver.solve_inRange
    (.minimize Sphere.objective (.unbounded 1 Nat.one_pos)) (.unbounded 1 Nat.one_pos)
    (Vec.zeros 1).toArray 1
  have usable : (RegionOptions.standard : RegionOptions EReal).fault? = none :=
    RegionOptions.fault?_eq_none.2 RegionOptions.standard_usable
  have positive : ∀ r : EReal, (.start r : TrustRegion.Call EReal 1) ∈
      [TrustRegion.Call.rate ⟨0, ⊤, -1, -1⟩ (Vec.zeros 1) (Vec.zeros 1), .update 0,
        .limitBy (1 / 10), .reset, .start 2] → 0 < r := by
    simp
  have made := exactSolver.solve_eq (.minimize Sphere.objective (.unbounded 1 Nat.one_pos))
    (.unbounded 1 Nat.one_pos) (Vec.zeros 1) 1 rfl Options.fault?_standard
  obtain ⟨found, ended⟩ := minimize_atRest
  obtain ⟨t, ran⟩ := Solver.run_of_eval (Sphere.computes.answer_eq Sphere.product) made ended ()
  exact ⟨usable, calls .standard .initial 1 _ usable one_pos positive, _, made, dialogues _ made,
    _, ran, (runs _ _ _ _ ran).2⟩

end AtRest

end BoxNewton
