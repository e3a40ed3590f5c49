import Mathlib
import BoxNewton.Proofs.Run
import BoxNewton.Proofs.SideBySide

/-!
# Two minimizations side by side

Two minimizations may differ in what they do not read, or read only after they have overwritten it: the
vectors that answers are written into, the ratio and the interpolation of the trust region, what the
subsolver keeps. They may also get the gradient at a trial point at different times, and count it
differently. As long as their states agree in everything else, they go on alike.

A comparison has to say what may differ (`Kinship`) and to show that the questions about the objective keep
it up (`Interplay`). From this the rest follows part by part, up to the whole minimization
(`SolverState.minimize_alike`). The search for the Cauchy step and the refinement are compared by the
directions of the products that they ask for.
-/

set_option autoImplicit false

namespace BoxNewton

open Dialogue (Comparison Alike alike_refl alike_pure alike_remark alike_remarkWhen alike_addCount)

variable {α : Type} [Scalar α] {S : Subsolver α} {n : Nat} {View : Type}

/-! ## Products -/

section Products

omit [Scalar α] in
/-- The vector that a product replaces is not seen. -/
theorem Product.request_alike (v out out' : Vec α n) :
    Alike (.seeing Product.direction) Eq (request v out) (request v out') := by
  have shared : (Comparison.seeing direction : Comparison (Product α n) (fun _ => Vec α n) _).Shares
      ⟨v, out⟩ ⟨v, out'⟩ := ⟨v, rfl, rfl⟩
  exact (Dialogue.alike_question shared rfl).mono fun _ _ same => same.symm

/-- The search for the Cauchy step does not depend on the vector that its first product replaces. -/
theorem CauchySearch.find_alike (search : CauchySearch α n) (fuel : Nat) (length : α)
    (hs hs' : Vec α n) :
    Alike (.seeing Product.direction) Eq (search.find fuel length hs)
      (search.find fuel length hs') := by
  unfold find measure ModelValue.measure
  simp only [bind_assoc]
  exact (Product.request_alike _ hs hs').bind_eq fun _ => alike_refl _ _

/-- Holds when the subsolver answers alike from states that are related. -/
def Subsolver.Respects (S : Subsolver α) (kin : S.State → S.State → Prop) : Prop :=
  ∀ {n : Nat} (w w' : S.State) (b : Vec α n) (radius tolerance : α) (limit : Nat) (out : Vec α n),
    kin w w' → Alike (.seeing Product.direction)
      (fun found found' => found.1 = found'.1 ∧ kin found.2 found'.2)
      (S.solve w b radius tolerance limit out) (S.solve w' b radius tolerance limit out)

omit [Scalar α] in
theorem Subsolver.respects_eq (S : Subsolver α) : S.Respects Eq := by
  rintro n w _ b radius tolerance limit out rfl
  refine (alike_refl _ _).mono ?_
  rintro found _ rfl
  exact ⟨rfl, rfl⟩

namespace Refinement

variable {kin : S.State → S.State → Prop} (r : Refinement α n)

/-- Holds when two states differ at most in what the subsolver keeps. -/
def State.Kin (kin : S.State → S.State → Prop) (st st' : State α n S.State) : Prop :=
  ∃ w, st' = { st with subsolver := w } ∧ kin st.subsolver w

theorem direct_alike (respects : S.Respects kin) (fuel : Nat) {st st' : State α n S.State}
    (same : State.Kin kin st st') (free : IndexSet (Fin n)) :
    Alike (.seeing Product.direction)
      (fun out out' => out.1.1 = out'.1.1 ∧ kin out.1.2 out'.1.2 ∧ out.2 = out'.2)
      (r.direct S fuel st free) (r.direct S fuel st' free) := by
  obtain ⟨w, rfl, same⟩ := same
  unfold direct
  refine (respects _ _ _ _ _ _ _ same).bind ?_
  rintro ⟨⟨result, d⟩, kept⟩ ⟨_, kept'⟩ ⟨rfl, after⟩
  exact (alike_refl _ _).bind_eq fun _ => alike_pure ⟨rfl, after, rfl⟩

theorem pass_alike (respects : S.Respects kin) (fuel : Nat) {st st' : State α n S.State}
    (same : State.Kin kin st st') (free : IndexSet (Fin n)) :
    Alike (.seeing Product.direction)
      (fun out out' => State.Kin kin out.1 out'.1 ∧ out.2 = out'.2)
      (r.pass S fuel st free) (r.pass S fuel st' free) := by
  have direct := r.direct_alike respects fuel same free
  obtain ⟨w, rfl, -⟩ := same
  unfold pass
  refine (direct.through Eq ?_ rfl).bind ?_
  · rintro q q' full _ sees rfl
    refine Alike.bind_eq ?_ fun _ => alike_pure ⟨rfl, rfl⟩
    rw [show q.direction = q'.direction from sees]
    exact Product.request_alike _ _ _
  · rintro ⟨⟨⟨result, kept⟩, found⟩, full⟩ ⟨⟨⟨_, kept'⟩, _⟩, _⟩ ⟨⟨same, after, here⟩, -⟩
    cases same
    cases here
    refine (alike_addCount _ _).bind_eq fun iterations => ?_
    refine (Product.request_alike _ _ _).bind_eq fun hs => ?_
    exact (alike_remark _ _).bind_eq fun _ => alike_pure ⟨⟨kept', rfl, after⟩, rfl⟩

/-- The refinement does not depend on what the subsolver keeps. -/
theorem run_alike (respects : S.Respects kin) (fuel : Nat) {st st' : State α n S.State}
    (same : State.Kin kin st st') :
    Alike (.seeing Product.direction)
      (fun out out' => out.1 = out'.1 ∧ State.Kin kin out.2 out'.2)
      (r.run S fuel st) (r.run S fuel st') := by
  induction fuel generalizing st st' with
  | zero => exact .exhausted
  | succ fuel ih =>
      have passes := r.pass_alike respects fuel same (r.freeVariables st)
      obtain ⟨w, rfl, kin⟩ := same
      unfold run
      refine Alike.ite Iff.rfl (fun _ => ?_) fun _ => ?_
      · exact (alike_remark _ _).bind_eq fun _ => alike_pure ⟨rfl, w, rfl, kin⟩
      · refine passes.bind ?_
        rintro ⟨st, result, start, residual⟩ ⟨st', _⟩ ⟨same, rfl⟩
        have goes := ih same
        obtain ⟨w, rfl, kin⟩ := same
        refine Alike.ite Iff.rfl (fun _ => alike_pure ⟨rfl, w, rfl, kin⟩) fun _ => ?_
        refine Alike.ite Iff.rfl (fun _ => alike_pure ⟨rfl, w, rfl, kin⟩) fun _ => ?_
        exact Alike.ite Iff.rfl (fun _ => alike_pure ⟨rfl, w, rfl, kin⟩) fun _ => goes

end Refinement

end Products

/-! ## What may differ -/

/-- The same options, but for whether values and gradients are asked for together. -/
def Options.asking (options : Options α) (combined : Bool) : Options α :=
  { options with combinedEvaluation := combined }

/-- The same setting, but for whether values and gradients are asked for together. -/
def Setting.asking (st : Setting α n) (combined : Bool) : Setting α n :=
  { st with options := st.options.asking combined }

/-- The parts of a state in which two minimizations may differ. -/
structure Unshared (α : Type) (S : Subsolver α) (n : Nat) where
  gradients : Nat
  ratio : α
  interpolation : α
  subsolver : S.State
  buffers : Buffers α n

/-- The same state, but for the parts that may differ. -/
def Progress.having (p : Progress α S n) (u : Unshared α S n) : Progress α S n :=
  { p with
    evaluations.gradient := u.gradients
    state.region.ratio := u.ratio
    state.region.interpolation := u.interpolation
    state.subsolver := u.subsolver
    state.buffers := u.buffers }

/-- How the parts that may differ are related. -/
structure Kinship (α : Type) (S : Subsolver α) (n : Nat) where
  /-- The numbers of gradients. -/
  counts : Nat → Nat → Prop
  /-- What the subsolver keeps. -/
  kin : S.State → S.State → Prop
  /-- The buffers for gradients that come with values, after an evaluation at a point. -/
  fetched : Vec α n → Vec α n → Vec α n → Prop

/-- Holds when two states agree but for related parts that may differ. -/
def Kinship.Relates (k : Kinship α S n) (p p' : Progress α S n) : Prop :=
  ∃ u, p' = p.having u ∧ k.counts p.evaluations.gradient u.gradients ∧
    k.kin p.state.subsolver u.subsolver

/-- What a comparison has to show of the questions of two minimizations with these options, of which the
second one asks for values and gradients together or not. -/
structure Interplay (c : Comparison (Query α n) Query.Reply View) (k : Kinship α S n)
    (options : Options α) (combined : Bool) : Prop where
  product : ∀ x v out out', c.Shares (.product x v out) (.product x v out')
  clock : ∀ limit, c.Shares (.outOfTime limit) (.outOfTime limit)
  shown : ∀ x g (report : Report α) gradients, k.counts report.evaluations.gradient gradients →
    c.Shares (.observe x g report)
      (.observe x g { report with evaluations.gradient := gradients })
  respects : S.Respects k.kin
  counted : k.counts 1 1
  start : ∀ x out out', Alike c Eq (askStart options x out) (askStart (options.asking combined) x out')
  evaluate : ∀ (st : Setting α n) (p p' : Progress α S n) y, st.options = options →
    k.Relates p p' →
      Alike c (fun out out' => out.1 = out'.1 ∧ k.Relates out.2 out'.2 ∧
          k.fetched y out.2.state.buffers.combined out'.2.state.buffers.combined)
        (st.evaluate p y) ((st.asking combined).evaluate p' y)
  atTrial : ∀ (st : Setting α n) y b b' asked asked', st.options = options →
    k.fetched y b.combined b'.combined → k.counts asked asked' →
      Alike c (fun out out' => out.1 = out'.1 ∧ k.counts out.2 out'.2)
        (st.gradientAtTrial b y () asked) ((st.asking combined).gradientAtTrial b' y () asked')
  accepted : ∀ (st : Setting α n) (p p' : Progress α S n) y judged, st.options = options →
    k.Relates p p' → k.fetched y p.state.buffers.combined p'.state.buffers.combined →
      Alike c (fun out out' => out.1 = out'.1 ∧ k.Relates out.2 out'.2)
        (st.acceptedGradient p y judged) ((st.asking combined).acceptedGradient p' y judged)

/-! ## Iterations -/

section Iterations

variable {c : Comparison (Query α n) Query.Reply View} {k : Kinship α S n} {combined : Bool}
  {st : Setting α n} {p p' : Progress α S n}

theorem HessianModel.answer_alike (model : HessianModel α n) {x : Vec α n}
    (product : ∀ v out out', c.Shares (.product x v out) (.product x v out'))
    (q q' : Product α n) (asked : Nat) (sees : q.direction = q'.direction) :
    Alike c Eq (model.answer x q asked) (model.answer x q' asked) := by
  cases model with
  | exact =>
      unfold answer
      rw [sees]
      refine (Dialogue.alike_question (product q'.direction q.out q'.out) rfl).bind ?_
      rintro hv _ rfl
      exact alike_pure rfl
  | secant memory =>
      unfold answer
      rw [sees]
      exact alike_pure rfl

theorem HessianModel.through_alike {β γ : Type} {post : β → γ → Prop} (model : HessianModel α n)
    {x : Vec α n} (product : ∀ v out out', c.Shares (.product x v out) (.product x v out'))
    {d : OperatorDialogue α n β} {d' : OperatorDialogue α n γ}
    (alike : Alike (.seeing Product.direction) post d d') (asked : Nat) :
    Alike c (fun out out' => post out.1 out'.1 ∧ out.2 = out'.2)
      (d.through (model.answer x) asked) (d'.through (model.answer x) asked) := by
  refine alike.through Eq ?_ rfl
  rintro q q' asked _ sees rfl
  refine (model.answer_alike product q q' asked sees).mono ?_
  rintro out _ rfl
  exact ⟨rfl, rfl⟩

theorem HessianModel.learn_alike (model : HessianModel α n) (pair : SecantPair α n) :
    Alike c Eq (model.learn pair) (model.learn pair) := by
  cases model with
  | exact => exact alike_pure rfl
  | secant memory => exact (alike_remarkWhen _ _ _ _).bind_eq fun _ => alike_pure rfl

/-- Holds when two assessments are of the same trial step, from related states. -/
structure Kinship.Assesses (k : Kinship α S n) (a a' : Assessment α S n) : Prop where
  related : k.Relates a.state a'.state
  step : a.step = a'.step
  given : k.fetched a.step.point a.state.state.buffers.combined a'.state.state.buffers.combined

/-- The ways in which two attempts end alike. -/
inductive Kinship.Tries (k : Kinship α S n) : Attempt α S n → Attempt α S n → Prop where
  | underflow {p p' : Progress α S n} (related : k.Relates p p') :
      Tries k (.underflow p) (.underflow p')
  | tried {a a' : Assessment α S n} (assesses : k.Assesses a a') : Tries k (.tried a) (.tried a')

/-- The ways in which two iterations end alike. -/
inductive Kinship.Ends (k : Kinship α S n) : Turn α S n → Turn α S n → Prop where
  | halted {p p' : Progress α S n} (related : k.Relates p p') : Ends k (.halted p) (.halted p')
  | judged {p p' : Progress α S n} (related : k.Relates p p') (ratio : α) :
      Ends k (.judged p ratio) (.judged p' ratio)

namespace Setting

theorem updateRadius_alike (st : Setting α n) (p p' : Progress α S n)
    (same : p.acceptedSteps = p'.acceptedSteps) (region : TrustRegion α) (norm : α) :
    Alike c Eq (st.updateRadius p region norm)
      ((st.asking combined).updateRadius p' region norm) := by
  unfold updateRadius
  rw [same]
  refine (alike_remarkWhen _ _ _ _).bind_eq fun _ => ?_
  exact (alike_remark _ _).bind_eq fun _ => alike_pure rfl

theorem accept_alike (plays : Interplay c k st.options combined) (related : k.Relates p p')
    (t : TrialStep α n)
    (given : k.fetched t.point p.state.buffers.combined p'.state.buffers.combined)
    (judged : Option (Vec α n)) :
    Alike c k.Relates (st.accept p t judged) ((st.asking combined).accept p' t judged) := by
  unfold accept
  refine (plays.accepted st p p' t.point judged rfl related given).bind ?_
  rintro ⟨g, p⟩ ⟨_, _⟩ ⟨rfl, u, rfl, counts, kin⟩
  refine (HessianModel.learn_alike _ _).bind_eq fun model => ?_
  refine (alike_remark _ _).bind_eq fun _ => alike_pure ?_
  exact ⟨{ u with buffers.accepted := g }, rfl, counts, kin⟩

theorem judge_alike (plays : Interplay c k st.options combined) (related : k.Relates p p')
    (t : TrialStep α n)
    (given : k.fetched t.point p.state.buffers.combined p'.state.buffers.combined) :
    Alike c k.Ends (st.judge p t) ((st.asking combined).judge p' t) := by
  obtain ⟨u, rfl, counts, kin⟩ := related
  unfold judge
  refine (Alike.through k.counts ?_ (alike_refl (fun _ : Unit => ()) _) counts).bind ?_
  · rintro _ _ asked asked' - counts
    exact plays.atTrial st t.point _ _ asked asked' rfl given counts
  · rintro ⟨rated, gradients⟩ ⟨_, gradients'⟩ ⟨same, counts⟩
    cases same
    cases rated with
    | none =>
        refine (alike_remark _ _).bind_eq fun _ => alike_pure (.halted ?_)
        exact ⟨{ u with gradients := gradients' }, rfl, counts, kin⟩
    | some rating =>
        obtain ⟨rated, gt⟩ := rating
        refine (updateRadius_alike st _ _ rfl rated _).bind_eq fun region => ?_
        have related : k.Relates
            { p with
              evaluations.gradient := gradients
              state.region := region
              state.buffers.judged := gt.getD p.state.buffers.judged }
            { p.having u with
              evaluations.gradient := gradients'
              state.region := region
              state.buffers.judged := gt.getD u.buffers.judged } :=
          ⟨⟨gradients', region.ratio, region.interpolation, u.subsolver,
            { u.buffers with judged := gt.getD u.buffers.judged }⟩, rfl, counts, kin⟩
        refine Alike.ite Iff.rfl (fun _ => ?_) fun _ => ?_
        · refine (accept_alike plays related t given gt).bind ?_
          intro q q' related
          exact alike_pure (.judged related rated.ratio)
        · exact (alike_remark _ _).bind_eq fun _ => alike_pure (.judged related rated.ratio)

theorem assess_alike (plays : Interplay c k st.options combined) (related : k.Relates p p')
    {out out' : (RefinementStatus × Refinement.State α n S.State) × Nat}
    (same : out.1.1 = out'.1.1 ∧ Refinement.State.Kin k.kin out.1.2 out'.1.2 ∧ out.2 = out'.2) :
    Alike c k.Assesses (st.assess p out) ((st.asking combined).assess p' out') := by
  obtain ⟨u, rfl, counts, -⟩ := related
  obtain ⟨⟨status, refined⟩, products⟩ := out
  obtain ⟨⟨_, _⟩, _⟩ := out'
  obtain ⟨rfl, ⟨w, rfl, kin⟩, rfl⟩ := same
  unfold assess
  refine (alike_addCount _ _).bind_eq fun innerIterations => ?_
  refine (alike_remark _ _).bind_eq fun _ => ?_
  have related : k.Relates
      { p with
        evaluations.product := p.evaluations.product + products
        innerIterations
        state.subsolver := refined.subsolver
        state.buffers.image := refined.hs }
      { p.having u with
        evaluations.product := p.evaluations.product + products
        innerIterations
        state.subsolver := w
        state.buffers.image := refined.hs } :=
    ⟨{ u with subsolver := w, buffers.image := refined.hs }, rfl, counts, kin⟩
  refine (plays.evaluate st _ _ refined.x rfl related).bind ?_
  rintro ⟨fx, q⟩ ⟨_, q'⟩ ⟨rfl, related, given⟩
  obtain ⟨v, rfl, -⟩ := id related
  exact alike_pure ⟨related, rfl, given⟩

theorem attempt_alike (plays : Interplay c k st.options combined) (related : k.Relates p p') :
    Alike c k.Tries (st.attempt p) ((st.asking combined).attempt p') := by
  obtain ⟨u, rfl, counts, kin⟩ := related
  unfold attempt
  have searches := (st.cauchySearch p).find_alike st.fuel p.state.cauchyLength
    p.state.buffers.image u.buffers.image
  refine (HessianModel.through_alike p.state.model (plays.product p.x) searches 0).bind ?_
  rintro ⟨found, products⟩ ⟨_, _⟩ ⟨rfl, rfl⟩
  cases found with
  | underflow length image =>
      refine (alike_remark _ _).bind_eq fun _ => alike_pure (.underflow ?_)
      exact ⟨{ u with buffers.image := image }, rfl, counts, kin⟩
  | found length cauchy image =>
      have starts : Refinement.State.Kin k.kin
          ⟨st.box.project (p.x + cauchy), cauchy, image, 0, p.state.subsolver⟩
          ⟨st.box.project (p.x + cauchy), cauchy, image, 0, u.subsolver⟩ := ⟨u.subsolver, rfl, kin⟩
      have refines := (st.refinement p).run_alike plays.respects st.fuel starts
      have related : k.Relates { p with state.cauchyLength := length }
          { p.having u with state.cauchyLength := length } := ⟨u, rfl, counts, kin⟩
      refine (HessianModel.through_alike p.state.model (plays.product p.x) refines products).bind ?_
      rintro out out' ⟨⟨status, ended⟩, counted⟩
      refine (assess_alike plays related ⟨status, ended, counted⟩).bind ?_
      exact fun a a' assesses => alike_pure (.tried assesses)

/-- **Iterations from related states end alike.** -/
theorem iterate_alike (plays : Interplay c k st.options combined) (related : k.Relates p p') :
    Alike c k.Ends (st.iterate p) ((st.asking combined).iterate p') := by
  refine (attempt_alike plays related).bind ?_
  rintro _ _ (⟨related⟩ | @⟨a, a', assesses⟩)
  · exact alike_pure (.halted related)
  · change Alike c k.Ends (st.judge a.state a.step) ((st.asking combined).judge a'.state a'.step)
    rw [← assesses.step]
    exact judge_alike plays assesses.related a.step assesses.given

/-! ## Runs -/

theorem verdict_alike (plays : Interplay c k st.options combined) (related : k.Relates p p') :
    Alike c Eq (st.verdict p) ((st.asking combined).verdict p') := by
  obtain ⟨u, rfl, -⟩ := related
  unfold verdict
  refine Alike.ite Iff.rfl (fun _ => alike_pure rfl) fun _ => ?_
  refine Alike.ite Iff.rfl (fun _ => alike_pure rfl) fun _ => ?_
  refine Alike.ite Iff.rfl (fun _ => alike_pure rfl) fun _ => ?_
  refine (Dialogue.alike_question (plays.clock st.options.maxTime) rfl).bind ?_
  rintro late _ rfl
  refine Alike.ite Iff.rfl (fun _ => alike_pure rfl) fun _ => ?_
  exact Alike.ite Iff.rfl (fun _ => alike_pure rfl) fun _ => alike_pure rfl

/-- Related states are shown alike. -/
theorem checkpoint_alike (plays : Interplay c k st.options combined) (related : k.Relates p p') :
    Alike c k.Relates (st.checkpoint p) ((st.asking combined).checkpoint p') := by
  obtain ⟨u, rfl, counts, kin⟩ := related
  unfold checkpoint
  refine (Dialogue.alike_question (plays.shown p.x p.g p.report u.gradients counts) rfl).bind ?_
  rintro seen _ rfl
  exact alike_pure ⟨u, rfl, counts, kin⟩

theorem conclude_alike (plays : Interplay c k st.options combined) (related : k.Relates p p')
    (ratio : α) :
    Alike c k.Relates (st.conclude p ratio) ((st.asking combined).conclude p' ratio) := by
  obtain ⟨u, rfl, counts, kin⟩ := related
  have related : k.Relates { p with iteration := p.iteration + 1 }
      { p.having u with iteration := p.iteration + 1 } := ⟨u, rfl, counts, kin⟩
  unfold conclude
  refine Alike.bind_eq (verdict_alike plays related) fun status => ?_
  refine (alike_remarkWhen _ _ _ _).bind_eq fun _ => ?_
  exact checkpoint_alike plays ⟨u, rfl, counts, kin⟩

/-- **Loops from related states are alike.** -/
theorem loop_alike (plays : Interplay c k st.options combined) (fuel : Nat)
    (related : k.Relates p p') :
    Alike c k.Relates (st.loop fuel p) ((st.asking combined).loop fuel p') := by
  induction fuel generalizing p p' with
  | zero =>
      obtain ⟨u, rfl, here⟩ := related
      unfold loop
      exact Alike.ite Iff.rfl (fun _ => alike_pure ⟨u, rfl, here⟩) fun _ => .exhausted
  | succ fuel ih =>
      have turns := iterate_alike plays related
      obtain ⟨u, rfl, here⟩ := related
      unfold loop
      refine Alike.ite Iff.rfl (fun _ => alike_pure ⟨u, rfl, here⟩) fun _ => ?_
      refine turns.bind ?_
      rintro _ _ (⟨related⟩ | ⟨related, ratio⟩)
      · exact alike_pure related
      · exact (conclude_alike plays related ratio).bind fun _ _ related => ih related

end Setting

/-- Holds when two states in which a minimization may start agree in the model of the Hessian, and what
the subsolver keeps is related. -/
def Kinship.Starts (k : Kinship α S n) (state state' : SolverState α S n) : Prop :=
  state'.model = state.model ∧ k.kin state.subsolver state'.subsolver

/-- Holds when two minimizations come to the same but for the number of gradients. -/
def Kinship.Finds (k : Kinship α S n) (found found' : Minimum α S n) : Prop :=
  found'.x = found.x ∧ found'.state.model = found.state.model ∧
    ∃ gradients, k.counts found.report.evaluations.gradient gradients ∧
      found'.report = { found.report with evaluations.gradient := gradients }

namespace SolverState

variable {state state' : SolverState α S n} {options : Options α}

theorem begin_alike (plays : Interplay c k options combined) (starts : k.Starts state state')
    (box : Box α n) (start : Vec α n) (fuel : Nat) :
    Alike c (fun out out' => out.1.options = options ∧ out'.1 = out.1.asking combined ∧
        k.Relates out.2 out'.2)
      (state.begin options box start fuel)
      (state'.begin (options.asking combined) box start fuel) := by
  obtain ⟨region, length, model, subsolver, buffers⟩ := state'
  obtain ⟨same, kin⟩ := starts
  cases same
  unfold begin
  refine (alike_remarkWhen _ _ _ _).bind_eq fun _ => ?_
  refine (plays.start _ _ _).bind_eq fun found => ?_
  refine (alike_remark _ _).bind_eq fun _ => ?_
  let u : Unshared α S n := ⟨1, region.ratio, region.interpolation, subsolver, buffers⟩
  refine Alike.bind_eq (Setting.verdict_alike plays ⟨u, rfl, plays.counted, kin⟩) fun status => ?_
  refine (alike_remarkWhen _ _ _ _).bind_eq fun _ => ?_
  refine (alike_remarkWhen _ _ _ _).bind_eq fun _ => ?_
  refine (Setting.checkpoint_alike plays ⟨u, rfl, plays.counted, kin⟩).bind ?_
  exact fun _ _ related => alike_pure ⟨rfl, rfl, related⟩

/-- **Minimizations side by side.** From states in which they may start, two minimizations are alike and
come to the same. -/
theorem minimize_alike (plays : Interplay c k options combined) (starts : k.Starts state state')
    (box : Box α n) (start : Vec α n) (fuel : Nat) :
    Alike c k.Finds (state.minimize options box start fuel)
      (state'.minimize (options.asking combined) box start fuel) := by
  unfold minimize
  refine (begin_alike plays starts box start fuel).bind ?_
  rintro ⟨st, p⟩ ⟨_, p'⟩ ⟨rfl, rfl, related⟩
  refine (Setting.loop_alike plays fuel related).bind ?_
  rintro q _ ⟨u, rfl, counts, -⟩
  refine (alike_remark _ _).bind_eq fun _ => alike_pure ?_
  exact ⟨rfl, rfl, u.gradients, counts, rfl⟩

end SolverState

end Iterations

/-! ## Checked minimizations -/

/-- The ways in which two minimizations are alike, once problem and options have been checked. -/
inductive SolveAlike (c : Comparison (Query α n) Query.Reply View) (k : Kinship α S n) :
    Except (Refused (Loan α S)) (SolverDialogue α n (Minimum α S n)) →
      Except (Refused (Loan α S)) (SolverDialogue α n (Minimum α S n)) → Prop where
  | refused {refused refused' : Refused (Loan α S)} (error : refused.error = refused'.error) :
      SolveAlike c k (.error refused) (.error refused')
  | made {d d' : SolverDialogue α n (Minimum α S n)} (alike : Alike c k.Finds d d') :
      SolveAlike c k (.ok d) (.ok d')

/-- What is seen of a run that came to an end. -/
structure Account (α ω View : Type) where
  x : Array α
  report : Report α
  model : (n : Nat) × HessianModel α n
  world : ω
  seen : List View

/-- What is seen of a solution, and so much of its report. -/
def Solution.account {ω : Type} (solution : Solution α S ω n)
    (c : Comparison (Query α n) Query.Reply View) (face : Report α → Report α) :
    Account α ω View where
  x := solution.x
  report := face solution.report
  model := ⟨solution.solver.dim, solution.solver.state.model⟩
  world := solution.world
  seen := solution.transcript.asked.toList.filterMap c.view

/-- What is seen of a run: the error that it was refused with, or what is seen of its solution. -/
def Solution.accountOf {ω : Type} (c : Comparison (Query α n) Query.Reply View)
    (face : Report α → Report α) :
    Except (Refused (Loan α S)) (Solution α S ω n) → Except SolveError (Account α ω View)
  | .error refused => .error refused.error
  | .ok solution => .ok (solution.account c face)

/-- A run of which a solution is seen has one. -/
theorem Solution.exists_of_accountOf {ω : Type} {c : Comparison (Query α n) Query.Reply View}
    {face : Report α → Report α} {account : Account α ω View}
    {ran : Except Dialogue.Stop (Except (Refused (Loan α S)) (Solution α S ω n))}
    (same : ran.map (accountOf c face) = .ok (.ok account)) :
    ∃ solution, ran = .ok (.ok solution) ∧ solution.account c face = account := by
  match ran with
  | .error _ => cases same
  | .ok (.error _) => cases same
  | .ok (.ok solution) =>
      cases same
      exact ⟨solution, rfl, rfl⟩

namespace Solver

variable {solver solver' : Solver α S} {p : Problem α} {dom : Domain α}
  {c : Comparison (Query α dom.dim) Query.Reply View} {k : Kinship α S dom.dim} {combined : Bool}

/-- The same is refused, and what is not refused is alike. -/
theorem solve_alike (plays : Interplay c k solver.options combined)
    (asks : solver'.options = solver.options.asking combined)
    (starts : k.Starts (solver.state.resize dom.dim) (solver'.state.resize dom.dim))
    (x : Array α) (fuel : Nat) :
    SolveAlike c k (solver.solve p dom x fuel) (solver'.solve p dom x fuel) := by
  have faults : solver'.options.fault? = solver.options.fault? := by
    rw [asks]
    rfl
  have first := solver.solve_starts p dom x fuel
  have second := solver'.solve_starts p dom x fuel
  generalize solver.solve p dom x fuel = result at first ⊢
  generalize solver'.solve p dom x fuel = result' at second ⊢
  cases first with
  | problem error wrong =>
      cases second with
      | problem error' wrong' => 
          cases wrong.symm.trans wrong'
          exact .refused rfl
      | options _ sound' _ => cases wrong.symm.trans sound'
      | made _ sound' _ _ => cases wrong.symm.trans sound'
  | options fault sound wrong =>
      cases second with
      | problem _ wrong' => cases sound.symm.trans wrong'
      | options fault' _ wrong' =>
          cases wrong.symm.trans (faults.symm.trans wrong')
          exact .refused rfl
      | made _ _ usable' _ => cases wrong.symm.trans (faults.symm.trans usable')
  | made start sound usable same =>
      cases second with
      | problem _ wrong' => cases sound.symm.trans wrong'
      | options _ _ wrong' => cases usable.symm.trans (faults.symm.trans wrong')
      | made start' _ _ same' =>
          obtain rfl := Vector.toArray_inj.1 (same.trans same'.symm)
          rw [asks]
          exact .made (SolverState.minimize_alike plays starts _ _ _)

/-- **Runs side by side.** In one world the same is seen of both runs. -/
theorem run_alike {ω : Type} (plays : Interplay c k solver.options combined)
    (asks : solver'.options = solver.options.asking combined)
    (starts : k.Starts (solver.state.resize dom.dim) (solver'.state.resize dom.dim))
    (x : Array α) (fuel : Nat) {observer : Observer α ω} {clock : Clock ω}
    (fits : c.Fits (p.objective.answer observer clock)) {face : Report α → Report α}
    (hides : ∀ (report : Report α) gradients, k.counts report.evaluations.gradient gradients →
      face { report with evaluations.gradient := gradients } = face report) (w : ω) :
    (solver'.run p dom x observer clock fuel w).map (Solution.accountOf c face) =
      (solver.run p dom x observer clock fuel w).map (Solution.accountOf c face) := by
  have alike := solve_alike (p := p) plays asks starts x fuel
  unfold run
  generalize solver.solve p dom x fuel = made at alike ⊢
  generalize solver'.solve p dom x fuel = made' at alike ⊢
  cases alike with
  | refused error => simp only [Except.map, Solution.accountOf, error]
  | @made d d' alike =>
      have ends : Dialogue.EndAlike c k.Finds (d.run (p.objective.answer observer clock) w {})
          (d'.run (p.objective.answer observer clock) w {}) := alike.run fits w rfl
      dsimp only
      generalize d.run (p.objective.answer observer clock) w {} = ran at ends ⊢
      generalize d'.run (p.objective.answer observer clock) w {} = ran' at ends ⊢
      cases ends with
      | stopped => rfl
      | @ended found found' finds w t t' seen =>
          obtain ⟨x, model, gradients, counts, report⟩ := finds
          simp only [bind, Except.bind, Except.map, pure, Except.pure, Solution.accountOf, Solution.account,
            x, model, report, hides _ _ counts, seen]

end Solver

end BoxNewton
