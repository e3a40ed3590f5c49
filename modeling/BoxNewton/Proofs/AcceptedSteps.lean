import Mathlib
import BoxNewton.Proofs.SecantStore
import BoxNewton.Proofs.TrialSteps

/-!
# Secant memories are histories of accepted steps

A minimizer with a secant memory offers to it the step that was accepted and the difference of two
gradients. The step is not the difference of two points: it is what a Cauchy search and the passes of a
refinement have added up, beside a point that was projected all along. In exact arithmetic the two agree,
so what is offered is the change of the point and the change of the gradient (`Episode.change`). Nothing
else is offered, and nothing is offered for a step that is not accepted.

A memory keeps the latest pairs with curvature of all that was offered (`SecantMemory.KeepsLatest`). So at
every moment it holds the latest changes along accepted steps since the minimizer was made or reset, over
any sequence of minimizations (`Solver.Taught.keepsLatest`). A minimization in another dimension starts
with an empty memory of the same capacity.
-/

set_option autoImplicit false

namespace BoxNewton

open Dialogue (Contract)

/-! ## The latest pairs of a model -/

section Latest

variable {α : Type} [Scalar α] {S : Subsolver α} {n : Nat}

/-- The model of the Hessian is a secant memory that keeps the latest pairs of a history. -/
def HessianModel.KeepsLatest (model : HessianModel α n) (capacity : Nat)
    (history : List (SecantPair α n)) : Prop :=
  ∃ memory, model = .secant memory ∧ memory.KeepsLatest capacity history

namespace HessianModel.KeepsLatest

variable {model : HessianModel α n} {capacity : Nat} {history : List (SecantPair α n)}

theorem learnt (kept : model.KeepsLatest capacity history) (pair : SecantPair α n) :
    (model.learnt pair).KeepsLatest capacity (history ++ [pair]) := by
  obtain ⟨memory, rfl, kept⟩ := kept
  exact ⟨(memory.push pair).2, rfl, kept.push pair⟩

theorem reset (kept : model.KeepsLatest capacity history) : model.reset.KeepsLatest capacity [] := by
  obtain ⟨memory, rfl, kept⟩ := kept
  exact ⟨memory.reset, rfl, kept.reset⟩

end HessianModel.KeepsLatest

/-- A history in another dimension starts anew. -/
def carriedTo (m : Nat) (history : List (SecantPair α n)) : List (SecantPair α m) :=
  if same : n = m then same ▸ history else []

/-- In another dimension a memory is empty, with the same capacity. -/
theorem SolverState.resize_empty {state : SolverState α S n} {capacity m : Nat}
    {history : List (SecantPair α n)} (kept : state.model.KeepsLatest capacity history)
    (other : n ≠ m) :
    ∃ positive, (state.resize m).model = .secant (.empty m capacity positive) := by
  obtain ⟨memory, model, kept⟩ := kept
  obtain rfl := kept.room
  refine ⟨memory.capacity_pos, ?_⟩
  rw [resize, dif_neg other]
  change state.model.emptied m = _
  rw [model]
  rfl

theorem SolverState.resize_keepsLatest {state : SolverState α S n} {capacity : Nat}
    {history : List (SecantPair α n)} (kept : state.model.KeepsLatest capacity history) (m : Nat) :
    (state.resize m).model.KeepsLatest capacity (carriedTo m history) := by
  by_cases same : n = m
  · subst same
    rw [resize, dif_pos rfl, carriedTo, dif_pos rfl]
    exact kept
  · obtain ⟨positive, model⟩ := resize_empty kept same
    rw [carriedTo, dif_neg same]
    exact ⟨_, model, .empty positive⟩

/-! ## What is offered -/

/-- The change of the point in an episode and the change of the gradient with it. -/
def Episode.change (f' : Vec α n → Vec α n) (e : Episode α S n) : SecantPair α n :=
  ⟨e.turn.progress.x - e.start.x, f' e.turn.progress.x - f' e.start.x⟩

/-- The changes in the episodes whose step was accepted, the earliest first. -/
def acceptedChanges (o : RegionOptions α) (f' : Vec α n → Vec α n) (episodes : List (Episode α S n)) :
    List (SecantPair α n) :=
  (episodes.filter fun e => e.turn.accepts o).map (Episode.change f')

theorem acceptedChanges_accepted {o : RegionOptions α} {f' : Vec α n → Vec α n} {e : Episode α S n}
    (accepted : e.turn.accepts o = true) (before : List (Episode α S n)) :
    acceptedChanges o f' (before ++ [e]) = acceptedChanges o f' before ++ [e.change f'] := by
  simp [acceptedChanges, accepted]

theorem acceptedChanges_kept {o : RegionOptions α} {f' : Vec α n → Vec α n} {e : Episode α S n}
    (kept : e.turn.accepts o = false) (before : List (Episode α S n)) :
    acceptedChanges o f' (before ++ [e]) = acceptedChanges o f' before := by
  simp [acceptedChanges, kept]

end Latest

/-! ## Minimizations -/

variable {S : Subsolver EReal} {n : Nat}

/-- What is relied on in an answer: at real points the gradient is the one of the objective, and the
observer hands back what it was shown, with any status. -/
def Query.differentiating (f' : (Fin n → ℝ) → Fin n → ℝ) (q : Query EReal n) (a : q.Reply) : Prop :=
  match q, a with
  | .gradient x _, g => x.IsReal → g = Vec.realMap f' x
  | .valueGradient x _, both => x.IsReal → both.2 = Vec.realMap f' x
  | .observe x g _, seen => seen.x = x ∧ seen.g = g
  | _, _ => True

section Minimization

variable {f' : (Fin n → ℝ) → Fin n → ℝ} {capacity : Nat} {history : List (SecantPair EReal n)}

theorem Query.exactAnswers_differentiating : Query.ExactAnswers (Query.differentiating f') where
  gradient x _ _ answered := ⟨f' x, (answered ⟨x, rfl⟩).trans (Vec.realMap_ofReal f' x)⟩
  valueGradient x _ _ answered := ⟨f' x, (answered ⟨x, rfl⟩).trans (Vec.realMap_ofReal f' x)⟩
  observe x g _ _ answered := ⟨⟨x, answered.1⟩, ⟨g, answered.2⟩⟩

theorem GradientAt.eq_realMap {x g : Vec EReal n} (real : x.IsReal)
    (answered : GradientAt (.relying (Query.differentiating f')) () x g) : g = Vec.realMap f' x := by
  rcases answered with ⟨out, alone⟩ | ⟨out, fx, both⟩
  · exact alone real
  · exact both real

/-- What a minimization with a secant memory has come to: the memory keeps the latest of the history and of
the changes along the steps accepted since, and no iteration changed it before its step was judged. -/
structure LearnsFrom (o : RegionOptions EReal) (f' : (Fin n → ℝ) → Fin n → ℝ) (capacity : Nat)
    (history : List (SecantPair EReal n)) (episodes : List (Episode EReal S n)) (p : Progress EReal S n) :
    Prop where
  memory : p.state.model.KeepsLatest capacity (history ++ acceptedChanges o (Vec.realMap f') episodes)
  judged : ∀ e ∈ episodes, ∀ a ∈ e.assessment, a.state.state.model = e.start.state.model
  real : p.state.model.IsReal
  point : p.x.IsReal
  gradient : p.g = Vec.realMap f' p.x

section Episodes

variable {st : Setting EReal n} {H : Vec EReal n → Vec EReal n → Vec EReal n} {p : Progress EReal S n}
  {e : Episode EReal S n} {episodes : List (Episode EReal S n)}

/-- Nothing is learnt before the judgement. -/
theorem Setting.Records.judged (records : st.Records p e) :
    ∀ a ∈ e.assessment, a.state.state.model = e.start.state.model := by
  intro a member
  cases records with
  | underflow p' inner stands => cases member
  | assessed a' turn stands inner point step model carries =>
      cases member
      exact stands.model

/-- **What is learnt from an accepted step** is the change of the point and the change of the gradient. -/
theorem Setting.ExactEpisode.learnt (episode : st.ExactEpisode (Query.differentiating f') H p e)
    (gradient : p.g = Vec.realMap f' p.x) (accepted : e.turn.accepts st.options.region = true) :
    e.turn.progress.x.IsReal ∧ e.turn.progress.g = Vec.realMap f' e.turn.progress.x ∧
      e.turn.progress.state.model = p.state.model.learnt (e.change (Vec.realMap f')) := by
  obtain ⟨x, g, s, current, -, moved, -, answered, learns⟩ := episode.moves accepted
  have after : e.turn.progress.g = Vec.realMap f' e.turn.progress.x :=
    moved ▸ answered.eq_realMap ⟨x + s, rfl⟩
  have step : Vec.ofReal s = e.turn.progress.x - p.x := by
    rw [moved, current, Vec.sub_ofReal, add_sub_cancel_left]
  refine ⟨⟨x + s, moved⟩, after, ?_⟩
  rw [learns, Episode.change, episode.records.start, step, after, gradient]

/-- **One iteration.** What an accepted step adds to the history is what the memory is offered. -/
theorem LearnsFrom.episode (learns : LearnsFrom st.options.region f' capacity history episodes p)
    (episode : st.ExactEpisode (Query.differentiating f') H p e) :
    LearnsFrom st.options.region f' capacity history (episodes ++ [e]) e.turn.progress := by
  have real := episode.isReal Query.exactAnswers_differentiating learns.real
  have judged : ∀ e' ∈ episodes ++ [e], ∀ a ∈ e'.assessment, a.state.state.model = e'.start.state.model := by
    intro e' member
    rcases List.mem_append.1 member with earlier | last
    · exact learns.judged e' earlier
    · rw [List.mem_singleton.1 last]
      exact episode.records.judged
  cases taken : e.turn.accepts st.options.region with
  | false =>
      have stands := episode.records.stands taken
      refine ⟨?_, judged, real, stands.x ▸ learns.point, ?_⟩
      · rw [acceptedChanges_kept taken, stands.model]
        exact learns.memory
      · rw [stands.g, stands.x]
        exact learns.gradient
  | true =>
      obtain ⟨point, gradient, learnt⟩ := episode.learnt learns.gradient taken
      refine ⟨?_, judged, real, point, gradient⟩
      rw [acceptedChanges_accepted taken, learnt, ← List.append_assoc]
      exact learns.memory.learnt (e.change (Vec.realMap f'))

end Episodes

/-- **Throughout a minimization**, the memory keeps the latest of the history and of the changes along the
steps accepted so far. -/
theorem SolverState.throughout_learnsFrom {state : SolverState EReal S n} {options : Options EReal}
    (exact : options.ExactFor S) (f' : (Fin n → ℝ) → Fin n → ℝ) (kept : state.model.KeepsLatest capacity history)
    (real : state.model.IsReal) {box : Box EReal n} (inside : ∃ y, box.Contains (Vec.ofReal y))
    (start : Fin n → ℝ) (fuel : Nat) :
    state.Throughout options box (Vec.ofReal start) fuel (.relying (Query.differentiating f'))
      (LearnsFrom options.region f' capacity history) () := by
  refine state.throughout_exact (H := fun _ v => v) exact Query.exactAnswers_differentiating
    (fun _ => ⟨id, fun _ => rfl⟩) real inside start fuel ?_ ?_ ?_ ?_
  · intro before p learns q asked
    obtain ⟨memory, model, -⟩ := learns.memory
    rw [model]
    rfl
  · intro p model point answered
    have none : history ++ acceptedChanges options.region (Vec.realMap f')
        ([] : List (Episode EReal S n)) = history := List.append_nil history
    refine ⟨?_, ?_, model.symm ▸ real, point, answered.eq_realMap point⟩
    · rw [none, model]
      exact kept
    · intro e member
      cases member
  · rintro st before p e rfl - learns episode
    exact learns.episode episode
  · intro st before p iteration report seen _ learns unchanged here
    obtain ⟨x, current, lands⟩ := here.point
    have still : st.box.project seen.x = p.x := by
      rw [unchanged.1, current]
      exact Box.project_ofReal lands
    refine ⟨learns.memory, learns.judged, learns.real, ?_, ?_⟩
    · exact still ▸ learns.point
    · rw [still, unchanged.2]
      exact learns.gradient

end Minimization

/-! ## Sequences of minimizations -/

namespace Solver

/-- Holds of the minimizers with these options and a secant memory of this capacity, and of the changes
along the steps that were accepted since they were made, reset or first used in their dimension. Each
minimization may be another problem, whose answers only have to be its gradients. -/
inductive Taught (S : Subsolver EReal) (options : Options EReal) (capacity : Nat) :
    (solver : Solver EReal S) → List (SecantPair EReal solver.dim) → Prop where
  | made {dim : Nat} {solver : Solver EReal S}
      (made : (Solver.new S options dim).usingSecantMemory? capacity = .ok solver) :
      Taught S options capacity solver []
  | reset {solver : Solver EReal S} {history : List (SecantPair EReal solver.dim)}
      (taught : Taught S options capacity solver history) : Taught S options capacity solver.reset []
  | solved {solver : Solver EReal S} {history : List (SecantPair EReal solver.dim)}
      (taught : Taught S options capacity solver history) (dom : Domain EReal)
      (inside : ∃ y, dom.box.Contains (Vec.ofReal y)) (start : Fin dom.dim → ℝ) (p : Problem EReal)
      (f' : (Fin dom.dim → ℝ) → Fin dom.dim → ℝ) {ω : Type} (observer : Observer EReal ω)
      (clock : Clock ω) (fuel : Nat) (w : ω) {solution : Solution EReal S ω dom.dim}
      {episodes : List (Episode EReal S dom.dim)} {later : SolverState EReal S dom.dim}
      (relied : ∀ q w a w', p.objective.answer observer clock q w = .ok (a, w') →
        Query.differentiating f' q a)
      (ran : solver.run p dom (Vec.ofReal start).toArray observer clock fuel w = .ok (.ok solution))
      (chronicle : solver.HasChronicle p dom (Vec.ofReal start).toArray observer clock fuel w solution
        episodes)
      (after : solution.solver = ⟨solver.options, dom.dim, later⟩) :
      Taught S options capacity ⟨solver.options, dom.dim, later⟩
        (carriedTo dom.dim history ++ acceptedChanges options.region (Vec.realMap f') episodes)

namespace Taught

variable {options : Options EReal} {capacity : Nat} {solver : Solver EReal S}
  {history : List (SecantPair EReal solver.dim)}

/-- A run teaches a minimizer. -/
theorem run (taught : Taught S options capacity solver history) {dom : Domain EReal}
    (inside : ∃ y, dom.box.Contains (Vec.ofReal y)) {start : Fin dom.dim → ℝ} {p : Problem EReal}
    {f' : (Fin dom.dim → ℝ) → Fin dom.dim → ℝ} {ω : Type} {observer : Observer EReal ω}
    {clock : Clock ω} {fuel : Nat} {w : ω} {solution : Solution EReal S ω dom.dim}
    (relied : ∀ q w a w', p.objective.answer observer clock q w = .ok (a, w') →
      Query.differentiating f' q a)
    (ran : solver.run p dom (Vec.ofReal start).toArray observer clock fuel w = .ok (.ok solution)) :
    ∃ later episodes, solution.solver = ⟨solver.options, dom.dim, later⟩ ∧
      solver.HasChronicle p dom (Vec.ofReal start).toArray observer clock fuel w solution episodes ∧
      Taught S options capacity ⟨solver.options, dom.dim, later⟩
        (carriedTo dom.dim history ++ acceptedChanges options.region (Vec.realMap f') episodes) := by
  obtain ⟨episodes, chronicle⟩ := exists_chronicle ran
  have known := chronicle
  obtain ⟨_, found, -, -, -, -, after⟩ := known
  exact ⟨found.state, episodes, after, chronicle,
    .solved taught dom inside start p f' observer clock fuel w relied ran chronicle after⟩

/-- What the uses of a minimizer preserve: its options, that its memory keeps the latest pairs, and that
these are real. -/
theorem sound (exact : options.ExactFor S) (taught : Taught S options capacity solver history) :
    solver.options = options ∧ solver.state.model.KeepsLatest capacity history ∧
      solver.state.model.IsReal := by
  induction taught with
  | made made =>
      unfold usingSecantMemory? SecantMemory.empty? at made
      split at made
      · rename_i positive
        split at made
        · cases made
          exact ⟨rfl, ⟨_, rfl, .empty positive⟩, ⟨[], .empty positive⟩⟩
        · cases made
      · cases made
  | reset _ ih =>
      obtain ⟨same, kept, -⟩ := ih
      refine ⟨same, kept.reset, ?_⟩
      obtain ⟨memory, model, -⟩ := kept
      change (HessianModel.reset _).IsReal
      rw [model]
      exact ⟨[], .reset⟩
  | solved _ dom inside start p f' observer clock fuel w relied ran chronicle after ih =>
      obtain ⟨rfl, kept, real⟩ := ih
      have throughout := SolverState.throughout_learnsFrom exact f'
        (SolverState.resize_keepsLatest kept dom.dim) (SolverState.resize_isReal real dom.dim) inside
        start fuel
      obtain ⟨last, learns, -, -, same⟩ := chronicle.described relied throughout
      rw [after] at same
      cases same
      exact ⟨rfl, learns.memory, learns.real⟩

/-- **The secant memory is the history of accepted steps, in exact arithmetic.** After any sequence of
minimizations and resets, a minimizer with a secant memory holds the latest of the pairs with curvature
among the changes of the point and the gradient along accepted steps, as many as there is room for, oldest
first. So it does throughout the next minimization, after any number of iterations and before each
judgement. In another dimension it starts from an empty memory with the same capacity. -/
theorem keepsLatest (exact : options.ExactFor S) (taught : Taught S options capacity solver history) :
    solver.state.model.KeepsLatest capacity history ∧
    (∀ (dom : Domain EReal) (f' : (Fin dom.dim → ℝ) → Fin dom.dim → ℝ) (start : Fin dom.dim → ℝ)
        (fuel : Nat), (∃ y, dom.box.Contains (Vec.ofReal y)) →
      (solver.state.resize dom.dim).Throughout options dom.box (Vec.ofReal start) fuel
        (.relying (Query.differentiating f'))
        (LearnsFrom options.region f' capacity (carriedTo dom.dim history)) ()) ∧
    ∀ m, solver.dim ≠ m →
      ∃ positive, (solver.state.resize m).model = .secant (.empty m capacity positive) := by
  obtain ⟨-, kept, real⟩ := taught.sound exact
  refine ⟨kept, ?_, ?_⟩
  · intro dom f' start fuel inside
    exact SolverState.throughout_learnsFrom exact f' (SolverState.resize_keepsLatest kept dom.dim)
      (SolverState.resize_isReal real dom.dim) inside start fuel
  · intro m other
    exact SolverState.resize_empty kept other

end Taught

end Solver

/-! ### One step to remember -/

section Halving

/-- A secant memory with room for two pairs, of which none has come yet. -/
noncomputable def halfMemory : HessianModel EReal 1 := .secant (.empty 1 2 Nat.two_pos)

theorem halfMemory_unit : Vec.ActsBy (halfMemory.operator sphereHessian (entry 1)) id := by
  intro v
  have product := (SecantMemory.Represents.empty (n := 1) Nat.two_pos).apply_ofReal v
  have unit : Curvature.learnt [] v = v := one_smul ℝ v
  rw [unit] at product
  exact product

/-- The pair of the step to the lower bound and the change of the gradient along it. -/
noncomputable def halfPair : SecantPair EReal 1 := ⟨entry (-0.5), entry (-0.5)⟩

theorem halfPair_not_isFlat : ¬ halfPair.IsFlat := by
  have flat : halfPair.IsFlat ↔ _ := SecantPair.isFlat_ofReal
  rw [flat, not_le]
  norm_num [dotProduct]

theorem half_differentiating (q : Query EReal 1) :
    Query.differentiating id q (sphereAnswer q) := by
  have still : ∀ x : Vec EReal 1, x.IsReal → x = Vec.realMap id x := by
    rintro _ ⟨x, rfl⟩
    exact (Vec.realMap_ofReal id x).symm
  cases q with
  | value x => trivial
  | gradient x out => exact still x
  | valueGradient x out => exact still x
  | product x v out => trivial
  | observe x g report => exact ⟨rfl, rfl⟩
  | outOfTime limit => trivial

/-- A memory that keeps the latest of what one step to the lower bound has changed holds its pair. -/
theorem halfPair_kept {memory : SecantMemory EReal 1} {e : Episode EReal S 1}
    (accepted : e.turn.accepts (.standard : RegionOptions EReal) = true) (start : e.start.x = entry 1)
    (reached : e.turn.progress.x = entry 0.5)
    (kept : memory.KeepsLatest 2 (acceptedChanges .standard (Vec.realMap id) [e])) :
    memory.pairs = [halfPair] := by
  have moved : entry 0.5 - entry 1 = entry (-0.5) := by
    rw [entry, entry, Vec.sub_ofReal, entry]
    refine congrArg _ (funext fun _ => ?_)
    norm_num
  have still : ∀ a : ℝ, Vec.realMap id (entry a) = entry a := fun a => Vec.realMap_ofReal id _
  have change : e.change (Vec.realMap id) = halfPair := by
    rw [Episode.change, start, reached, still, still, moved, halfPair]
  have history : acceptedChanges (.standard : RegionOptions EReal) (Vec.realMap id) [e] = [halfPair] := by
    rw [← change]
    exact acceptedChanges_accepted accepted []
  rw [kept.latest, history]
  simp [halfPair_not_isFlat, List.rtake]

/-- After the step to the lower bound, its pair is all that the memory holds. In two dimensions the memory
would be empty. -/
theorem keepsLatest_halving : (Options.standard : Options EReal).ExactFor ConjugateGradient.subsolver ∧
    ∃ solution later history memory,
      (halfSolver halfMemory).run halfProblem halfDomain (entry 1).toArray .silent .stopped 9 () =
        .ok (.ok solution) ∧
      solution.solver = ⟨.standard, 1, later⟩ ∧
      Solver.Taught ConjugateGradient.subsolver .standard 2 ⟨.standard, 1, later⟩ history ∧
      later.model = .secant memory ∧ memory.pairs = [halfPair] ∧
      ∃ positive, (later.resize 2).model = .secant (.empty 2 2 positive) := by
  have made : (Solver.new ConjugateGradient.subsolver .standard 1).usingSecantMemory? 2 =
      .ok (halfSolver halfMemory) := rfl
  obtain ⟨solution, e, ran, chronicle, -, accepted, start, reached, -⟩ := half_runs halfMemory_unit
  obtain ⟨later, episodes, after, chronicle', taught⟩ := Solver.Taught.run (.made made) ⟨_, half_inside⟩
    (halfProblem_relied half_differentiating) ran
  obtain rfl := chronicle.unique chronicle'
  obtain ⟨⟨memory, model, kept⟩, -, elsewhere⟩ := taught.keepsLatest options_exactFor
  have other : (1 : Nat) ≠ 2 := by decide
  exact ⟨options_exactFor, solution, later, _, memory, ran, after, taught, model,
    halfPair_kept accepted start reached kept, elsewhere 2 other⟩

end Halving

end BoxNewton
