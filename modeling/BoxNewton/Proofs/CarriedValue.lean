import Mathlib
import BoxNewton.Proofs.Chronicle
import BoxNewton.Proofs.CurrentPoint

/-!
# The value that is carried

The observer may hand back another point and another gradient, but not another value: a minimization
carries the value that it was answered itself. So the value that a step is judged against, and the one in
the report at the end, belong to the point that the minimization last moved to on its own account, which
is the projected start or the last accepted trial point (`sourceAfter`). For an objective that answers by
one function this holds in every iteration, whatever the observer hands back and whenever
(`Solver.solve_carries`).

An observer that moves the point makes the two differ: the value goes on to be that of the point it was
moved from. A run on a segment shows both effects (`relocated_keepsValue`). The step after the move is
judged against the value at the old point and rejected although it descends, and the last report has a
value that the objective does not take at the point that comes with it.
-/

set_option autoImplicit false

namespace BoxNewton

open Dialogue (Contract)

variable {α : Type} [Scalar α] {S : Subsolver α} {n : Nat}

/-! ## The point that a value belongs to -/

/-- The point that the carried value belongs to after some iterations: where the last accepted step led
to, or the point that was evaluated first. -/
def sourceAfter (o : RegionOptions α) (first : Vec α n) (episodes : List (Episode α S n)) : Vec α n :=
  episodes.foldl (fun y e => if e.turn.accepts o then e.turn.progress.x else y) first

theorem sourceAfter_append (o : RegionOptions α) (first : Vec α n) (episodes : List (Episode α S n))
    (e : Episode α S n) : sourceAfter o first (episodes ++ [e]) =
      if e.turn.accepts o then e.turn.progress.x else sourceAfter o first episodes := by
  rw [sourceAfter, List.foldl_append]
  rfl

/-- An iteration carries the value of `f` at a point, and judges its step against this value. -/
structure Episode.Carries (e : Episode α S n) (f : Vec α n → α) (source : Vec α n) : Prop where
  value : e.start.value = f source
  judged : ∀ a ∈ e.assessment, (a.step.rated a.state).before = f source

/-- Every iteration carries the value of `f` at the point that it belongs to. -/
def CarriesThroughout (episodes : List (Episode α S n)) (o : RegionOptions α) (f : Vec α n → α)
    (first : Vec α n) : Prop :=
  ∀ before e after, episodes = before ++ e :: after → e.Carries f (sourceAfter o first before)

theorem CarriesThroughout.append {episodes : List (Episode α S n)} {o : RegionOptions α}
    {f : Vec α n → α} {first : Vec α n} {e : Episode α S n}
    (throughout : CarriesThroughout episodes o f first)
    (carries : e.Carries f (sourceAfter o first episodes)) :
    CarriesThroughout (episodes ++ [e]) o f first := by
  intro before e' after split
  cases after using List.reverseRecOn with
  | nil =>
      obtain ⟨rfl, last⟩ := List.append_inj' split rfl
      cases last
      exact carries
  | append_singleton after last =>
      rw [← List.cons_append, ← List.append_assoc] at split
      obtain ⟨rfl, -⟩ := List.append_inj' split rfl
      exact throughout before e' after rfl

/-- The contract with an objective that has the values of `f`, whichever way it is asked. -/
def Query.valued (f : Vec α n → α) : Contract (Query α n) Query.Reply Unit :=
  .relying fun q a => match q, a with
    | .value x, fx => fx = f x
    | .valueGradient x _, both => both.1 = f x
    | _, _ => True

section Questions

omit [Scalar α]

variable {f : Vec α n → α}

/-- Whichever way a value was asked for, it is that of `f`. -/
theorem ValueAt.eq_valued {x : Vec α n} {fx : α} (known : ValueAt (Query.valued f) () x fx) :
    fx = f x := by
  rcases known with alone | ⟨_, _, both⟩
  · exact alone
  · exact both

end Questions

/-! ## Iterations -/

/-- The value is that of the point it belongs to, now and in every iteration so far. -/
structure Setting.CarriesTo (st : Setting α n) (f : Vec α n → α) (first : Vec α n)
    (episodes : List (Episode α S n)) (p : Progress α S n) : Prop where
  throughout : CarriesThroughout episodes st.options.region f first
  value : p.value = f (sourceAfter st.options.region first episodes)

namespace Setting

variable {st : Setting α n} {p : Progress α S n} {f : Vec α n → α} {first : Vec α n}
  {before : List (Episode α S n)}

/-- An episode carries the value that it started from, and ends with the one of the point that it then
belongs to. -/
theorem CarriesTo.episode {e : Episode α S n} (here : st.CarriesTo f first before p)
    (iterates : st.Iterates (Query.valued f) () (fun _ => True) p e.turn) (records : st.Records p e) :
    st.CarriesTo f first (before ++ [e]) e.turn.progress := by
  have carries : e.Carries f (sourceAfter st.options.region first before) := by
    cases records with
    | underflow p' inner stands => exact ⟨here.value, nofun⟩
    | assessed a turn stands inner point step model carried =>
        refine ⟨here.value, fun a' judged => ?_⟩
        cases judged
        exact stands.value.trans here.value
  refine ⟨here.throughout.append carries, ?_⟩
  rw [sourceAfter_append]
  cases accepted : e.turn.accepts st.options.region with
  | false =>
      rw [if_neg Bool.false_ne_true]
      exact (records.stands accepted).value.trans here.value
  | true =>
      rw [if_pos rfl]
      exact (iterates.outcome.moves accepted).value.eq_valued

/-- Nothing that happens between two iterations changes the value. -/
theorem conclude_carries {ratio : α} (here : st.CarriesTo f first before p) :
    (st.conclude p ratio).Keeps (Query.valued f) (fun p' _ => st.CarriesTo f first before p') () := by
  refine conclude_keeps (clock_relying _) ratio ?_
  intro status _
  exact ⟨trivial, fun seen _ => ⟨here.throughout, here.value⟩⟩

theorem opening_carries (k : Nat) (here : st.CarriesTo f first before p) :
    (st.opening k p).Keeps (Query.valued f)
      (fun out _ => st.CarriesTo f first (before ++ out.1) out.2) () := by
  refine opening_rule (fun episodes p _ => st.CarriesTo f first episodes p) ?_ k before p () here
  intro before p _ here _
  refine (iterateRecorded_keeps (permits_relying _ p.x _) (st.lands_anywhere S)).mono ?_
  rintro ⟨start, assessment, turn⟩ _ ⟨⟨-, iterates⟩, records⟩
  have ends := here.episode iterates records
  constructor
  · rintro p' rfl
    exact ends
  · rintro p' ratio rfl
    exact conclude_carries ends

end Setting

/-! ## Whole minimizations -/

/-- The value in a report, and the values in the iterations that led to it, are those of `f` at the points
that they belong to. -/
structure Report.Carries (report : Report α) (o : RegionOptions α) (f : Vec α n → α) (first : Vec α n)
    (episodes : List (Episode α S n)) : Prop where
  throughout : CarriesThroughout episodes o f first
  objective : report.objective = f (sourceAfter o first episodes)

/-- The value is carried through the first iterations of a minimization, however many. -/
theorem SolverState.throughout_carries (state : SolverState α S n) (options : Options α) (box : Box α n)
    (f : Vec α n → α) (start : Vec α n) (fuel : Nat) :
    state.Throughout options box start fuel (Query.valued f)
      (fun episodes p => p.report.Carries options.region f (box.project start) episodes) () := by
  refine begin_keeps state fuel (permits_relying _ _ fun _ => True) trivial (clock_relying _) ?_
  intro st p opens
  have value : p.value = f (box.project start) := by
    rw [opens.value.eq_valued, opens.x]
  refine ⟨trivial, fun seen _ k => ?_⟩
  have here : st.CarriesTo f (box.project start) ([] : List (Episode α S n))
      { p with x := st.box.project seen.x, g := seen.g, status := seen.status } := by
    refine ⟨?_, value⟩
    intro before e after none
    simp at none
  refine (Setting.opening_carries k here).mono ?_
  intro out _ ends
  have same := opens.sameOptions
  subst same
  exact ⟨ends.throughout, ends.value⟩

/-- An objective whose values in dimension `n` are those of one function, whichever way it is asked and
whatever it is handed to write into. -/
structure Objective.HasValues {α : Type} {n : Nat} (o : Objective α) (f : Vec α n → α) : Prop where
  value : ∀ x : Vec α n, o.value x.toArray = .ok (f x)
  valueGradient : ∀ (x out : Vec α n) both, o.valueGradient x.toArray out.toArray = .ok both →
    both.1 = f x

omit [Scalar α] in
/-- Such an objective answers as relied on, to any observer. -/
theorem Objective.HasValues.relied {ω : Type} {o : Objective α} {f : Vec α n → α}
    (values : o.HasValues f) {observer : Observer α ω} {clock : Clock ω} (q : Query α n)
    (w : ω) (a : q.Reply) (w' : ω) (answered : o.answer observer clock q w = .ok (a, w')) :
    (Query.valued f).relies () q a := by
  cases q with
  | value x =>
      simp only [answer, values.value] at answered
      cases answered
      exact rfl
  | valueGradient x out =>
      cases both : o.valueGradient x.toArray out.toArray with
      | error misfit =>
          simp only [answer, both] at answered
          cases answered
      | ok found =>
          have value := values.valueGradient x out found both
          obtain ⟨fx, g⟩ := found
          simp only [answer, both, Dialogue.liftM_ok, bind, Except.bind] at answered
          split at answered
          · cases answered
          · cases answered
            exact value
  | gradient | product | observe | outOfTime => trivial

/-- **The value that is carried.** Let the objective have the values of a function, and let the observer
hand back whatever it likes. Then every iteration judges its step against the value at the point that the
minimization last moved to by itself, and the value in the report at the end is that of the last of these
points. -/
theorem Solver.solve_carries (solver : Solver α S) (p : Problem α) (dom : Domain α)
    (start : Vec α dom.dim) (fuel : Nat) (f : Vec α dom.dim → α) :
    ((solver.state.resize dom.dim).minimizeRecorded solver.options dom.box start fuel).Keeps
      (Query.valued f)
      (fun out _ => out.2.report.Carries solver.options.region f (dom.box.project start) out.1) () ∧
    ∀ {ω : Type} (observer : Observer α ω) (clock : Clock ω) (w : ω)
      (solution : Solution α S ω dom.dim), p.objective.HasValues f →
      solver.run p dom start.toArray observer clock fuel w = .ok (.ok solution) →
        ∃ episodes,
          solver.HasChronicle p dom start.toArray observer clock fuel w solution episodes ∧
          solution.report.Carries solver.options.region f (dom.box.project start) episodes := by
  have throughout := (solver.state.resize dom.dim).throughout_carries solver.options dom.box f start fuel
  constructor
  · refine throughout.minimizeRecorded.mono ?_
    rintro ⟨episodes, _⟩ _ ⟨last, carries, rfl⟩
    exact carries
  · intro ω observer clock w solution values ran
    obtain ⟨episodes, chronicle⟩ := exists_chronicle ran
    obtain ⟨last, carries, -, report, -⟩ := chronicle.described values.relied throughout
    exact ⟨episodes, chronicle, report ▸ carries⟩

/-! ## An observer that moves the point -/

/-- The segment from zero to ten. -/
def segment : Domain Float where
  dim := 1
  dim_pos := Nat.one_pos
  box := { lower := fun _ => 0, upper := fun _ => 10.0, ordered := fun _ => by decide }

/-- The identity, to be minimized on the segment. -/
def slide : Problem Float := .minimize (Linear.objective (.replicate 1 1)) segment

/-- The value of the identity. -/
def slideValue (x : Vec Float 1) : Float := Vec.dot (.replicate 1 1) x

/-- The minimizer of one iteration. -/
def slidingSolver : Solver Float ConjugateGradient.subsolver :=
  .new _ { Options.standard with maxIterations := 1 } 1

/-- The observer that moves the first point it is shown to nine, with the gradient there. -/
def relocating : Observer Float Bool where
  observe x g report moved :=
    if moved then ((x, g, report.status), true) else ((#[9], #[1], report.status), true)

theorem slide_hasValues : slide.objective.HasValues slideValue where
  value x := by
    obtain ⟨xs, sized⟩ := x
    simp [slide, slideValue, Problem.minimize, Linear.objective, Vec.ofArray?, sized]
  valueGradient x out both answered := by
    obtain ⟨xs, sized⟩ := x
    simp [slide, Problem.minimize, Linear.objective, separately, Vec.ofArray?, replaceAll?, sized]
      at answered
    cases answered
    rfl

/-- The first iteration of this run, and its end. -/
theorem slide_relocates :
    ∃ solution episodes,
      slidingSolver.run slide segment #[5] relocating .stopped 9 false = .ok (.ok solution) ∧
      slidingSolver.HasChronicle slide segment #[5] relocating .stopped 9 false solution
        episodes ∧
      (∃ e ∈ episodes, ∃ a ∈ e.assessment, a.state.x.toArray = #[9] ∧
        a.step.point.toArray = #[7] ∧ (a.step.rated a.state).before = 5.0 ∧
        e.turn.accepts slidingSolver.options.region = false) ∧
      solution.x = #[9] ∧ solution.report.objective = 5.0 := by
  have ends : ((slidingSolver.run slide segment #[5] relocating .stopped 9
      false).toOption.bind Except.toOption).any fun solution =>
        decide (solution.x = #[9] ∧ solution.report.objective = 5.0) := by
    decide +kernel
  have recorded : (((slidingSolver.state.resize segment.dim).minimizeRecorded slidingSolver.options segment.box
      #v[5] 9).run (slide.objective.answer relocating .stopped) false {}).toOption.any
        fun out => out.1.1.any fun e => e.assessment.any fun a =>
          decide (a.state.x.toArray = #[9] ∧ a.step.point.toArray = #[7] ∧
            (a.step.rated a.state).before = 5.0 ∧
            e.turn.accepts slidingSolver.options.region = false) := by
    decide +kernel
  obtain ⟨solution, ran, ends⟩ := exists_solution_of_any ends
  obtain ⟨episodes, start, found, atStart, went, same⟩ := Solver.exists_chronicle ran
  have here : start = #v[5] := Vector.toArray_inj.1 atStart
  subst here
  rw [went] at recorded
  simp only [Except.toOption, Option.any_some, List.any_eq_true, Option.any_eq_true,
    decide_eq_true_iff] at recorded
  exact ⟨solution, episodes, ran, ⟨_, found, rfl, went, same⟩, recorded, of_decide_eq_true ends⟩

/-- From five, the point is moved to nine. The iteration there judges its step to seven against the value
five, which is not the value at nine, and rejects it. The report at the end has the value five, with the
point nine. -/
theorem relocated_keepsValue :
    slide.objective.HasValues slideValue ∧ ∃ solution episodes,
      slidingSolver.run slide segment #[5] relocating .stopped 9 false = .ok (.ok solution) ∧
      slidingSolver.HasChronicle slide segment #[5] relocating .stopped 9 false solution
        episodes ∧
      (∃ e ∈ episodes, ∃ a ∈ e.assessment,
        (a.step.rated a.state).before ≠ slideValue a.state.x ∧
        slideValue a.step.point < slideValue a.state.x ∧
        e.turn.accepts slidingSolver.options.region = false) ∧
      solution.x = #[9] ∧ solution.report.objective ≠ slideValue #v[9] := by
  have nine : slideValue #v[9] = 9.0 := by decide +kernel
  have seven : slideValue #v[7] = 7.0 := by decide +kernel
  have apart : (5.0 : Float) ≠ 9.0 := by decide +kernel
  obtain ⟨solution, episodes, ran, chronicle, ⟨e, member, a, judged, from9, to7, before, rejected⟩,
    ends, value⟩ := slide_relocates
  have from9 : a.state.x = #v[9] := Vector.toArray_inj.1 from9
  have to7 : a.step.point = #v[7] := Vector.toArray_inj.1 to7
  refine ⟨slide_hasValues, solution, episodes, ran, chronicle, ⟨e, member, a, judged, ?_, ?_,
    rejected⟩, ends, ?_⟩
  · rw [before, from9, nine]
    exact apart
  · rw [from9, to7, nine, seven]
    decide +kernel
  · rw [value, nine]
    exact apart

/-- The same run carries the value at the start to its end. -/
theorem solve_carries_slide :
    slide.objective.HasValues slideValue ∧ ∃ solution episodes,
      slidingSolver.run slide segment #[5] relocating .stopped 9 false = .ok (.ok solution) ∧
      slidingSolver.HasChronicle slide segment #[5] relocating .stopped 9 false solution
        episodes ∧
      solution.report.Carries slidingSolver.options.region slideValue (segment.box.project #v[5])
        episodes := by
  obtain ⟨solution, _, ran, -⟩ := slide_relocates
  obtain ⟨episodes, chronicle, carries⟩ := (slidingSolver.solve_carries slide segment #v[5] 9
    slideValue).2 relocating .stopped false solution slide_hasValues ran
  exact ⟨slide_hasValues, solution, episodes, ran, chronicle, carries⟩

end BoxNewton
