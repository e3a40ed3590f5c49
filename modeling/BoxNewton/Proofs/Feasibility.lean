import Mathlib
import BoxNewton.Benchmark
import BoxNewton.Proofs.Run
import BoxNewton.Proofs.Order
import BoxNewton.Subproblem.ConjugateGradient

/-!
# Feasibility

A minimization asks about points of its box only: every point at which the objective is asked for
something, every point shown to the observer and the point it ends with has its numbers between their
bounds (`Solver.solve_feasible`). It does not matter how the objective answers, which subsolver is used
or what the observer hands back, and nothing but the order of the scalars is used: each point is made
by a projection, or by writing a projected part over a point that was held before.

The two places where a part is written back work with an index set. The search along a direction ends
at a projected point of the restricted box (`ProjectedSearch.find_point`), and the refinement scatters
that point over the one it had (`Refinement.run_point`).
-/

set_option autoImplicit false

namespace BoxNewton

open Dialogue (Contract keeps_free)

variable {α : Type} [Scalar α] {S : Subsolver α} {n : Nat}

/-- The point that a question is about. -/
def Query.point? : Query α n → Option (Vec α n)
  | .value x => some x
  | .gradient x _ => some x
  | .valueGradient x _ => some x
  | .product x _ _ => some x
  | .observe x _ _ => some x
  | .outOfTime _ => none

/-- The contract to ask only about points that the box holds. -/
def Box.askedWithin (box : Box α n) : Contract (Query α n) Query.Reply Unit :=
  .promising fun q => ∀ x ∈ q.point?, box.Holds x

theorem Box.askedWithin_allows {box : Box α n} {q : Query α n}
    (held : ∀ x ∈ q.point?, box.Holds x) : box.askedWithin.Allows () q :=
  ⟨held, fun _ _ => rfl⟩

variable [Scalar.LawfulOrder α]

/-! ## The refinement -/

theorem ProjectedSearch.find_point (search : ProjectedSearch α n) (fuel : Nat) (hs : Vec α n) :
    (search.find fuel hs).Keeps .free (fun found _ => search.box.Holds found.point) () := by
  unfold find
  simp only [Dialogue.keeps_bind, Dialogue.keeps_remarkWhen, Dialogue.keeps_remark,
    Dialogue.keeps_pure]
  exact (keeps_free _).mono fun _ _ _ => Box.holds_project _ _

namespace Refinement

variable (r : Refinement α n) (subsolver : Subsolver α) (fuel : Nat)

theorem direct_point (st : State α n subsolver.State) (free : IndexSet (Fin n)) :
    (r.direct subsolver fuel st free).Keeps .free
      (fun out _ => (r.box.restrict free).Holds out.2.point) () := by
  unfold direct
  refine (keeps_free _).bind ?_
  intro out _ _
  simp only [Dialogue.keeps_bind, Dialogue.keeps_pure]
  exact ProjectedSearch.find_point
    { box := r.box.restrict free, x := free.gather st.x, d := out.1.2
      g := free.gather (r.modelGradient st), mu0 := r.mu0 } fuel _

/-- A pass leads from a point that is held to a point that is held. -/
theorem pass_point (st : State α n subsolver.State) (free : IndexSet (Fin n))
    (held : r.box.Holds st.x) :
    (r.pass subsolver fuel st free).Keeps .free (fun out _ => r.box.Holds out.1.x) () := by
  unfold pass
  refine (Dialogue.Keeps.through_free (fun _ _ => keeps_free _)
    (r.direct_point subsolver fuel st free)).bind ?_
  intro out _ inside
  rw [Dialogue.keeps_bind]
  refine Dialogue.keeps_addCount _ _ ?_
  simp only [Dialogue.keeps_bind, Dialogue.keeps_remark, Dialogue.keeps_pure]
  exact (keeps_free _).mono fun _ _ _ => held.scatter inside

/-- The passes lead from a point that is held to a point that is held. -/
theorem run_point : ∀ (fuel : Nat) (st : State α n subsolver.State), r.box.Holds st.x →
    (r.run subsolver fuel st).Keeps .free (fun out _ => r.box.Holds out.2.x) () := by
  intro fuel
  induction fuel with
  | zero => exact fun _ _ => trivial
  | succ fuel ih =>
      intro st held
      unfold run
      dsimp only
      split
      · exact held
      · refine (r.pass_point subsolver fuel st _ held).bind ?_
        intro out _ moved
        split
        · exact moved
        · split
          · exact moved
          · split
            · exact moved
            · exact ih out.1 moved

end Refinement

/-! ## The minimization -/

section Questions

omit [Scalar.LawfulOrder α]

theorem Box.permits_within {box : Box α n} {x : Vec α n} (held : box.Holds x) :
    PermitsIteration box.askedWithin () x box.Holds where
  product _ _ := askedWithin_allows fun _ here => Option.mem_some_iff.1 here ▸ held
  value _ trial := askedWithin_allows fun _ here => Option.mem_some_iff.1 here ▸ trial
  gradient _ _ trial := askedWithin_allows fun _ here => Option.mem_some_iff.1 here ▸ trial
  valueGradient _ _ trial := askedWithin_allows fun _ here => Option.mem_some_iff.1 here ▸ trial

theorem Box.clock_within (box : Box α n) (limit : Float) :
    box.askedWithin.Allows () (.outOfTime limit) :=
  askedWithin_allows fun _ here => by cases here

end Questions

namespace Setting

variable {st : Setting α n} {p : Progress α S n}

theorem lands_within (st : Setting α n) (S : Subsolver α) : st.Lands S st.box.Holds := by
  intro p start y projected
  refine Refinement.run_point (st.refinement p) S st.fuel start ?_
  rw [projected]
  exact Box.holds_project _ _

/-- Whatever the observer hands back is projected. -/
theorem checkpoint_within (held : st.box.Holds p.x) :
    (st.checkpoint p).Keeps st.box.askedWithin (fun p' _ => st.box.Holds p'.x) () :=
  ⟨fun _ here => Option.mem_some_iff.1 here ▸ held, fun _ _ => Box.holds_project _ _⟩

theorem loop_within (fuel : Nat) (held : st.box.Holds p.x) :
    (st.loop fuel p).Keeps st.box.askedWithin (fun p' _ => st.box.Holds p'.x) () := by
  refine loop_keeps (fun p _ => st.box.Holds p.x) (fun _ _ held => Box.permits_within held)
    (lands_within st S) (fun _ => Box.clock_within st.box) ?_ ?_ fuel p () held
  · intro p p' _ held stands _
    rw [stands.x]
    exact held
  · rintro p p' _ status held (stands | moves) _
    · exact checkpoint_within (stands.x ▸ held)
    · exact checkpoint_within moves.trial

end Setting

/-- A minimization asks about points of its box and ends at one. -/
theorem SolverState.minimize_within (state : SolverState α S n) (options : Options α)
    (box : Box α n) (start : Vec α n) (fuel : Nat) :
    (state.minimize options box start fuel).Keeps box.askedWithin
      (fun found _ => box.Holds found.x) () := by
  have held := Box.holds_project box start
  unfold minimize
  have opened : (state.begin options box start fuel).Keeps box.askedWithin
      (fun out _ => out.1.box = box ∧ box.Holds out.2.x) () := by
    apply begin_keeps state fuel (Box.permits_within held) held box.clock_within
    intro st p opens
    obtain ⟨-, rfl, here, -⟩ := opens
    exact (Setting.checkpoint_within (here ▸ held)).mono fun _ _ shown => ⟨rfl, shown⟩
  refine opened.bind ?_
  rintro ⟨st, p⟩ _ ⟨rfl, shown⟩
  exact (Setting.loop_within fuel shown).bind fun _ _ last => last

/-- **Feasibility.** Every question of a minimization on a domain is about a point that the domain
holds, and so is the point that it ends with, on every path that the answers can take and hence in
every run. -/
theorem Solver.solve_feasible (solver : Solver α S) (p : Problem α) (dom : Domain α) (x : Array α)
    (fuel : Nat) :
    (∀ d, solver.solve p dom x fuel = .ok d →
      d.Keeps dom.box.askedWithin (fun found _ => dom.box.Holds found.x) ()) ∧
    ∀ {ω : Type} (observer : Observer α ω) (clock : Clock ω) (w : ω)
      (solution : Solution α S ω dom.dim),
      solver.run p dom x observer clock fuel w = .ok (.ok solution) →
        (∀ q ∈ solution.transcript.asked, ∀ y ∈ q.point?, dom.box.Holds y) ∧
          ∃ y : Vec α dom.dim, y.toArray = solution.x ∧ dom.box.Holds y := by
  have kept : ∀ d, solver.solve p dom x fuel = .ok d →
      d.Keeps dom.box.askedWithin (fun found _ => dom.box.Holds found.x) () :=
    fun d made => Solver.solve_keeps (fun _ _ => SolverState.minimize_within _ _ _ _ _) made
  refine ⟨kept, ?_⟩
  intro ω observer clock w solution ran
  obtain ⟨asked, found, _, -, held, same, -, -⟩ := run_keeps (fun _ _ => True) kept
    (fun _ _ _ _ _ _ _ => ⟨trivial, trivial⟩) trivial ran
  exact ⟨fun q here => (asked q here).elim fun _ held => held, found.x, same, held⟩

/-- The sphere in one variable between one and two. -/
def cappedSphere : Problem Float :=
  .minimize Sphere.objective
    { dim := 1, dim_pos := Nat.one_pos
      box := { lower := fun _ => 1, upper := fun _ => 2, ordered := fun _ => by decide } }

/-- The minimizer of the run below. -/
def cappedSphereSolver : Solver Float ConjugateGradient.subsolver := .new _ .standard 1

/-- A run from outside the box: the start is projected and the minimizer is on a bound. -/
theorem solve_feasible_cappedSphere :
    (∃ d, cappedSphereSolver.solve cappedSphere cappedSphere.domain #[5] 9 = .ok d ∧
      d.Keeps cappedSphere.domain.box.askedWithin
        (fun found _ => cappedSphere.domain.box.Holds found.x) ()) ∧
    ∃ solution, cappedSphereSolver.run cappedSphere cappedSphere.domain #[5] .silent
        .stopped 9 () = .ok (.ok solution) ∧
      (∀ q ∈ solution.transcript.asked, ∀ y ∈ q.point?, cappedSphere.domain.box.Holds y) ∧
        ∃ y, y.toArray = solution.x ∧ cappedSphere.domain.box.Holds y := by
  have feasible := cappedSphereSolver.solve_feasible cappedSphere cappedSphere.domain #[5] 9
  obtain ⟨d, made⟩ : ∃ d, cappedSphereSolver.solve cappedSphere cappedSphere.domain #[5] 9 = .ok d :=
    ⟨_, rfl⟩
  refine ⟨⟨d, made, feasible.1 d made⟩, ?_⟩
  have ends : ((cappedSphereSolver.run cappedSphere cappedSphere.domain #[5] .silent
      .stopped 9 ()).toOption.bind Except.toOption).isSome := by
    decide +kernel
  cases ran : cappedSphereSolver.run cappedSphere cappedSphere.domain #[5] .silent
      .stopped 9 () with
  | error stop => simp [ran, Except.toOption] at ends
  | ok result =>
      cases result with
      | error e => simp [ran, Except.toOption] at ends
      | ok solution => exact ⟨solution, rfl, feasible.2 _ _ _ _ ran⟩

end BoxNewton
