import BoxNewton.Problem
import BoxNewton.Solver.Iteration

/-!
# Minimization

A minimization projects the starting point into the domain, asks for the objective there, and then
iterates until there is a reason to stop. After the initial evaluation and after every iteration the
observer sees the point, the gradient and the report, and what it hands back is projected into the
domain before anything else happens.

Problems and options are checked before the first question. A minimization that is refused by these checks
hands back the minimizer and the point as they are then.
-/

set_option autoImplicit false

namespace BoxNewton

variable {α : Type} [Scalar α] {S : Subsolver α} {n : Nat}

namespace Setting

/-- The reason to stop that a state of the minimization gives, if there is one. The clock is asked
only if nothing else comes first. -/
def verdict (st : Setting α n) (p : Progress α S n) : SolverDialogue α n Status := do
  if p.stationarity ≤ st.tolerance then return .firstOrder
  else if p.value < st.floor then return .unbounded
  else if 0 ≤ st.options.maxEvaluations ∧
      st.options.maxEvaluations < (p.evaluations.objective : Int) then return .maxEvaluations
  else if ← Query.askTime st.options.maxTime then return .maxTime
  else if st.options.maxIterations ≤ p.iteration then return .maxIterations
  else return .unknown

/-- Shows the current point to the observer and goes on with what it hands back. -/
def checkpoint (st : Setting α n) (p : Progress α S n) : SolverDialogue α n (Progress α S n) := do
  let seen ← Query.askObserver p.x p.g p.report
  return { p with x := st.box.project seen.x, g := seen.g, status := seen.status }

/-- Ends an iteration whose step was judged by the given ratio. -/
def conclude (st : Setting α n) (p : Progress α S n) (ratio : α) :
    SolverDialogue α n (Progress α S n) := do
  let p := { p with iteration := p.iteration + 1 }
  let p := { p with status := ← st.verdict p }
  let shown := 0 < st.options.verbosity ∧ p.iteration % st.options.verbosity = 0
  Dialogue.remarkWhen (decide shown) (.progress p.report ratio)
  st.checkpoint p

/-- Iterates as long as there is no reason to stop. -/
def loop (st : Setting α n) : (fuel : Nat) → Progress α S n → SolverDialogue α n (Progress α S n)
  | fuel, p =>
    if p.status ≠ .unknown then pure p
    else
      match fuel with
      | 0 => .exhausted
      | fuel + 1 => do
        match ← st.iterate p with
        | .halted p => return p
        | .judged p ratio => st.loop fuel (← st.conclude p ratio)

end Setting

/-- The value and the gradient at the starting point. -/
def askStart (options : Options α) (x out : Vec α n) : SolverDialogue α n (α × Vec α n) := do
  if options.combinedEvaluation then Query.askBoth x out
  else
    let fx ← Query.askValue x
    let g ← Query.askGradient x out
    return (fx, g)

/-- The radius to start from: a tenth of the norm of the projected gradient, within limits. -/
def startRadius (stationarity : α) : α :=
  Scalar.smaller (Scalar.larger (stationarity / 10.0) 1) 100.0

/-- Evaluates the objective at the starting point. -/
def SolverState.begin (st : SolverState α S n) (options : Options α) (box : Box α n)
    (start : Vec α n) (fuel : Nat) : SolverDialogue α n (Setting α n × Progress α S n) := do
  let x := box.project start
  Dialogue.remarkWhen (decide (box.Moves start)) .startProjected
  let (fx, g) ← askStart options x st.buffers.gradient
  let stationarity := stationarityAt box x g
  let setting : Setting α n :=
    { options, box, fuel
      tolerance := options.absoluteTolerance + options.relativeTolerance * stationarity
      floor := Scalar.smaller (-1) fx / Scalar.epsilon }
  let region := st.region.start options.region (startRadius stationarity)
  Dialogue.remark (.started fx stationarity setting.tolerance region.radius)
  let p : Progress α S n :=
    { x, value := fx, g, stationarity, status := .unknown, iteration := 0, acceptedSteps := 0
      innerIterations := 0, evaluations := ⟨1, 1, 0⟩
      state := { st with region, cauchyLength := 1 } }
  let p := { p with status := ← setting.verdict p }
  let shown := decide (0 < options.verbosity)
  Dialogue.remarkWhen shown .progressHeader
  Dialogue.remarkWhen shown (.progress p.report 0)
  return (setting, ← setting.checkpoint p)

/-- What a minimization leaves behind. -/
structure Minimum (α : Type) (S : Subsolver α) (n : Nat) where
  x : Vec α n
  report : Report α
  state : SolverState α S n

/-- Minimizes from a starting point. Every loop makes at most `fuel` passes. -/
def SolverState.minimize (st : SolverState α S n) (options : Options α) (box : Box α n)
    (start : Vec α n) (fuel : Nat) : SolverDialogue α n (Minimum α S n) := do
  let (setting, p) ← st.begin options box start fuel
  let p ← setting.loop fuel p
  Dialogue.remark (.finished p.iteration p.status)
  return { x := p.x, report := p.report, state := { p.state with buffers.gradient := p.g } }

/-! ## Checked minimization -/

/-- What keeps a minimization from starting. -/
inductive SolveError where
  | problem (error : ProblemError)
  | options (fault : OptionFault)
  deriving Repr, DecidableEq

/-- The wording of an error. -/
def SolveError.message : SolveError → String
  | .problem error => error.message
  | .options fault => "invalid options: " ++ fault.message

/-- A problem that passes has as many variables as the domain has dimensions. -/
theorem Problem.dim_eq_of_error?_eq_none {p : Problem α} {dom : Domain α} {size : Nat}
    (h : p.error? dom size = none) : size = dom.dim := by
  unfold Problem.error? at h
  split at h
  · cases h
  · split at h
    · cases h
    · split at h
      · cases h
      · rename_i same
        exact (Decidable.of_not_not same).symm

/-- What a caller lends to a minimization: the minimizer and the point to start from. -/
structure Loan (α : Type) (S : Subsolver α) where
  solver : Solver α S
  x : Array α

/-- A minimization that did not start, and what the caller is left with. -/
structure Refused (σ : Type) where
  error : SolveError
  left : σ

instance {σ : Type} : CoeOut (Refused σ) SolveError := ⟨Refused.error⟩

/-- Computations on a loan that can be refused. Whatever they have changed by then stays changed. -/
abbrev Checked (α : Type) (S : Subsolver α) : Type → Type := ExceptT SolveError (StateM (Loan α S))

/-- The starting point of a problem that passes its checks. -/
def Problem.start? (p : Problem α) (dom : Domain α) (x : Array α) :
    Except ProblemError (Vec α dom.dim) :=
  match h : p.error? dom x.size with
  | some error => .error error
  | none => .ok ⟨x, Problem.dim_eq_of_error?_eq_none h⟩

/-- Options that pass their checks. -/
def Options.checked? (o : Options α) : Except OptionFault (Options α) :=
  match o.fault? with
  | some fault => .error fault
  | none => .ok o

/-- Makes the minimizer one for vectors of dimension `n`. -/
def resizeTo (n : Nat) : Checked α S (SolverState α S n) := do
  let loan ← get
  let state := loan.solver.state.resize n
  set { loan with solver := ⟨loan.solver.options, n, state⟩ }
  return state

/-- What comes before the first question. -/
def prepare (p : Problem α) (dom : Domain α) (fuel : Nat) :
    Checked α S (SolverDialogue α dom.dim (Minimum α S dom.dim)) := do
  let start ← MonadExcept.ofExcept ((p.start? dom (← get).x).mapError .problem)
  let options ← MonadExcept.ofExcept ((← get).solver.options.checked?.mapError .options)
  let state ← resizeTo dom.dim
  return state.minimize options dom.box start fuel

/-- The minimization of a problem on a domain, once problem and options have been checked. -/
def Solver.solve (solver : Solver α S) (p : Problem α) (dom : Domain α) (x : Array α)
    (fuel : Nat) :
    Except (Refused (Loan α S)) (SolverDialogue α dom.dim (Minimum α S dom.dim)) :=
  match (prepare p dom fuel).run ⟨solver, x⟩ with
  | (.ok dialogue, _) => .ok dialogue
  | (.error error, left) => .error { error, left }

/-! ## Running a minimization -/

/-- What watches a minimization: from the current point, the gradient and the report it makes the
point, the gradient and the status to go on with. Its state is the state of the world. -/
structure Observer (α : Type) (ω : Type) where
  observe : (x g : Array α) → Report α → ω → (Array α × Array α × Status) × ω

/-- The observer that changes nothing. -/
def Observer.silent {α ω : Type} : Observer α ω where
  observe x g report w := ((x, g, report.status), w)

/-- What tells whether more than a given time has passed since the start. What it tells from one question
to the next depends on the state of the world, and changes it. -/
structure Clock (ω : Type) where
  outOfTime : (limit : Float) → ω → Bool × ω

/-- The clock that always tells the same about a limit. -/
def Clock.steady {ω : Type} (outOfTime : Float → Bool) : Clock ω where
  outOfTime limit w := (outOfTime limit, w)

instance {ω : Type} : Coe (Float → Bool) (Clock ω) := ⟨Clock.steady⟩

/-- The clock on which no time passes. -/
def Clock.stopped {ω : Type} : Clock ω := .steady fun _ => false

/-- Answers the questions of a minimization. Arrays that do not fit stop the run. -/
def Objective.answer {ω : Type} (f : Objective α) (observer : Observer α ω)
    (clock : Clock ω) : (q : Query α n) → ω → Except Dialogue.Stop (q.Reply × ω)
  | .value x, w => do return (← f.value x.toArray, w)
  | .gradient x out, w => do
    let g ← f.gradient x.toArray out.toArray
    return (← Vec.ofArray? n g, w)
  | .valueGradient x out, w => do
    let (fx, g) ← f.valueGradient x.toArray out.toArray
    return ((fx, ← Vec.ofArray? n g), w)
  | .product x v out, w => do
    let hv ← f.product x.toArray v.toArray out.toArray
    return (← Vec.ofArray? n hv, w)
  | .observe x g report, w => do
    let ((x, g, status), w) := observer.observe x.toArray g.toArray report w
    return ({ x := ← Vec.ofArray? n x, g := ← Vec.ofArray? n g, status }, w)
  | .outOfTime limit, w => return clock.outOfTime limit w

/-- A minimization that was run to its end. -/
structure Solution (α : Type) [Scalar α] (S : Subsolver α) (ω : Type) (n : Nat) where
  solver : Solver α S
  x : Array α
  report : Report α
  world : ω
  transcript : Dialogue.Transcript (Note α) (Query α n)

/-- Runs the minimization of a problem on a domain. -/
def Solver.run {ω : Type} (solver : Solver α S) (p : Problem α) (dom : Domain α) (x : Array α)
    (observer : Observer α ω) (clock : Clock ω) (fuel : Nat) (w : ω) :
    Except Dialogue.Stop (Except (Refused (Loan α S)) (Solution α S ω dom.dim)) :=
  match solver.solve p dom x fuel with
  | .error refused => .ok (.error refused)
  | .ok dialogue => do
    let (found, world, transcript) ←
      dialogue.run (p.objective.answer observer clock) w {}
    return .ok
      { solver := ⟨solver.options, dom.dim, found.state⟩
        x := found.x.toArray
        report := found.report
        world
        transcript }

/-- More passes than any loop of a minimization makes in practice. -/
def amplePasses : Nat := 1 <<< 60

end BoxNewton
