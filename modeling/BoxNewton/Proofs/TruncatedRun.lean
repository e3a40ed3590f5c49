import Mathlib
import BoxNewton.Proofs.TruncatedDirections

/-!
# Runs of truncated conjugate gradients

What a run goes through in exact arithmetic, for an operator that may be any map of real vectors. An
iteration stops with a solution (`Stops`) or goes on with the next iterate, residual and direction
(`GoesOn`), and not both. A run is a chain of iterations that go on, up to one that stops or to the limit
(`Ends`); the products that it asks for are its iterations (`tally_iterate`). A call does not depend on
what earlier calls have left in the workspace (`Returns`).

Without symmetry or even linearity the search directions are not conjugate. What survives is that the
residual has the same product with the direction as with itself (`Position.Sound`). So the direction is
not zero, the step to the boundary ends on the boundary, and the solution is where its status says
(`Ends.placed`). For a linear operator the residual of the recurrence is the true one (`Ends.residual`).
Together these make up what a subsolver owes to its caller (`solve_honours`).
-/

set_option autoImplicit false

namespace BoxNewton.ConjugateGradient

variable {n : Nat}

/-! ## One iteration -/

/-- The real vectors that an iteration starts from: the iterate, the residual and the direction. -/
structure Position (n : Nat) where
  x : Fin n → ℝ
  r : Fin n → ℝ
  p : Fin n → ℝ

namespace Position

/-- The position before the first iteration. -/
def start (b : Fin n → ℝ) : Position n := ⟨0, b, b⟩

/-- The point at some distance along the direction. -/
def along (s : Position n) (t : ℝ) : Fin n → ℝ := s.x + t • s.p

/-- The distance to the boundary along the direction. -/
noncomputable def toBoundary (s : Position n) (radius : ℝ) : ℝ :=
  largerRoot (s.p ⬝ᵥ s.p) (s.x ⬝ᵥ s.p) (s.x ⬝ᵥ s.x - radius * radius)

variable (A : (Fin n → ℝ) → Fin n → ℝ) (s : Position n)

/-- The curvature along the direction. -/
noncomputable def curvature : ℝ := s.p ⬝ᵥ A s.p

/-- The distance to the next iterate along the direction. -/
noncomputable def length : ℝ := (s.r ⬝ᵥ s.r) / s.curvature A

/-- The position after an iteration that goes on. -/
noncomputable def next : Position n :=
  let r := s.r + (-s.length A) • A s.p
  { x := s.along (s.length A), r, p := r + ((r ⬝ᵥ r) / (s.r ⬝ᵥ s.r)) • s.p }

end Position

section Iteration

variable (A : (Fin n → ℝ) → Fin n → ℝ) (radius tolerance : ℝ)

/-- The ways in which an iteration stops, each with a status and a solution. -/
inductive Stops (s : Position n) : SubproblemStatus → (Fin n → ℝ) → Prop where
  | flat (notCurved : s.curvature A ≤ 0) :
      Stops s .onBoundary (s.along (s.toBoundary radius))
  | crossing (curved : 0 < s.curvature A)
      (leaves : radius * radius ≤ (s.next A).x ⬝ᵥ (s.next A).x) :
      Stops s .onBoundary (s.along (s.toBoundary radius))
  | solved (curved : 0 < s.curvature A) (stays : (s.next A).x ⬝ᵥ (s.next A).x < radius * radius)
      (small : √((s.next A).r ⬝ᵥ (s.next A).r) ≤ tolerance) :
      Stops s .converged (s.next A).x

/-- An iteration that goes on. -/
structure GoesOn (s : Position n) : Prop where
  curved : 0 < s.curvature A
  stays : (s.next A).x ⬝ᵥ (s.next A).x < radius * radius
  large : tolerance < √((s.next A).r ⬝ᵥ (s.next A).r)

variable {A radius tolerance} {s : Position n} {status status' : SubproblemStatus}
  {x x' : Fin n → ℝ}

/-- An iteration that goes on has not stopped. -/
theorem GoesOn.not_stops (goes : GoesOn A radius tolerance s) :
    ¬ Stops A radius tolerance s status x := by
  intro stops
  cases stops with
  | flat notCurved => exact notCurved.not_gt goes.curved
  | crossing _ leaves => exact leaves.not_gt goes.stays
  | solved _ _ small => exact small.not_gt goes.large

/-- There is only one way to stop. -/
theorem Stops.unique (first : Stops A radius tolerance s status x)
    (second : Stops A radius tolerance s status' x') : status = status' ∧ x = x' := by
  cases first with
  | flat notCurved =>
      cases second with
      | flat => exact ⟨rfl, rfl⟩
      | crossing => exact ⟨rfl, rfl⟩
      | solved curved => exact absurd curved notCurved.not_gt
  | crossing curved leaves =>
      cases second with
      | flat => exact ⟨rfl, rfl⟩
      | crossing => exact ⟨rfl, rfl⟩
      | solved _ stays => exact absurd stays leaves.not_gt
  | solved curved stays =>
      cases second with
      | flat notCurved => exact absurd curved notCurved.not_gt
      | crossing _ leaves => exact absurd stays leaves.not_gt
      | solved => exact ⟨rfl, rfl⟩

/-! ## Runs -/

variable (A radius tolerance)

/-- How a run with so many iterations left ends: with a status, after so many products, at a solution. -/
inductive Ends : Nat → Position n → SubproblemStatus → Nat → (Fin n → ℝ) → Prop where
  | limit (s : Position n) : Ends 0 s .maxIterations 0 s.x
  | stop {k : Nat} {s : Position n} {status : SubproblemStatus} {x : Fin n → ℝ}
      (stops : Stops A radius tolerance s status x) : Ends (k + 1) s status 1 x
  | further {k : Nat} {s : Position n} {status : SubproblemStatus} {products : Nat}
      {x : Fin n → ℝ} (goes : GoesOn A radius tolerance s)
      (rest : Ends k (s.next A) status products x) : Ends (k + 1) s status (products + 1) x

variable {A radius tolerance}

theorem Ends.products_le {k products : Nat} (ends : Ends A radius tolerance k s status products x) :
    products ≤ k := by
  induction ends with
  | limit => exact le_rfl
  | stop => exact Nat.succ_le_succ (Nat.zero_le _)
  | further _ _ ih => exact Nat.succ_le_succ ih

/-- **The iterations of the subsolver are a run.** It asks for one product an iteration, and nothing about
it depends on the vector that the first product replaces. -/
theorem tally_iterate (A : (Fin n → ℝ) → Fin n → ℝ) (radius tolerance : ℝ) (limit : Nat) :
    ∀ (remaining : Nat) (s : Position n), remaining ≤ limit →
      ∃ status products x, Ends A radius tolerance remaining s status products x ∧
        ∀ (product : Vec EReal n) (k : Nat), ∃ product',
          (iterate (radius : EReal) (tolerance : EReal) limit remaining
            (realState s.x s.r s.p (s.r ⬝ᵥ s.r) product)).tally (answeredBy (Vec.realMap A)) k =
              some (finish status (limit - remaining + products) (Vec.ofReal x) product',
                k + products) := by
  intro remaining
  induction remaining with
  | zero =>
      intro s _
      exact ⟨_, _, _, .limit s, fun product k => ⟨product, rfl⟩⟩
  | succ remaining ih =>
      intro s within
      have iteration : limit - remaining = limit - (remaining + 1) + 1 := by omega
      by_cases flat : s.curvature A ≤ 0
      · refine ⟨_, _, _, .stop (.flat flat), fun product k => ⟨Vec.ofReal (A s.p), ?_⟩⟩
        rw [tally_iterate_succ, ← iteration]
        exact if_pos flat
      have curved := not_le.1 flat
      by_cases leaves : radius * radius ≤ (s.next A).x ⬝ᵥ (s.next A).x
      · refine ⟨_, _, _, .stop (.crossing curved leaves),
          fun product k => ⟨Vec.ofReal (A s.p), ?_⟩⟩
        rw [tally_iterate_succ, ← iteration]
        exact (if_neg flat).trans (if_pos leaves)
      have stays := not_le.1 leaves
      by_cases small : √((s.next A).r ⬝ᵥ (s.next A).r) ≤ tolerance
      · refine ⟨_, _, _, .stop (.solved curved stays small),
          fun product k => ⟨Vec.ofReal (A s.p), ?_⟩⟩
        rw [tally_iterate_succ, ← iteration]
        exact (if_neg flat).trans ((if_neg leaves).trans (if_pos small))
      · obtain ⟨status, products, x, rest, came⟩ := ih (s.next A) (Nat.le_of_succ_le within)
        refine ⟨status, products + 1, x, .further ⟨curved, stays, not_le.1 small⟩ rest, ?_⟩
        intro product k
        obtain ⟨product', came⟩ := came (Vec.ofReal (A s.p)) (k + 1)
        refine ⟨product', ?_⟩
        have total : limit - remaining + products = limit - (remaining + 1) + (products + 1) := by
          omega
        have asked : k + 1 + products = k + (products + 1) := by omega
        rw [total, asked] at came
        rw [tally_iterate_succ]
        exact (if_neg flat).trans ((if_neg leaves).trans ((if_neg small).trans came))

end Iteration

/-! ## Calls -/

/-- Holds when a call with this operator comes to this result and solution and asks for so many products,
whatever the workspace has kept from earlier systems and whatever vector the solution replaces. -/
def Returns (A : (Fin n → ℝ) → Fin n → ℝ) (b : Fin n → ℝ) (radius tolerance : ℝ) (limit : Nat)
    (result : SubproblemResult) (x : Fin n → ℝ) (products : Nat) : Prop :=
  ∀ (w : (subsolver (α := EReal)).State) (out : Vec EReal n), ∃ w' transcript,
    (subsolver.solve w (Vec.ofReal b) radius tolerance limit out).run
      (answering (Vec.realMap A)) () {} = .ok (((result, Vec.ofReal x), w'), (), transcript) ∧
    transcript.asked.size = products

section Calls

variable {A : (Fin n → ℝ) → Fin n → ℝ} {b : Fin n → ℝ} {radius tolerance : ℝ} {limit : Nat}

/-- A call is what its dialogue comes to. -/
theorem returns_of_tally {result : SubproblemResult} {x : Fin n → ℝ} {products : Nat}
    (came : ∀ w : Workspace EReal, ∃ w',
      (solve w (Vec.ofReal b) radius tolerance limit).tally (answeredBy (Vec.realMap A)) 0 =
        some (((result, Vec.ofReal x), w'), products)) :
    Returns A b radius tolerance limit result x products := by
  intro w out
  obtain ⟨w', came⟩ := came w
  have answers : ∀ q w, answering (Vec.realMap A) q w = .ok (answeredBy (Vec.realMap A) q, w) :=
    fun _ _ => rfl
  obtain ⟨transcript, went, counted⟩ := Dialogue.run_of_tally answers came () {} rfl
  exact ⟨w', transcript, went, counted⟩

/-- What a call comes to is determined. -/
theorem Returns.unique {result result' : SubproblemResult} {x x' : Fin n → ℝ}
    {products products' : Nat} (first : Returns A b radius tolerance limit result x products)
    (second : Returns A b radius tolerance limit result' x' products') :
    result = result' ∧ x = x' ∧ products = products' := by
  obtain ⟨w, transcript, went, counted⟩ := first subsolver.initial (Vec.zeros n)
  obtain ⟨w', transcript', went', counted'⟩ := second subsolver.initial (Vec.zeros n)
  rw [went] at went'
  simp only [Except.ok.injEq, Prod.mk.injEq] at went'
  obtain ⟨⟨⟨same, solution⟩, -⟩, -, rfl⟩ := went'
  exact ⟨same, Vec.ofReal_injective solution, counted.symm.trans counted'⟩

/-- What a call comes to, as a dialogue. -/
theorem Returns.eval {result : SubproblemResult} {x : Fin n → ℝ} {products : Nat}
    (returned : Returns A b radius tolerance limit result x products)
    (kept : (subsolver (α := EReal)).State) (out : Vec EReal n) :
    ∃ later, (subsolver.solve kept (Vec.ofReal b) radius tolerance limit out).eval
      (answeredBy (Vec.realMap A)) = some ((result, Vec.ofReal x), later) := by
  obtain ⟨later, transcript, went, -⟩ := returned kept out
  exact ⟨later, Dialogue.eval_of_run (fun _ _ => rfl) went⟩

/-- A call with a zero right-hand side asks for nothing. -/
theorem returns_zero (A : (Fin n → ℝ) → Fin n → ℝ) (radius tolerance : ℝ) (limit : Nat) :
    Returns A 0 radius tolerance limit ⟨.converged, 0⟩ 0 0 := by
  refine returns_of_tally fun w => ⟨⟨n, w.buffer n⟩, ?_⟩
  have zero : Scalar.Agree (Vec.ofReal (0 : Fin n → ℝ)).norm 0 := by
    simp [Scalar.agree_iff]
  rw [solve, if_pos zero, Vec.zeros_eq_ofReal]
  rfl

/-- Any other call is a run. -/
theorem exists_returns (A : (Fin n → ℝ) → Fin n → ℝ) (moves : b ≠ 0) (radius tolerance : ℝ)
    (limit : Nat) :
    ∃ status products x,
      Ends A radius (tolerance * √(b ⬝ᵥ b)) limit (.start b) status products x ∧
        Returns A b radius tolerance limit ⟨status, products⟩ x products := by
  obtain ⟨status, products, x, ends, came⟩ :=
    tally_iterate A radius (tolerance * √(b ⬝ᵥ b)) limit limit (.start b) le_rfl
  refine ⟨status, products, x, ends, returns_of_tally fun w => ?_⟩
  obtain ⟨product', came⟩ := came (w.buffer n) 0
  have nonzero : ¬ Scalar.Agree (Vec.ofReal b).norm 0 := by
    rw [Scalar.agree_iff, Vec.norm_ofReal, EReal.coe_eq_zero, Real.sqrt_eq_zero (dot_self_nonneg b)]
    exact (dot_self_pos_iff.2 moves).ne'
  refine ⟨⟨n, product'⟩, ?_⟩
  rw [solve, if_neg nonzero, Vec.norm_ofReal, Vec.normSq_ofReal, Vec.zeros_eq_ofReal,
    ← EReal.coe_mul]
  rw [Nat.sub_self, Nat.zero_add] at came
  exact came

end Calls

/-! ## Where a run ends -/

/-- What the iterations keep for any operator. -/
structure Position.Sound (radius : ℝ) (s : Position n) : Prop where
  remains : 0 < s.r ⬝ᵥ s.r
  aligned : s.r ⬝ᵥ s.p = s.r ⬝ᵥ s.r
  inside : s.x ⬝ᵥ s.x < radius * radius

section Sound

variable {A : (Fin n → ℝ) → Fin n → ℝ} {radius tolerance : ℝ} {s : Position n}

theorem Position.sound_start {b : Fin n → ℝ} (moves : b ≠ 0) (positive : 0 < radius) :
    (Position.start b).Sound radius where
  remains := dot_self_pos_iff.2 moves
  aligned := rfl
  inside := by
    rw [Position.start, zero_dotProduct]
    exact mul_pos positive positive

/-- A direction that is aligned with the residual is not zero. -/
theorem Position.Sound.moves (sound : s.Sound radius) : 0 < s.p ⬝ᵥ s.p := by
  rw [dot_self_pos_iff]
  intro zero
  have aligned := sound.aligned
  rw [zero, dotProduct_zero] at aligned
  exact sound.remains.ne aligned

/-- An iteration that goes on keeps this: the new residual is orthogonal to the direction by the choice of
the length alone. -/
theorem Position.Sound.next (sound : s.Sound radius) (tight : 0 ≤ tolerance)
    (goes : GoesOn A radius tolerance s) : (s.next A).Sound radius where
  remains := Real.sqrt_pos.1 (tight.trans_lt goes.large)
  aligned := by
    have reaches : s.length A * s.curvature A = s.r ⬝ᵥ s.r := div_mul_cancel₀ _ goes.curved.ne'
    have orthogonal : (s.next A).r ⬝ᵥ s.p = 0 := by
      change (s.r + (-s.length A) • A s.p) ⬝ᵥ s.p = 0
      rw [add_dotProduct, smul_dotProduct, sound.aligned, dotProduct_comm (A s.p), ← reaches,
        smul_eq_mul, Position.curvature]
      ring
    change (s.next A).r ⬝ᵥ ((s.next A).r + _ • s.p) = _
    rw [dotProduct_add, dotProduct_smul, orthogonal, smul_zero, add_zero]
  inside := goes.stays

/-- The step to the boundary ends on the boundary. -/
theorem Position.Sound.on_boundary (sound : s.Sound radius) :
    s.along (s.toBoundary radius) ⬝ᵥ s.along (s.toBoundary radius) = radius * radius := by
  have root := largerRoot_root (B := s.x ⬝ᵥ s.p) sound.moves (sub_nonpos.2 sound.inside.le)
  simp only [Position.along, Position.toBoundary, add_dotProduct, dotProduct_add, smul_dotProduct,
    dotProduct_smul, smul_eq_mul, dotProduct_comm s.p s.x]
  linear_combination root

/-- Where a solution lies, by its status. -/
def Placed (radius : ℝ) (limit products : Nat) (x : Fin n → ℝ) : SubproblemStatus → Prop
  | .converged => x ⬝ᵥ x < radius * radius
  | .onBoundary => x ⬝ᵥ x = radius * radius
  | .maxIterations => products = limit ∧ x ⬝ᵥ x < radius * radius

variable {k products : Nat} {status : SubproblemStatus} {x : Fin n → ℝ}

theorem Stops.placed (stops : Stops A radius tolerance s status x) (sound : s.Sound radius) :
    Placed radius (k + 1) 1 x status := by
  cases stops with
  | flat => exact sound.on_boundary
  | crossing => exact sound.on_boundary
  | solved _ stays => exact stays

/-- **The solution lies where its status says.** -/
theorem Ends.placed (ends : Ends A radius tolerance k s status products x) (tight : 0 ≤ tolerance)
    (sound : s.Sound radius) : Placed radius k products x status := by
  induction ends with
  | limit s => exact ⟨rfl, sound.inside⟩
  | stop stops => exact stops.placed sound
  | @further k s status products x goes rest ih =>
      have placed := ih (sound.next tight goes)
      cases status with
      | converged => exact placed
      | onBoundary => exact placed
      | maxIterations => exact ⟨congrArg (· + 1) placed.1, placed.2⟩

/-- **The residual of a linear operator.** A run that starts from the true residual and converges ends
with a true residual within the tolerance. -/
theorem Ends.residual (ends : Ends A radius tolerance k s status products x) (linear : IsLinearMap ℝ A)
    {b : Fin n → ℝ} (start : s.r = b - A s.x) (converged : status = .converged) :
    √((b - A x) ⬝ᵥ (b - A x)) ≤ tolerance := by
  have step : ∀ s : Position n, s.r = b - A s.x → (s.next A).r = b - A (s.next A).x := by
    intro s start
    change s.r + (-s.length A) • A s.p = b - A (s.x + s.length A • s.p)
    rw [start, linear.map_add, linear.map_smul, neg_smul]
    abel
  induction ends with
  | limit => cases converged
  | @stop _ s _ _ stops =>
      cases stops with
      | flat => cases converged
      | crossing => cases converged
      | solved _ _ small => rwa [← step s start]
  | further _ _ ih => exact ih (step _ start) converged

end Sound

/-! ## What a subsolver owes -/

/-- What a caller may rely on, whatever the operator. -/
structure Honours (A : (Fin n → ℝ) → Fin n → ℝ) (b : Fin n → ℝ) (radius tolerance : ℝ)
    (limit : Nat) (result : SubproblemResult) (x : Fin n → ℝ) (products : Nat) : Prop where
  counted : products = result.iterations
  limited : result.iterations ≤ limit
  inside : √(x ⬝ᵥ x) ≤ radius
  boundary : result.status = .onBoundary → √(x ⬝ᵥ x) = radius
  exhausted : result.status = .maxIterations → result.iterations = limit ∧ √(x ⬝ᵥ x) < radius
  zero : b = 0 → x = 0 ∧ result.status = .converged ∧ products = 0
  solved : IsLinearMap ℝ A → result.status = .converged →
    √((b - A x) ⬝ᵥ (b - A x)) ≤ tolerance * √(b ⬝ᵥ b)

section Contract

variable {A : (Fin n → ℝ) → Fin n → ℝ} {b : Fin n → ℝ} {radius tolerance : ℝ} {limit : Nat}

theorem Placed.inside {products : Nat} {x : Fin n → ℝ} {status : SubproblemStatus}
    (placed : Placed radius limit products x status) : x ⬝ᵥ x ≤ radius * radius := by
  cases status with
  | converged => exact le_of_lt placed
  | onBoundary => exact le_of_eq placed
  | maxIterations => exact le_of_lt placed.2

theorem honours_zero (A : (Fin n → ℝ) → Fin n → ℝ) (positive : 0 < radius) :
    Honours A 0 radius tolerance limit ⟨.converged, 0⟩ 0 0 where
  counted := rfl
  limited := Nat.zero_le limit
  inside := by simpa using positive.le
  boundary status := by cases status
  exhausted status := by cases status
  zero _ := ⟨rfl, rfl, rfl⟩
  solved linear _ := by simp [linear.map_zero]

theorem Ends.honours {status : SubproblemStatus} {products : Nat} {x : Fin n → ℝ}
    (ends : Ends A radius (tolerance * √(b ⬝ᵥ b)) limit (.start b) status products x) (moves : b ≠ 0)
    (positive : 0 < radius) (tight : 0 ≤ tolerance) :
    Honours A b radius tolerance limit ⟨status, products⟩ x products := by
  have placed := ends.placed (mul_nonneg tight (Real.sqrt_nonneg _))
    (Position.sound_start moves positive)
  refine ⟨rfl, ends.products_le, ?_, ?_, ?_, fun zero => absurd zero moves, ?_⟩
  · exact (Real.sqrt_le_sqrt placed.inside).trans_eq (Real.sqrt_mul_self positive.le)
  · rintro rfl
    have same : x ⬝ᵥ x = radius * radius := placed
    rw [same]
    exact Real.sqrt_mul_self positive.le
  · rintro rfl
    refine ⟨placed.1, ?_⟩
    rw [Real.sqrt_lt' positive, pow_two]
    exact placed.2
  · intro linear converged
    refine ends.residual linear ?_ converged
    change b = b - A 0
    rw [linear.map_zero, sub_zero]

/-- What is returned does not leave the ball. -/
theorem Returns.inside {result : SubproblemResult} {x : Fin n → ℝ} {products : Nat}
    (returned : Returns A b radius tolerance limit result x products) (positive : 0 < radius)
    (tight : 0 ≤ tolerance) : √(x ⬝ᵥ x) ≤ radius := by
  by_cases moves : b = 0
  · subst moves
    obtain ⟨-, rfl, -⟩ := returned.unique (returns_zero A radius tolerance limit)
    have zero : Honours A 0 radius tolerance limit ⟨.converged, 0⟩ 0 0 := honours_zero A positive
    exact zero.inside
  · obtain ⟨status, k, y, ends, went⟩ := exists_returns A moves radius tolerance limit
    obtain ⟨-, rfl, -⟩ := returned.unique went
    exact (ends.honours moves positive tight).inside

/-- **The contract of the subsolver.** For any operator and any right-hand side, and whatever earlier
systems have left behind, a call returns, and what it returns is as its caller may rely on. -/
theorem solve_honours (A : (Fin n → ℝ) → Fin n → ℝ) (b : Fin n → ℝ) (positive : 0 < radius)
    (tight : 0 ≤ tolerance) (limit : Nat) :
    ∃ result x products, Returns A b radius tolerance limit result x products ∧
      Honours A b radius tolerance limit result x products := by
  by_cases moves : b = 0
  · subst moves
    exact ⟨_, _, _, returns_zero A radius tolerance limit, honours_zero A positive⟩
  · obtain ⟨status, products, x, ends, returned⟩ := exists_returns A moves radius tolerance limit
    exact ⟨_, _, _, returned, ends.honours moves positive tight⟩

/-- The quarter turn of the plane. It is linear, but far from symmetric: no direction has curvature. -/
def quarterTurn (v : Fin 2 → ℝ) : Fin 2 → ℝ := ![-v 1, v 0]

theorem quarterTurn_stops {tolerance : ℝ} {s : Position 2} {k products : Nat}
    {status : SubproblemStatus} {x : Fin 2 → ℝ}
    (ends : Ends quarterTurn radius tolerance (k + 1) s status products x) :
    status = .onBoundary ∧ products = 1 := by
  have flat : s.curvature quarterTurn ≤ 0 := by
    have product : s.curvature quarterTurn = s.p 0 * -s.p 1 + s.p 1 * s.p 0 := by
      rw [Position.curvature, dotProduct, Fin.sum_univ_two]
      rfl
    rw [product]
    linarith
  cases ends with
  | stop stops => exact ⟨(stops.unique (.flat flat)).1, rfl⟩
  | further goes => exact absurd (.flat flat) goes.not_stops

/-- With the quarter turn the first product leads to the boundary. -/
theorem solve_honours_quarterTurn :
    (0 : ℝ) < 5 ∧ (0 : ℝ) ≤ 1 / 10 ∧ ∃ x,
      Returns quarterTurn ![3, 4] 5 (1 / 10) 7 ⟨.onBoundary, 1⟩ x 1 ∧
      Honours quarterTurn ![3, 4] 5 (1 / 10) 7 ⟨.onBoundary, 1⟩ x 1 ∧ √(x ⬝ᵥ x) = 5 := by
  have positive : (0 : ℝ) < 5 := by norm_num
  have tight : (0 : ℝ) ≤ 1 / 10 := by norm_num
  have moves : (![3, 4] : Fin 2 → ℝ) ≠ 0 := by simp
  obtain ⟨result, x, products, returned, honoured⟩ :=
    solve_honours quarterTurn ![3, 4] positive tight 7
  obtain ⟨status, asked, x', ends, returned'⟩ := exists_returns quarterTurn moves 5 (1 / 10) 7
  obtain ⟨rfl, rfl⟩ := quarterTurn_stops ends
  obtain ⟨rfl, rfl, rfl⟩ := returned.unique returned'
  exact ⟨positive, tight, x, returned, honoured, honoured.boundary rfl⟩

end Contract

end BoxNewton.ConjugateGradient
