import Mathlib
import BoxNewton.Solver.Query
import BoxNewton.Subproblem

/-!
# Dialogues with fixed answers

A dialogue that is held with fixed answers comes to one result or is exhausted (`Dialogue.eval`).
Evaluation follows the structure of the dialogue (`eval_bind`), and so does counting the questions on the
way (`tally_bind`), which are the ones that a run asks (`run_of_tally`).

A dialogue for products is held with one operator. When it is about the selected variables and handed on,
it comes to the same result as one with the compressed operator `Zᵀ A Z` (`eval_restricted`); when the
objective answers for the Hessian, to the same as one with the Hessian at the point
(`HessianModel.eval_exact`).
-/

set_option autoImplicit false

namespace BoxNewton

namespace Dialogue

variable {Note Question Question' : Type} {Answer : Question → Type} {Answer' : Question' → Type}
  {β γ σ : Type}

section Rules

variable {answer : (q : Question) → Answer q}

@[simp] theorem eval_pure (b : β) :
    (pure b : Dialogue Note Question Answer β).eval answer = some b := rfl

@[simp] theorem eval_exhausted :
    (exhausted : Dialogue Note Question Answer β).eval answer = none := rfl

@[simp] theorem eval_remark (r : Note) :
    (remark r : Dialogue Note Question Answer Unit).eval answer = some () := rfl

@[simp] theorem eval_remarkWhen (holds : Bool) (r : Note) :
    (remarkWhen holds r : Dialogue Note Question Answer Unit).eval answer = some () := by
  cases holds <;> rfl

@[simp] theorem eval_question (q : Question) :
    (question q : Dialogue Note Question Answer (Answer q)).eval answer = some (answer q) := rfl

/-- A sequence is evaluated in sequence. -/
@[simp] theorem eval_bind (d : Dialogue Note Question Answer γ)
    (f : γ → Dialogue Note Question Answer β) :
    (d >>= f).eval answer = (d.eval answer).bind fun b => (f b).eval answer := by
  change (d.bind f).eval answer = _
  induction d with
  | done b => rfl
  | note _ _ ih => exact ih
  | ask q next ih => exact ih (answer q)
  | exhausted => rfl

theorem eval_addCount {total more : Nat} (fits : Storage.FitsWord (total + more)) :
    (addCount total more : Dialogue Note Question Answer Nat).eval answer = some (total + more) := by
  rw [addCount, if_pos fits]
  rfl

/-- A count that has not outgrown its word is the sum. -/
theorem eq_of_eval_addCount {total more count : Nat}
    (added : (addCount total more : Dialogue Note Question Answer Nat).eval answer = some count) :
    count = total + more := by
  rw [addCount] at added
  split at added
  · cases added
    rfl
  · cases added

end Rules

/-- **Questions that are handed on.** When every replacement comes to the answer, the whole comes to
the result. -/
theorem eval_through {answer : (q : Question) → Answer q} {answer' : (q : Question') → Answer' q}
    {find : (q : Question) → σ → Dialogue Note Question' Answer' (Answer q × σ)}
    (found : ∀ q s, ∃ s', (find q s).eval answer' = some (answer q, s'))
    (d : Dialogue Note Question Answer β) (s : σ) :
    ((d.through find s).eval answer').map Prod.fst = d.eval answer := by
  induction d generalizing s with
  | done b => rfl
  | note _ _ ih => exact ih s
  | ask q next ih =>
      obtain ⟨s', came⟩ := found q s
      change ((find q s >>= fun p => (next p.1).through find p.2).eval answer').map Prod.fst = _
      rw [eval_bind, came, Option.bind_some]
      exact ih (answer q) s'
  | exhausted => rfl

/-! ## Counting questions -/

/-- The result of a dialogue with fixed answers, and the number of questions up to there. -/
def tally (answer : (q : Question) → Answer q) :
    Dialogue Note Question Answer β → Nat → Option (β × Nat)
  | done result, k => some (result, k)
  | note _ rest, k => rest.tally answer k
  | ask q next, k => (next (answer q)).tally answer (k + 1)
  | exhausted, _ => none

section Tally

variable {answer : (q : Question) → Answer q} {k : Nat}

@[simp] theorem tally_pure (b : β) :
    (pure b : Dialogue Note Question Answer β).tally answer k = some (b, k) := rfl

@[simp] theorem tally_remark (r : Note) :
    (remark r : Dialogue Note Question Answer Unit).tally answer k = some ((), k) := rfl

@[simp] theorem tally_bind (d : Dialogue Note Question Answer γ)
    (f : γ → Dialogue Note Question Answer β) :
    (d >>= f).tally answer k = (d.tally answer k).bind fun out => (f out.1).tally answer out.2 := by
  change (d.bind f).tally answer k = _
  induction d generalizing k with
  | done b => rfl
  | note _ _ ih => exact ih
  | ask q next ih => exact ih (answer q)
  | exhausted => rfl

/-- Counting changes nothing about the result. -/
theorem eval_eq_tally (d : Dialogue Note Question Answer β) (k : Nat) :
    d.eval answer = (d.tally answer k).map Prod.fst := by
  induction d generalizing k with
  | done b => rfl
  | note _ _ ih => exact ih k
  | ask q next ih => exact ih (answer q) (k + 1)
  | exhausted => rfl

/-- **A run asks as many questions as are counted**, in a world whose answers do not change. -/
theorem run_of_tally {ω : Type} {world : (q : Question) → ω → Except Stop (Answer q × ω)}
    (answers : ∀ q w, world q w = .ok (answer q, w)) {d : Dialogue Note Question Answer β} {b : β}
    {k' : Nat} (found : d.tally answer k = some (b, k')) (w : ω) (t : Transcript Note Question)
    (counted : t.asked.size = k) :
    ∃ t', d.run world w t = .ok (b, w, t') ∧ t'.asked.size = k' := by
  induction d generalizing k t with
  | done result =>
      cases found
      exact ⟨t, rfl, counted⟩
  | note r rest ih => exact ih found { t with notes := t.notes.push r } counted
  | ask q next ih =>
      simp only [Dialogue.run, answers]
      refine ih (answer q) found { t with asked := t.asked.push q } ?_
      rw [Array.size_push, counted]
  | exhausted => cases found

end Tally

/-- What a run returns in a world whose answers do not change is what the dialogue comes to. -/
theorem eval_of_run {ω : Type} {answer : (q : Question) → Answer q}
    {world : (q : Question) → ω → Except Stop (Answer q × ω)}
    (answers : ∀ q w, world q w = .ok (answer q, w)) {d : Dialogue Note Question Answer β} {b : β}
    {w w' : ω} {t t' : Transcript Note Question} (went : d.run world w t = .ok (b, w', t')) :
    d.eval answer = some b := by
  induction d generalizing w t with
  | done result =>
      cases went
      rfl
  | note r rest ih => exact ih went
  | ask q next ih =>
      simp only [Dialogue.run, answers] at went
      exact ih (answer q) went
  | exhausted => cases went

end Dialogue

variable {α : Type} {n : Nat}

/-- The answers of one operator. -/
def answeredBy (A : Vec α n → Vec α n) (q : Product α n) : Vec α n := A q.direction

@[simp] theorem eval_request (A : Vec α n → Vec α n) (direction out : Vec α n) :
    (Product.request direction out).eval (answeredBy A) = some (A direction) := rfl

@[simp] theorem tally_request (A : Vec α n → Vec α n) (direction out : Vec α n) (k : Nat) :
    (Product.request direction out).tally (answeredBy A) k = some (A direction, k + 1) := rfl

/-- A world in which one operator answers. -/
def answering (A : Vec α n → Vec α n) (q : Product α n) (w : Unit) :
    Except Dialogue.Stop (Vec α n × Unit) := .ok (answeredBy A q, w)

/-- The answers of an objective by its value, its gradient and the products with its Hessian, beside an
observer that changes nothing and a clock that does not run out. -/
def plainAnswer (f : Vec α n → α) (f' : Vec α n → Vec α n) (H : Vec α n → Vec α n → Vec α n) :
    (q : Query α n) → q.Reply
  | .value x => f x
  | .gradient x _ => f' x
  | .valueGradient x _ => (f x, f' x)
  | .product x v _ => H x v
  | .observe x g report => ⟨x, g, report.status⟩
  | .outOfTime _ => false

variable [Scalar α]

/-- The operator `Zᵀ A Z` on the selected variables. -/
def IndexSet.compress (set : IndexSet (Fin n)) (A : Vec α n → Vec α n) (v : Vec α set.size) :
    Vec α set.size :=
  set.gather (A (set.scatter v (Vec.zeros n)))

/-- A dialogue about the selected variables comes to what it comes to with the compressed operator. -/
theorem eval_restricted {β : Type} (set : IndexSet (Fin n)) (A : Vec α n → Vec α n)
    (d : OperatorDialogue α set.size β) (full : Vec α n) :
    ((d.through (Product.restricted set) full).eval (answeredBy A)).map Prod.fst =
      d.eval (answeredBy (set.compress A)) :=
  Dialogue.eval_through (fun _ _ => ⟨_, rfl⟩) d full

/-- When the objective answers for the Hessian, a dialogue about products comes to what it comes to with
the Hessian at the point. -/
theorem HessianModel.eval_exact {β : Type} {f : Vec α n → α} {f' : Vec α n → Vec α n}
    {H : Vec α n → Vec α n → Vec α n} {x : Vec α n} {d : OperatorDialogue α n β} {b : β}
    (found : d.eval (answeredBy (H x)) = some b) (asked : Nat) :
    ∃ asked', (d.through (exact.answer x) asked).eval (plainAnswer f f' H) = some (b, asked') := by
  have same : ((d.through (exact.answer x) asked).eval (plainAnswer f f' H)).map Prod.fst =
      d.eval (answeredBy (H x)) :=
    Dialogue.eval_through (fun _ asked => ⟨asked + 1, rfl⟩) d asked
  rw [found, Option.map_eq_some_iff] at same
  obtain ⟨⟨_, asked'⟩, went, rfl⟩ := same
  exact ⟨asked', went⟩

end BoxNewton
