import Mathlib
import BoxNewton.Solver.Run

/-!
# Contracts on dialogues

A dialogue is a tree of questions, and what can be said about every run of it is said about every
path of the tree. A contract names what the asker promises of each question, what it relies on in the
answers, and a record that both may speak of and that every exchange moves on. A dialogue keeps a
contract when, along every path whose answers are as relied on, every question is as promised; a
result that it comes to is described by a postcondition on the result and the record (`Keeps`). A
path that is exhausted has kept its promises up to there and comes to no result.

The rules follow the ways in which dialogues are put together: sequence (`keeps_bind`), handing
questions on (`Keeps.through`) and running from a state of the world (`Keeps.run`). A run begins with the
question that comes first on every path (`run_first?`).
-/

set_option autoImplicit false

namespace BoxNewton

namespace Dialogue

variable {Note Question Question' : Type} {Answer : Question → Type} {Answer' : Question' → Type}
  {β γ σ τ ω ρ : Type}

/-- What the two sides of a dialogue owe each other, and the record of what was said. -/
structure Contract (Question : Type) (Answer : Question → Type) (σ : Type) where
  /-- What is promised of a question. -/
  promises : σ → Question → Prop
  /-- What is relied on in an answer. -/
  relies : σ → (q : Question) → Answer q → Prop
  /-- The record after an exchange. -/
  next : σ → (q : Question) → Answer q → σ

namespace Contract

/-- The contract without promises that takes every answer. -/
def free : Contract Question Answer Unit where
  promises _ _ := True
  relies _ _ _ := True
  next _ _ _ := ()

/-- The contract that promises something of each question and takes every answer. -/
def promising (promise : Question → Prop) : Contract Question Answer Unit where
  promises _ q := promise q
  relies _ _ _ := True
  next _ _ _ := ()

/-- The contract without promises that relies on something in each answer. -/
def relying (known : (q : Question) → Answer q → Prop) : Contract Question Answer Unit where
  promises _ _ := True
  relies _ q a := known q a
  next _ _ _ := ()

end Contract

/-- Holds when every path keeps the contract and comes to results as described. -/
def Keeps (c : Contract Question Answer σ) (post : β → σ → Prop) :
    Dialogue Note Question Answer β → σ → Prop
  | done result, s => post result s
  | note _ rest, s => rest.Keeps c post s
  | ask q next, s => c.promises s q ∧ ∀ a, c.relies s q a → (next a).Keeps c post (c.next s q a)
  | exhausted, _ => True

section Rules

variable {c : Contract Question Answer σ} {post post' : β → σ → Prop} {s : σ}

@[simp] theorem keeps_pure (b : β) :
    (pure b : Dialogue Note Question Answer β).Keeps c post s ↔ post b s := Iff.rfl

@[simp] theorem keeps_done (b : β) :
    (done b : Dialogue Note Question Answer β).Keeps c post s ↔ post b s := Iff.rfl

@[simp] theorem keeps_exhausted :
    (exhausted : Dialogue Note Question Answer β).Keeps c post s := trivial

@[simp] theorem keeps_remark (r : Note) {post : Unit → σ → Prop} :
    (remark r : Dialogue Note Question Answer Unit).Keeps c post s ↔ post () s := Iff.rfl

@[simp] theorem keeps_remarkWhen (holds : Bool) (r : Note) {post : Unit → σ → Prop} :
    (remarkWhen holds r : Dialogue Note Question Answer Unit).Keeps c post s ↔ post () s := by
  cases holds <;> exact Iff.rfl

@[simp] theorem keeps_question (q : Question) {post : Answer q → σ → Prop} :
    (question q : Dialogue Note Question Answer (Answer q)).Keeps c post s ↔
      c.promises s q ∧ ∀ a, c.relies s q a → post a (c.next s q a) := Iff.rfl

/-- A count that is given out is the sum. -/
theorem keeps_addCount (total more : Nat) {post : Nat → σ → Prop} (sum : post (total + more) s) :
    (addCount total more : Dialogue Note Question Answer Nat).Keeps c post s := by
  unfold addCount
  split
  · exact sum
  · trivial

theorem Keeps.mono {d : Dialogue Note Question Answer β} (kept : d.Keeps c post s)
    (weaker : ∀ b s, post b s → post' b s) : d.Keeps c post' s := by
  induction d generalizing s with
  | done b => exact weaker b s kept
  | note _ _ ih => exact ih kept
  | ask q next ih => exact ⟨kept.1, fun a relied => ih a (kept.2 a relied)⟩
  | exhausted => trivial

/-- **A sequence keeps a contract when its first part keeps it up to where the second part takes
over.** -/
@[simp] theorem keeps_bind (d : Dialogue Note Question Answer γ)
    (f : γ → Dialogue Note Question Answer β) :
    (d >>= f).Keeps c post s ↔ d.Keeps c (fun b s => (f b).Keeps c post s) s := by
  change (d.bind f).Keeps c post s ↔ _
  induction d generalizing s with
  | done b => exact Iff.rfl
  | note _ _ ih => exact ih
  | ask q next ih => exact and_congr_right fun _ => forall_congr' fun a => imp_congr_right fun _ => ih a
  | exhausted => exact Iff.rfl

/-- Whatever the first part comes to, the second part keeps the contract. -/
theorem Keeps.bind {d : Dialogue Note Question Answer γ} {f : γ → Dialogue Note Question Answer β}
    {middle : γ → σ → Prop} (first : d.Keeps c middle s)
    (second : ∀ b s, middle b s → (f b).Keeps c post s) : (d >>= f).Keeps c post s :=
  (keeps_bind d f).2 (first.mono second)

@[simp] theorem keeps_map (f : γ → β) (d : Dialogue Note Question Answer γ) :
    (f <$> d).Keeps c post s ↔ d.Keeps c (fun b s => post (f b) s) s := by
  rw [map_eq_pure_bind]
  exact keeps_bind d _

/-- Two descriptions of the results hold together. -/
theorem Keeps.and {d : Dialogue Note Question Answer β} (first : d.Keeps c post s)
    (second : d.Keeps c post' s) : d.Keeps c (fun b s => post b s ∧ post' b s) s := by
  induction d generalizing s with
  | done b => exact ⟨first, second⟩
  | note _ _ ih => exact ih first second
  | ask q next ih =>
      exact ⟨first.1, fun a relied => ih a (first.2 a relied) (second.2 a relied)⟩
  | exhausted => trivial

/-- What holds of every result, whatever is answered, holds beside what is kept. -/
theorem Keeps.and_free {d : Dialogue Note Question Answer β} {always : β → Unit → Prop}
    (kept : d.Keeps c post s) (holds : d.Keeps Contract.free always ()) :
    d.Keeps c (fun b s => post b s ∧ always b ()) s := by
  induction d generalizing s with
  | done b => exact ⟨kept, holds⟩
  | note _ _ ih => exact ih kept holds
  | ask q next ih =>
      exact ⟨kept.1, fun a relied => ih a (kept.2 a relied) (holds.2 a trivial)⟩
  | exhausted => trivial

/-- What is kept under a contract that relies on nothing holds of every result. -/
theorem Keeps.forget (relies : ∀ s q a, c.relies s q a) {d : Dialogue Note Question Answer β}
    (kept : d.Keeps c post s) : d.Keeps Contract.free (fun b _ => ∃ s', post b s') () := by
  induction d generalizing s with
  | done b => exact ⟨s, kept⟩
  | note _ _ ih => exact ih kept
  | ask q next ih => exact ⟨trivial, fun a _ => ih a (kept.2 a (relies s q a))⟩
  | exhausted => trivial

/-- Sequences whose second parts agree on every result of the first part agree. -/
theorem Keeps.bind_congr {d : Dialogue Note Question Answer γ} {holds : γ → Unit → Prop}
    (kept : d.Keeps Contract.free holds ()) {f g : γ → Dialogue Note Question Answer β}
    (same : ∀ b, holds b () → f b = g b) : d >>= f = d >>= g := by
  change d.bind f = d.bind g
  induction d with
  | done b => exact same b kept
  | note r _ ih => exact congrArg (note r) (ih kept)
  | ask q next ih => exact congrArg (ask q) (funext fun a => ih a (kept.2 a trivial))
  | exhausted => rfl

/-- The contract without promises is kept by every dialogue. -/
theorem keeps_free (d : Dialogue Note Question Answer β) :
    d.Keeps Contract.free (fun _ _ => True) () := by
  induction d with
  | done _ => trivial
  | note _ _ ih => exact ih
  | ask q next ih => exact ⟨trivial, fun a _ => ih a⟩
  | exhausted => trivial

end Rules

/-! ## Handing questions on -/

/-- **Questions that are handed on.** Let a dialogue keep a contract, and let every answer that it
relies on be found by a dialogue that keeps a second contract, both records moving on together. Then
the whole keeps the second contract, and ends where both records are related. -/
theorem Keeps.through {c : Contract Question Answer σ} {c' : Contract Question' Answer' τ}
    {post : β → σ → Prop} (related : σ → ρ → τ → Prop)
    {answer : (q : Question) → ρ → Dialogue Note Question' Answer' (Answer q × ρ)}
    (found : ∀ q s r t, related s r t → c.promises s q →
      (answer q r).Keeps c'
        (fun found t' => c.relies s q found.1 ∧ related (c.next s q found.1) found.2 t') t) :
    ∀ {d : Dialogue Note Question Answer β} {s : σ} {r : ρ} {t : τ}, d.Keeps c post s →
      related s r t →
        (d.through answer r).Keeps c' (fun out t' => ∃ s', related s' out.2 t' ∧ post out.1 s') t
  | done _, _, _, _, kept, start => ⟨_, start, kept⟩
  | note _ rest, _, _, _, kept, start => Keeps.through related (d := rest) found kept start
  | ask q next, _, _, _, kept, start =>
      (found q _ _ _ start kept.1).bind fun out _ here =>
        Keeps.through related (d := next out.1) found (kept.2 out.1 here.1) here.2
  | exhausted, _, _, _, _, _ => trivial

/-- Questions that are handed on by dialogues that keep a contract, whatever was asked. -/
theorem Keeps.through_free {c : Contract Question' Answer' Unit} {post : β → Unit → Prop}
    {answer : (q : Question) → ρ → Dialogue Note Question' Answer' (Answer q × ρ)}
    (found : ∀ q r, (answer q r).Keeps c (fun _ _ => True) ())
    {d : Dialogue Note Question Answer β} {r : ρ} (kept : d.Keeps Contract.free post ()) :
    (d.through answer r).Keeps c (fun out _ => post out.1 ()) () := by
  refine (Keeps.through (fun _ _ _ => True) (fun q _ r _ _ _ => ?_) kept trivial).mono ?_
  · exact (found q r).mono fun _ _ _ => ⟨trivial, trivial⟩
  · rintro out _ ⟨_, _, here⟩
    exact here

/-! ## Running -/

/-- A dialogue with fixed answers that are as relied on comes to a result as described. -/
theorem Keeps.eval {c : Contract Question Answer σ} {post : β → σ → Prop}
    {answer : (q : Question) → Answer q} (relied : ∀ s q, c.relies s q (answer q))
    {d : Dialogue Note Question Answer β} {s : σ} {b : β} (kept : d.Keeps c post s)
    (found : d.eval answer = some b) : ∃ s', post b s' := by
  induction d generalizing s with
  | done result =>
      cases found
      exact ⟨s, kept⟩
  | note _ _ ih => exact ih kept found
  | ask q next ih => exact ih (answer q) (kept.2 _ (relied s q)) found
  | exhausted => cases found

/-- A run in a world that gives fixed answers comes to what the dialogue comes to, and what each answer
keeps of the world is kept in the end. -/
theorem exists_run_of_eval {answer : (q : Question) → Answer q}
    {world : (q : Question) → ω → Except Stop (Answer q × ω)} (stays : ω → Prop)
    (answers : ∀ q w, stays w → ∃ w', world q w = .ok (answer q, w') ∧ stays w')
    {d : Dialogue Note Question Answer β} {b : β} (found : d.eval answer = some b) {w : ω}
    (here : stays w) (t : Transcript Note Question) :
    ∃ w' t', d.run world w t = .ok (b, w', t') ∧ stays w' := by
  induction d generalizing w t with
  | done result =>
      cases found
      exact ⟨w, t, rfl, here⟩
  | note r rest ih => exact ih found here _
  | ask q next ih =>
      obtain ⟨w', answered, after⟩ := answers q w here
      simp only [Dialogue.run, answered]
      exact ih (answer q) found after _
  | exhausted => cases found

/-- A run in a world whose answers do not change comes to what the dialogue comes to. -/
theorem run_of_eval {answer : (q : Question) → Answer q}
    {world : (q : Question) → ω → Except Stop (Answer q × ω)}
    (answers : ∀ q w, world q w = .ok (answer q, w)) {d : Dialogue Note Question Answer β} {b : β}
    (found : d.eval answer = some b) (w : ω) (t : Transcript Note Question) :
    ∃ t', d.run world w t = .ok (b, w, t') := by
  have same : ∀ q w', w' = w → ∃ w'', world q w' = .ok (answer q, w'') ∧ w'' = w := by
    rintro q w' rfl
    exact ⟨w', answers q w', rfl⟩
  obtain ⟨w', t', ran, rfl⟩ := exists_run_of_eval (· = w) same found rfl t
  exact ⟨t', ran⟩

/-- A run to a result that is read off another one is a run to that one. -/
theorem exists_run_of_map {answer : (q : Question) → ω → Except Stop (Answer q × ω)} {f : γ → β}
    {d : Dialogue Note Question Answer γ} {w : ω} {t : Transcript Note Question} {b : β} {w' : ω}
    {t' : Transcript Note Question} (ran : (f <$> d).run answer w t = .ok (b, w', t')) :
    ∃ g, f g = b ∧ d.run answer w t = .ok (g, w', t') := by
  rw [map_eq_pure_bind] at ran
  induction d generalizing w t with
  | done g =>
      cases ran
      exact ⟨g, rfl, rfl⟩
  | note r _ ih => exact ih ran
  | ask q next ih =>
      change (ask q fun a => next a >>= fun g => pure (f g)).run answer w t = _ at ran
      simp only [Dialogue.run] at ran ⊢
      split at ran
      · cases ran
      · exact ih _ ran
  | exhausted => cases ran

/-- **A run of a dialogue that keeps a contract.** If the world answers as relied on, every question
that was asked is as promised at some record, and the result is as described. -/
theorem Keeps.run {c : Contract Question Answer σ} {post : β → σ → Prop}
    {answer : (q : Question) → ω → Except Stop (Answer q × ω)} (related : σ → ω → Prop)
    (relied : ∀ q s w a w', related s w → answer q w = .ok (a, w') →
      c.relies s q a ∧ related (c.next s q a) w') :
    ∀ {d : Dialogue Note Question Answer β} {s : σ} {w : ω} {t : Transcript Note Question}
      {b : β} {w' : ω} {t' : Transcript Note Question}, d.Keeps c post s → related s w →
      (∀ q ∈ t.asked, ∃ s, c.promises s q) → d.run answer w t = .ok (b, w', t') →
        (∀ q ∈ t'.asked, ∃ s, c.promises s q) ∧ ∃ s', related s' w' ∧ post b s'
  | done _, s, _, _, _, _, _, kept, start, before, ran => by
      cases ran
      exact ⟨before, s, start, kept⟩
  | note _ rest, _, _, _, _, _, _, kept, start, before, ran => by
      simp only [Dialogue.run] at ran
      refine Keeps.run related (d := rest) relied kept start ?_ ran
      exact before
  | ask q next, s, w, t, _, _, _, kept, start, before, ran => by
      simp only [Dialogue.run] at ran
      split at ran
      · cases ran
      · rename_i a w₁ answered
        obtain ⟨good, after⟩ := relied q s w a w₁ start answered
        refine Keeps.run related (d := next a) relied (kept.2 a good) after ?_ ran
        intro q' asked
        rcases Array.mem_push.1 asked with old | rfl
        · exact before q' old
        · exact ⟨s, kept.1⟩
  | exhausted, _, _, _, _, _, _, _, _, _, ran => by cases ran

/-- **A run and its record.** If the world answers as relied on and the record does not depend on the
answers, it is the record of the questions that were asked: each of them is as promised at the record of
those before it, and the result is described with the record of all. -/
theorem Keeps.run_record {c : Contract Question Answer σ} {post : β → σ → Prop}
    {answer : (q : Question) → ω → Except Stop (Answer q × ω)} {step : σ → Question → σ}
    (relies : ∀ s q w a w', answer q w = .ok (a, w') → c.relies s q a)
    (next : ∀ s q a, c.next s q a = step s q)
    {d : Dialogue Note Question Answer β} {s : σ} {w : ω} {t : Transcript Note Question} {b : β}
    {w' : ω} {t' : Transcript Note Question} (kept : d.Keeps c post s)
    (ran : d.run answer w t = .ok (b, w', t')) :
    ∃ asked : List Question, t'.asked.toList = t.asked.toList ++ asked ∧
      (∀ before q after, asked = before ++ q :: after → c.promises (before.foldl step s) q) ∧
        post b (asked.foldl step s) := by
  induction d generalizing s w t with
  | done result =>
      cases ran
      refine ⟨[], (List.append_nil _).symm, ?_, kept⟩
      intro before q after none
      exact absurd none.symm (by simp)
  | note r _ ih => exact ih (t := { t with notes := t.notes.push r }) kept ran
  | ask q rest ih =>
      simp only [Dialogue.run] at ran
      split at ran
      · cases ran
      · rename_i a w₁ answered
        obtain ⟨asked, listed, promised, described⟩ := ih a (kept.2 a (relies s q w a w₁ answered)) ran
        rw [next] at promised described
        refine ⟨q :: asked, ?_, ?_, described⟩
        · rw [listed, Array.toList_push, List.append_assoc, List.singleton_append]
        · intro before q' after split
          cases before with
          | nil =>
              obtain ⟨rfl, -⟩ := List.cons.inj split
              exact kept.1
          | cons first before =>
              obtain ⟨rfl, rest⟩ := List.cons.inj split
              exact promised before q' after rest
  | exhausted => cases ran

/-! ## The first question -/

/-- The question that a dialogue asks first, whatever is answered. -/
def first? : Dialogue Note Question Answer β → Option Question
  | done _ => none
  | note _ rest => rest.first?
  | ask q _ => some q
  | exhausted => none

theorem first?_bind {d : Dialogue Note Question Answer γ} {q : Question}
    (first : d.first? = some q) (f : γ → Dialogue Note Question Answer β) :
    (d >>= f).first? = some q := by
  change (d.bind f).first? = some q
  induction d with
  | done _ => cases first
  | note _ _ ih => exact ih first
  | ask _ _ _ => exact first
  | exhausted => cases first

/-- A run stops at its first question if that has no answer. -/
theorem run_error_of_first? {world : (q : Question) → ω → Except Stop (Answer q × ω)}
    {d : Dialogue Note Question Answer β} {q : Question} (first : d.first? = some q) {w : ω} {stop : Stop}
    (unanswered : world q w = .error stop) (t : Transcript Note Question) :
    d.run world w t = .error stop := by
  induction d generalizing t with
  | done _ => cases first
  | note _ _ ih => exact ih first _
  | ask _ _ _ =>
      cases first
      simp only [run, unanswered]
  | exhausted => cases first

/-- A run begins with the first question. -/
theorem run_first? {world : (q : Question) → ω → Except Stop (Answer q × ω)}
    {d : Dialogue Note Question Answer β} {q : Question} (first : d.first? = some q) {w w' : ω}
    {t t' : Transcript Note Question} {b : β} (ran : d.run world w t = .ok (b, w', t')) :
    ∃ later, t'.asked.toList = t.asked.toList ++ q :: later := by
  induction d generalizing w t with
  | done _ => cases first
  | note r _ ih => exact ih first (t := { t with notes := t.notes.push r }) ran
  | ask q' next _ =>
      cases first
      simp only [run] at ran
      split at ran
      · cases ran
      · rename_i a w₁ _
        have unrecorded : ∀ (s : Unit) q (a : Answer q), Contract.free.next s q a = (fun _ _ => ()) s q :=
          fun _ _ _ => rfl
        obtain ⟨later, listed, -⟩ :=
          (keeps_free (next a)).run_record (fun _ _ _ _ _ _ => trivial) unrecorded ran
        exact ⟨later, by rw [listed, Array.toList_push, List.append_assoc, List.singleton_append]⟩
  | exhausted => cases first

end Dialogue

end BoxNewton
