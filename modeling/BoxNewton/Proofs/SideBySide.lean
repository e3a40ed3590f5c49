import Mathlib
import BoxNewton.Dialogue

/-!
# Two dialogues side by side

Two dialogues are compared by what is seen of their questions. Of some questions nothing is seen; they are
private, and what is relied on in their answers is known beforehand. The dialogues are alike when, as long
as the same answers are given to what is seen, the same is seen next, up to results that are related
(`Alike`). Notes are not compared, and a dialogue may ask private questions while the other one waits.

The rules follow the ways in which dialogues are put together: sequence (`Alike.bind`), handing questions
on (`Alike.through`) and running (`Alike.run`). In one world, runs of dialogues that are alike end for the
same reason or with related results in the same world, after questions of which the same was seen.
-/

set_option autoImplicit false

namespace BoxNewton

namespace Dialogue

variable {Note Question Question' View View' : Type} {Answer : Question → Type}
  {Answer' : Question' → Type} {β γ δ ε ω ρ ρ' : Type}

/-- How the questions of two dialogues are compared. -/
structure Comparison (Question : Type) (Answer : Question → Type) (View : Type) where
  /-- What is seen of a question. Nothing is seen of a private one. -/
  view : Question → Option View
  /-- What is known of the answers to private questions. -/
  known : (q : Question) → Answer q → Prop

namespace Comparison

/-- The comparison without private questions. -/
def seeing (view : Question → View) : Comparison Question Answer View where
  view q := some (view q)
  known _ _ := True

/-- Holds when two questions are not private and the same is seen of them. -/
def Shares (c : Comparison Question Answer View) (q q' : Question) : Prop :=
  ∃ v, c.view q = some v ∧ c.view q' = some v

end Comparison

/-- Holds when the same is seen of two dialogues and their results are related. -/
inductive Alike (c : Comparison Question Answer View) (post : β → γ → Prop) :
    Dialogue Note Question Answer β → Dialogue Note Question Answer γ → Prop where
  | done {b : β} {b' : γ} (ends : post b b') : Alike c post (done b) (done b')
  | exhausted : Alike c post exhausted exhausted
  | noteLeft (r : Note) {d : Dialogue Note Question Answer β} {d' : Dialogue Note Question Answer γ}
      (rest : Alike c post d d') : Alike c post (note r d) d'
  | noteRight (r : Note) {d : Dialogue Note Question Answer β}
      {d' : Dialogue Note Question Answer γ} (rest : Alike c post d d') :
      Alike c post d (note r d')
  | left (q : Question) (unseen : c.view q = none)
      {next : Answer q → Dialogue Note Question Answer β} {d' : Dialogue Note Question Answer γ}
      (rest : ∀ a, c.known q a → Alike c post (next a) d') : Alike c post (ask q next) d'
  | right (q : Question) (unseen : c.view q = none) {d : Dialogue Note Question Answer β}
      {next : Answer q → Dialogue Note Question Answer γ}
      (rest : ∀ a, c.known q a → Alike c post d (next a)) : Alike c post d (ask q next)
  | both (q q' : Question) (shared : c.Shares q q') (typed : Answer q = Answer q')
      {next : Answer q → Dialogue Note Question Answer β}
      {next' : Answer q' → Dialogue Note Question Answer γ}
      (rest : ∀ a, Alike c post (next a) (next' (cast typed a))) :
      Alike c post (ask q next) (ask q' next')

section Rules

variable {c : Comparison Question Answer View}

theorem alike_pure {post : β → γ → Prop} {b : β} {b' : γ} (ends : post b b') :
    Alike c post (pure b : Dialogue Note Question Answer β) (pure b') := .done ends

theorem alike_remark (r r' : Note) :
    Alike c Eq (remark r : Dialogue Note Question Answer Unit) (remark r') :=
  .noteLeft r (.noteRight r' (.done rfl))

theorem alike_remarkWhen (holds holds' : Bool) (r r' : Note) :
    Alike c Eq (remarkWhen holds r : Dialogue Note Question Answer Unit) (remarkWhen holds' r') := by
  cases holds with
  | false =>
      cases holds' with
      | false => exact .done rfl
      | true => exact .noteRight r' (.done rfl)
  | true =>
      cases holds' with
      | false => exact .noteLeft r (.done rfl)
      | true => exact alike_remark r r'

theorem alike_addCount (total more : Nat) :
    Alike c Eq (addCount total more : Dialogue Note Question Answer Nat) (addCount total more) := by
  unfold addCount
  split
  · exact .done rfl
  · exact .exhausted

/-- Questions of which the same is seen get the same answer. -/
theorem alike_question {q q' : Question} (shared : c.Shares q q') (typed : Answer q = Answer q') :
    Alike c (fun a a' => a' = cast typed a)
      (question q : Dialogue Note Question Answer (Answer q)) (question q') :=
  .both q q' shared typed fun _ => .done rfl

theorem Alike.mono {post post' : β → γ → Prop} {d : Dialogue Note Question Answer β}
    {d' : Dialogue Note Question Answer γ} (alike : Alike c post d d')
    (weaker : ∀ b b', post b b' → post' b b') : Alike c post' d d' := by
  induction alike with
  | done ends => exact .done (weaker _ _ ends)
  | exhausted => exact .exhausted
  | noteLeft r _ ih => exact .noteLeft r ih
  | noteRight r _ ih => exact .noteRight r ih
  | left q unseen _ ih => exact .left q unseen ih
  | right q unseen _ ih => exact .right q unseen ih
  | both q q' shared typed _ ih => exact .both q q' shared typed ih

/-- **Sequences are alike when their first parts are and what follows related results is.** -/
theorem Alike.bind {middle : β → γ → Prop} {post : δ → ε → Prop}
    {d : Dialogue Note Question Answer β} {d' : Dialogue Note Question Answer γ}
    {f : β → Dialogue Note Question Answer δ} {f' : γ → Dialogue Note Question Answer ε}
    (first : Alike c middle d d') (second : ∀ b b', middle b b' → Alike c post (f b) (f' b')) :
    Alike c post (d >>= f) (d' >>= f') := by
  induction first with
  | done ends => exact second _ _ ends
  | exhausted => exact .exhausted
  | noteLeft r _ ih => exact .noteLeft r ih
  | noteRight r _ ih => exact .noteRight r ih
  | left q unseen _ ih => exact .left q unseen ih
  | right q unseen _ ih => exact .right q unseen ih
  | both q q' shared typed _ ih => exact .both q q' shared typed ih

/-- The rule for first parts with equal results. -/
theorem Alike.bind_eq {post : δ → ε → Prop} {d d' : Dialogue Note Question Answer β}
    {f : β → Dialogue Note Question Answer δ} {f' : β → Dialogue Note Question Answer ε}
    (first : Alike c Eq d d') (second : ∀ b, Alike c post (f b) (f' b)) :
    Alike c post (d >>= f) (d' >>= f') := by
  refine first.bind ?_
  rintro b _ rfl
  exact second b

/-- Both dialogues take the same branch. -/
theorem Alike.ite {post : β → γ → Prop} {P P' : Prop} [Decidable P] [Decidable P']
    {d e : Dialogue Note Question Answer β} {d' e' : Dialogue Note Question Answer γ}
    (same : P ↔ P') (yes : P → Alike c post d d') (no : ¬ P → Alike c post e e') :
    Alike c post (if P then d else e) (if P' then d' else e') := by
  by_cases holds : P
  · rw [if_pos holds, if_pos (same.1 holds)]
    exact yes holds
  · rw [if_neg holds, if_neg fun h => holds (same.2 h)]
    exact no holds

/-- A dialogue is like itself, when nothing that it asks is private. -/
theorem alike_refl (view : Question → View) (d : Dialogue Note Question Answer β) :
    Alike (.seeing view) Eq d d := by
  induction d with
  | done b => exact .done rfl
  | note r _ ih => exact .noteLeft r (.noteRight r ih)
  | ask q next ih => exact .both q q ⟨view q, rfl, rfl⟩ rfl ih
  | exhausted => exact .exhausted

end Rules

/-- **Questions that are handed on.** Let two dialogues without private questions be alike, and let
questions of which the same is seen be handed on to dialogues that are alike and find the same answer. Then
the whole dialogues are alike. -/
theorem Alike.through {A : Type} {view : Question → View} {c : Comparison Question' Answer' View'}
    {post : β → γ → Prop} (related : ρ → ρ' → Prop)
    {answer : Question → ρ → Dialogue Note Question' Answer' (A × ρ)}
    {answer' : Question → ρ' → Dialogue Note Question' Answer' (A × ρ')}
    (found : ∀ q q' r r', view q = view q' → related r r' →
      Alike c (fun out out' => out.1 = out'.1 ∧ related out.2 out'.2) (answer q r) (answer' q' r'))
    {d : Dialogue Note Question (fun _ => A) β} {d' : Dialogue Note Question (fun _ => A) γ}
    (alike : Alike (.seeing view) post d d') {r : ρ} {r' : ρ'} (start : related r r') :
    Alike c (fun out out' => post out.1 out'.1 ∧ related out.2 out'.2) (d.through answer r)
      (d'.through answer' r') := by
  induction alike generalizing r r' with
  | done ends => exact .done ⟨ends, start⟩
  | exhausted => exact .exhausted
  | noteLeft note _ ih => exact .noteLeft note (ih start)
  | noteRight note _ ih => exact .noteRight note (ih start)
  | left q unseen _ _ => cases unseen
  | right q unseen _ _ => cases unseen
  | both q q' shared typed _ ih =>
      obtain ⟨v, seen, seen'⟩ := shared
      have same : view q = view q' := Option.some_injective _ (seen.trans seen'.symm)
      refine (found q q' r r' same start).bind ?_
      rintro ⟨a, s⟩ ⟨_, s'⟩ ⟨rfl, after⟩
      exact ih a after

/-! ## Running -/

/-- The ways in which two runs end alike. -/
inductive EndAlike (c : Comparison Question Answer View) (post : β → γ → Prop) :
    Except Stop (β × ω × Transcript Note Question) →
      Except Stop (γ × ω × Transcript Note Question) → Prop where
  | stopped (stop : Stop) : EndAlike c post (.error stop) (.error stop)
  | ended {b : β} {b' : γ} (ends : post b b') (w : ω) {t t' : Transcript Note Question}
      (seen : t.asked.toList.filterMap c.view = t'.asked.toList.filterMap c.view) :
      EndAlike c post (.ok (b, w, t)) (.ok (b', w, t'))

/-- What a world must do for dialogues that are alike to run alike: it answers what is private as is known,
without changing, and it answers alike to questions of which the same is seen. -/
structure Comparison.Fits (c : Comparison Question Answer View)
    (world : (q : Question) → ω → Except Stop (Answer q × ω)) : Prop where
  unseen : ∀ q w, c.view q = none → ∃ a, world q w = .ok (a, w) ∧ c.known q a
  shared : ∀ q q' (typed : Answer q = Answer q') w, c.Shares q q' →
    world q' w = (world q w).map fun out => (cast typed out.1, out.2)

/-- Between equal types an answer stays what it is. -/
theorem map_cast {A : Type} (typed : A = A) (found : Except Stop (A × ω)) :
    found.map (fun out => (cast typed out.1, out.2)) = found := by
  cases found <;> rfl

/-- A question of which nothing is seen leaves the list of what was seen alone. -/
theorem seen_push_unseen {c : Comparison Question Answer View} {t : Transcript Note Question}
    {q : Question} (unseen : c.view q = none) :
    (t.asked.push q).toList.filterMap c.view = t.asked.toList.filterMap c.view := by
  rw [Array.toList_push, List.filterMap_append, List.filterMap_cons_none unseen, List.filterMap_nil,
    List.append_nil]

/-- **Dialogues that are alike run alike.** A private question does not change the world, so the other dialogue
can still be run in it. -/
theorem Alike.run {c : Comparison Question Answer View} {post : β → γ → Prop}
    {world : (q : Question) → ω → Except Stop (Answer q × ω)} (fits : c.Fits world)
    {d : Dialogue Note Question Answer β} {d' : Dialogue Note Question Answer γ}
    (alike : Alike c post d d') (w : ω) {t t' : Transcript Note Question}
    (seen : t.asked.toList.filterMap c.view = t'.asked.toList.filterMap c.view) :
    EndAlike c post (d.run world w t) (d'.run world w t') := by
  induction alike generalizing w t t' with
  | done ends => exact .ended ends w seen
  | exhausted => exact .stopped _
  | noteLeft r _ ih => exact ih w (t := { t with notes := t.notes.push r }) seen
  | noteRight r _ ih => exact ih w seen
  | left q unseen _ ih =>
      obtain ⟨a, answered, known⟩ := fits.unseen q w unseen
      simp only [Dialogue.run, answered]
      exact ih a known w ((seen_push_unseen unseen).trans seen)
  | right q unseen _ ih =>
      obtain ⟨a, answered, known⟩ := fits.unseen q w unseen
      simp only [Dialogue.run, answered]
      exact ih a known w (seen.trans (seen_push_unseen unseen).symm)
  | both q q' shared typed _ ih =>
      have answers := fits.shared q q' typed w shared
      cases answered : world q w with
      | error stop =>
          rw [answered] at answers
          simp only [Dialogue.run, answered, answers, Except.map]
          exact .stopped stop
      | ok out =>
          obtain ⟨a, w'⟩ := out
          rw [answered] at answers
          simp only [Dialogue.run, answered, answers, Except.map]
          refine ih a w' ?_
          obtain ⟨v, here, here'⟩ := shared
          simp only [Array.toList_push, List.filterMap_append, seen, List.filterMap_cons_some here,
            List.filterMap_cons_some here']

end Dialogue

end BoxNewton
