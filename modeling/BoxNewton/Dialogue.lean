import BoxNewton.Vec

/-!
# Dialogues

An algorithm that works with an objective it cannot see into holds a dialogue. It asks questions,
and how it goes on depends on the answers alone; now and then it leaves a note for whoever watches.
A dialogue is a tree of questions, so a statement about every objective, however it answers, is a
statement about every path of the tree, and a statement about one objective follows one path.

Loops that need not end carry a bound on their passes, and a count is kept in a word. A dialogue
that has used up its passes, or whose count has outgrown its word, is `exhausted`; this is kept
apart from every result.

* `run` answers the questions of a dialogue from a state of the world and keeps a transcript.
* `through` answers every question of a dialogue by a dialogue about another kind of question.
-/

set_option autoImplicit false

namespace BoxNewton

/-- A computation that asks questions and leaves notes on its way to a result. -/
inductive Dialogue (Note Question : Type) (Answer : Question → Type) (β : Type) : Type where
  | done (result : β)
  | note (remark : Note) (rest : Dialogue Note Question Answer β)
  | ask (question : Question) (next : Answer question → Dialogue Note Question Answer β)
  | exhausted

namespace Dialogue

variable {Note Question Question' : Type} {Answer : Question → Type} {Answer' : Question' → Type}
  {β γ δ σ ω : Type}

/-- Continues with `next` once the dialogue is done. -/
def bind : Dialogue Note Question Answer β → (β → Dialogue Note Question Answer γ) →
    Dialogue Note Question Answer γ
  | done result, next => next result
  | note remark rest, next => note remark (rest.bind next)
  | ask question answered, next => ask question fun answer => (answered answer).bind next
  | exhausted, _ => exhausted

instance : Monad (Dialogue Note Question Answer) where
  pure := done
  bind := bind

theorem bind_done (d : Dialogue Note Question Answer β) : d.bind done = d := by
  induction d with
  | done result => rfl
  | note remark rest ih => simp [bind, ih]
  | ask question next ih => simp [bind, ih]
  | exhausted => rfl

theorem bind_assoc (d : Dialogue Note Question Answer β) (f : β → Dialogue Note Question Answer γ)
    (g : γ → Dialogue Note Question Answer δ) :
    (d.bind f).bind g = d.bind fun b => (f b).bind g := by
  induction d with
  | done result => rfl
  | note remark rest ih => simp [bind, ih]
  | ask question next ih => simp [bind, ih]
  | exhausted => rfl

instance : LawfulMonad (Dialogue Note Question Answer) :=
  LawfulMonad.mk' _ bind_done (fun _ _ => rfl) bind_assoc

/-- Asks one question and returns the answer. -/
def question (q : Question) : Dialogue Note Question Answer (Answer q) := ask q done

/-- Leaves one note. -/
def remark (r : Note) : Dialogue Note Question Answer Unit := note r (done ())

/-- Leaves a note if the condition holds. -/
def remarkWhen (holds : Bool) (r : Note) : Dialogue Note Question Answer Unit :=
  if holds then remark r else done ()

/-- Adds to a count. A sum that no word has room for exhausts the dialogue. -/
def addCount (total more : Nat) : Dialogue Note Question Answer Nat :=
  if Storage.FitsWord (total + more) then done (total + more) else exhausted

/-! ## Handing questions on -/

/-- Replaces every question by a dialogue that finds the answer, with a state that the replacements
hand on to each other. -/
def through (answer : (q : Question) → σ → Dialogue Note Question' Answer' (Answer q × σ)) :
    Dialogue Note Question Answer β → σ → Dialogue Note Question' Answer' (β × σ)
  | done result, s => done (result, s)
  | note r rest, s => note r (rest.through answer s)
  | ask q next, s => (answer q s).bind fun (a, s') => (next a).through answer s'
  | exhausted, _ => exhausted

/-! ## Running -/

/-- What a run has left behind: its notes and the questions it asked, in order. -/
structure Transcript (Note Question : Type) where
  notes : Array Note := #[]
  asked : Array Question := #[]

/-- Why a run ended without a result. -/
inductive Stop where
  /-- A loop used up its passes, or a count outgrew its word. -/
  | exhausted
  /-- A question could not be answered because an array did not fit. -/
  | misfit (what : Misfit)
  deriving Repr, DecidableEq

/-- A misfit stops a run. -/
instance : MonadLift (Except Misfit) (Except Stop) where
  monadLift := Except.mapError .misfit

/-- Answers all questions of a dialogue from a changing state of the world. -/
def run (answer : (q : Question) → ω → Except Stop (Answer q × ω)) :
    Dialogue Note Question Answer β → ω → Transcript Note Question →
    Except Stop (β × ω × Transcript Note Question)
  | done result, w, t => .ok (result, w, t)
  | note r rest, w, t => rest.run answer w { t with notes := t.notes.push r }
  | ask q next, w, t =>
    match answer q w with
    | .error stop => .error stop
    | .ok (a, w') => (next a).run answer w' { t with asked := t.asked.push q }
  | exhausted, _, _ => .error .exhausted

/-- The result of a dialogue whose questions have fixed answers, if it comes to one. -/
def eval (answer : (q : Question) → Answer q) : Dialogue Note Question Answer β → Option β
  | done result => some result
  | note _ rest => rest.eval answer
  | ask q next => (next (answer q)).eval answer
  | exhausted => none

end Dialogue

end BoxNewton
