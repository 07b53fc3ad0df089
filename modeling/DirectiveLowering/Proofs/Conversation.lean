import DirectiveLowering.Proofs.Recording

/-!
# Conversations with hooks

A pass talks with its hooks: it asks the filter, the tag hook, the attribute hook and the label hook, and
how it goes on depends on their answers, which may depend on anything that the hooks remember. A talk is
the pass's part of such a conversation: what is asked next, for each answer to what was asked before. A
hook that fails ends the conversation.

Hooks can be made to keep the exchanges of a conversation, and that changes nothing else.

Results:
* `Gives.bind_ok`, `Gives.bind_error`: exchanges of one talk after another.
* `Gives.later_eq_nil`: a hook that fails is asked last.
* `extends_conversed`, `covers_run_conversed`: a pass whose hooks keep the exchanges covers the pass.
-/

namespace DirectiveLowering

/-! ## Questions and answers -/

/-- What a hook is asked. -/
inductive Question
  /-- The filter, about a directive that looks like this. -/
  | filter (n : NodeId) (seen : Node)
  /-- The tag hook, about the name of a directive. -/
  | tag (name : Option String)
  /-- The attribute hook, about a name, at an element of a name. -/
  | attributeName (tag : Option String) (name : String)
  /-- The label hook, to deal with the content of a label for an element with these children. -/
  | label (element : Fields) (children : List NodeId) (content : ListId)

/-- The answers to a question. The answer of the label hook is whether it has changed the children of
the element. -/
def Question.Answer : Question → Type
  | filter _ _ => Bool
  | tag _ => Option String
  | attributeName _ _ => Option String
  | label _ _ _ => Bool

/-- A question with the answer to it, or the fault that it was answered with. -/
structure Exchange where
  question : Question
  answer : Except Fault question.Answer

/-- The hook has failed. -/
def Exchange.Failed (x : Exchange) : Prop :=
  ∃ fault, x.answer = .error fault

/-! ## Talks -/

/-- A computation that asks questions. -/
inductive Talk (α : Type)
  | done (a : α)
  | fault (fault : Fault)
  | ask (question : Question) (next : question.Answer → Talk α)

namespace Talk

variable {α β : Type}

/-- One talk after another. -/
def bind : Talk α → (α → Talk β) → Talk β
  | done a, f => f a
  | fault e, _ => fault e
  | ask q next, f => ask q fun a => (next a).bind f

instance : Monad Talk where
  pure := done
  bind := bind

/-- The talk that asks one question. -/
def question (q : Question) : Talk q.Answer :=
  ask q done

theorem bind_pure (t : Talk α) : t >>= pure = t := by
  induction t with
  | done => rfl
  | fault => rfl
  | ask q next ih =>
    show ask q (fun a => next a >>= pure) = ask q next
    congr
    funext a
    exact ih a

/-- A talk gives these exchanges, with these answers, and ends like this. -/
inductive Gives : Talk α → List Exchange → Except Fault α → Prop
  | done {a : α} : Gives (.done a) [] (.ok a)
  | fault {e : Fault} : Gives (.fault e) [] (.error e)
  | answered {q : Question} {next : q.Answer → Talk α} {a : q.Answer} {xs : List Exchange}
      {r : Except Fault α} : Gives (next a) xs r → Gives (.ask q next) (⟨q, .ok a⟩ :: xs) r
  | failed {q : Question} {next : q.Answer → Talk α} {e : Fault} :
      Gives (.ask q next) [⟨q, .error e⟩] (.error e)

variable {t : Talk α} {f : α → Talk β} {xs ys : List Exchange} {a : α} {e : Fault}

theorem Gives.bind_ok {r : Except Fault β} (h : t.Gives xs (.ok a)) (hf : (f a).Gives ys r) :
    (t >>= f).Gives (xs ++ ys) r := by
  generalize hr : (Except.ok a : Except Fault α) = r' at h
  induction h with
  | done =>
    cases hr
    exact hf
  | fault => cases hr
  | answered _ ih => exact .answered (ih hr)
  | failed => cases hr

theorem Gives.bind_error (h : t.Gives xs (.error e)) : (t >>= f).Gives xs (.error e) := by
  generalize hr : (Except.error e : Except Fault α) = r' at h
  induction h with
  | done => cases hr
  | fault =>
    cases hr
    exact .fault
  | answered _ ih => exact .answered (ih hr)
  | failed =>
    cases hr
    exact .failed

theorem Gives.question {q : Question} (answer : Except Fault q.Answer) :
    (question q).Gives [⟨q, answer⟩] answer := by
  cases answer with
  | ok a => exact .answered .done
  | error e => exact .failed

/-- A hook that fails is asked last, and its fault ends the talk. -/
theorem Gives.later_eq_nil {r : Except Fault α} {x : Exchange} {earlier later : List Exchange}
    (h : t.Gives (earlier ++ x :: later) r) (hfailed : x.Failed) :
    later = [] ∧ ∃ e, x.answer = .error e ∧ r = .error e := by
  generalize hxs : earlier ++ x :: later = xs at h
  induction h generalizing earlier with
  | done => cases earlier <;> cases hxs
  | fault => cases earlier <;> cases hxs
  | @answered q next a xs r hnext ih =>
    cases earlier with
    | nil =>
      cases hxs
      obtain ⟨e, he⟩ := hfailed
      cases he
    | cons y earlier =>
      cases hxs
      exact ih rfl
  | @failed q next e =>
    cases earlier with
    | nil =>
      cases hxs
      exact ⟨rfl, e, rfl, rfl⟩
    | cons y earlier => exact absurd (List.cons.inj hxs).2 (by simp)

end Talk

/-! ## Keeping the exchanges -/

section Keeping

variable {σ α : Type}

/-- Keeps the exchange that a call of a hook is, with what the call is taken to answer. -/
def heard (q : Question) (reading : α → Store → q.Answer) (x : Effect σ α) :
    Effect (σ × List Exchange) α := fun w =>
  match x (w.view Prod.fst) with
  | .ok a v => .ok a ⟨v.store, v.memory, w.memory.2 ++ [⟨q, .ok (reading a v.store)⟩]⟩
  | .error fault v => .error fault ⟨v.store, v.memory, w.memory.2 ++ [⟨q, .error fault⟩]⟩

/-- The options with hooks that keep the exchanges. -/
def Options.conversed (o : Options σ) : Options (σ × List Exchange) where
  skipTransformed := o.skipTransformed
  filter n := do
    heard (.filter n (← Effect.readNode n)) (fun taken _ => taken) (o.filter n)
  handleLabel element content := do
    let s ← Effect.readStore
    heard (.label (s.node element).toFields (s.children element) content)
      (fun _ after => after.children element != s.children element) (o.handleLabel element content)
  transformTag name := heard (.tag name) (fun tag _ => tag) (o.transformTag name)
  transformAttribute tag name :=
    heard (.attributeName tag name) (fun renamed _ => renamed) (o.transformAttribute tag name)

theorem covers_heard (q : Question) (reading : α → Store → q.Answer) (x : Effect σ α) :
    Covers Prod.fst (heard q reading x) x := by
  intro w
  simp only [heard]
  cases x (w.view Prod.fst) <;> rfl

/-- Keeping the exchanges changes nothing else. -/
theorem Options.extends_conversed (o : Options σ) : o.conversed.Extends Prod.fst o where
  skipTransformed := rfl
  filter n w := covers_heard (.filter n (w.store.node n)) (fun taken _ => taken) (o.filter n) w
  handleLabel element content w := covers_heard
    (.label (w.store.node element).toFields (w.store.children element) content)
    (fun _ after => after.children element != w.store.children element)
    (o.handleLabel element content) w
  transformTag name := covers_heard (.tag name) (fun tag _ => tag) (o.transformTag name)
  transformAttribute tag name :=
    covers_heard (.attributeName tag name) (fun renamed _ => renamed) (o.transformAttribute tag name)

/-- The memory of a pass without the exchanges. -/
def Pass.unheard (memory : (σ × List Exchange) × Books) : σ × Books :=
  (memory.1.1, memory.2)

/-- A pass whose hooks keep the exchanges leaves the documents, the memory of the hooks and the books
that the pass leaves, and ends alike. -/
theorem Pass.covers_run_conversed {o : Options σ} (budget : Nat) (root : NodeId) :
    Covers unheard (run o.conversed budget root) (run o budget root) :=
  covers_run o.extends_conversed budget root

end Keeping

end DirectiveLowering
