import DirectiveLowering.Proofs.Conversation
import DirectiveLowering.Proofs.Opening

/-!
# Visits with quiet hooks

Hooks are quiet when they leave the documents alone, except that the label hook may append a label as a
fragment. They may remember what they like, and fail. What a visit asks such hooks can be told from the
directive as it is when it is visited; what becomes of the directive can be told from their answers.

Results:
* `plays_buildElement`, `plays_lower`: how an element is built and put in the place of its directive.
* `plays_visit`: the exchanges of a visit are those of `Store.interview`, and what a visit leaves is told
  by the outcome of the interview, or are scraps if the visit fails.
-/

namespace DirectiveLowering

variable {σ : Type}

/-! ## Quiet hooks -/

/-- The hooks leave the documents alone, also when they fail, except that the label hook may append the
label as a fragment; whether it may or must is told by `slots`. -/
structure Options.Quiet (o : Options σ) (slots : Bool → Prop) : Prop where
  filter : ∀ n w, (left (o.filter n w)).store = w.store
  handleLabel : ∀ element content w, ∃ slot, slots slot ∧
    (left (o.handleLabel element content w)).store = w.store.label slot element content
  transformTag : ∀ name w, (left (o.transformTag name w)).store = w.store
  transformAttribute : ∀ tag name w, (left (o.transformAttribute tag name w)).store = w.store

/-- One of the hooks may fail with this fault. -/
inductive Options.Raises (o : Options σ) (e : Fault) : Prop
  | filter {n : NodeId} {w v : World σ} : o.filter n w = .error e v → Raises o e
  | handleLabel {element : NodeId} {content : ListId} {w v : World σ} :
      o.handleLabel element content w = .error e v → Raises o e
  | transformTag {name : Option String} {w v : World σ} :
      o.transformTag name w = .error e v → Raises o e
  | transformAttribute {tag : Option String} {name : String} {w v : World σ} :
      o.transformAttribute tag name w = .error e v → Raises o e

theorem left_of_ok {μ ε α : Type} {r : EStateM.Result ε (World μ) α} {a : α} {s : Store}
    (h : ∃ m, r = .ok a ⟨s, m⟩) : (left r).store = s := by
  obtain ⟨m, rfl⟩ := h
  rfl

/-- Hooks that follow choices are quiet, if their label hook appends labels or drops them. -/
theorem Options.Follows.quiet {o : Options σ} {c : Choices} {slot : Bool} (h : o.Follows c)
    (hhook : o.Labels slot) : o.Quiet (· = slot) where
  filter n w := left_of_ok (h.filter n w)
  handleLabel element content w := ⟨slot, rfl, left_of_ok (hhook element content w)⟩
  transformTag name w := left_of_ok (h.transformTag name w)
  transformAttribute tag name w := left_of_ok (h.transformAttribute tag name w)

theorem Options.Follows.not_raises {o : Options σ} {c : Choices} {slot : Bool} {e : Fault}
    (h : o.Follows c) (hhook : o.Labels slot) : ¬ o.Raises e := by
  rintro (hfails | hfails | hfails | hfails)
  · obtain ⟨m, hok⟩ := h.filter _ _
    cases hfails.symm.trans hok
  · obtain ⟨m, hok⟩ := hhook _ _ _
    cases hfails.symm.trans hok
  · obtain ⟨m, hok⟩ := h.transformTag _ _
    cases hfails.symm.trans hok
  · obtain ⟨m, hok⟩ := h.transformAttribute _ _ _
    cases hfails.symm.trans hok

/-! ## What is asked about a directive -/

/-- What becomes of a directive. -/
inductive Outcome
  | leftAlone
  /-- It becomes this element, over its own list of children. -/
  | lowered (element : Fields)
  /-- It becomes this element, over a new list without labels; the first label is appended or dropped. -/
  | opened (element : Fields) (label : NodeId) (slotted : Bool)

namespace Talk

/-- Asks the attribute hook once per entry, in order. -/
def rename (tag : Option String) : List (String × Option String) → Talk (List JsxAttribute)
  | [] => pure []
  | (name, value) :: rest => do
    let renamed ← question (.attributeName tag name)
    let others ← rename tag rest
    return ⟨renamed, value⟩ :: others

/-- Asks the attribute hook about the attributes of a directive. -/
def records (tag : Option String) (attributes : Option Attributes) : Talk (List JsxAttribute) :=
  match attributeEntries attributes with
  | .ok entries => rename tag entries
  | .error e => fault e

end Talk

namespace Store

/-- The label of a directive of a kind: the first marked child of a container. -/
def labelOf (s : Store) (n : NodeId) : DirectiveKind → Option NodeId
  | .container => s.findLabel (s.children n)
  | .leaf => none
  | .text => none

/-- What is asked to build an element for a directive of a kind: the tag hook, the attribute hook for
each attribute, and the label hook if there is a label. -/
def building (s : Store) (n : NodeId) (kind : DirectiveKind) : Talk Outcome := do
  let tag ← Talk.question (.tag (s.node n).name)
  let records ← Talk.records tag (s.node n).attributes
  match s.labelOf n kind with
  | none => return .lowered (elementFields kind.elementType tag records)
  | some label =>
    let slotted ← Talk.question (.label (elementFields kind.elementType tag records)
      (s.withoutLabels (s.children n)) (s.node label).children)
    return .opened (elementFields kind.elementType tag records) label slotted

/-- What is asked about a directive that is lowered. -/
def lowering (s : Store) (n : NodeId) : Talk Outcome :=
  match DirectiveKind.ofType? (s.node n).type with
  | none => .fault (.missingKey (s.node n).type)
  | some kind => s.building n kind

/-- What is asked about a directive: nothing if another pass has lowered it and such directives are
skipped, and else the filter, and the other hooks if the filter takes it. -/
def interview (skip : Bool) (s : Store) (n : NodeId) : Talk Outcome :=
  if skip && (s.node n).isLowered then return .leftAlone
  else Talk.ask (.filter n (s.node n)) fun taken : Bool =>
    if taken then s.lowering n else return .leftAlone

/-- The store once this has become of a directive. -/
def settle (s : Store) (n : NodeId) : Outcome → Store
  | .leftAlone => s
  | .lowered g =>
    (s.addNode (g.over (s.node n).children)).2.setNode n
      ((s.node n).overwrite (g.over (s.node n).children))
  | .opened g label slotted =>
    let (element, s₁) := s.addTree g (s.withoutLabels (s.children n))
    (s₁.label slotted element (s.node label).children).setNode n
      ((s.node n).overwrite (s₁.node element))

/-- An outcome that a directive can have. -/
inductive Suits (slots : Bool → Prop) (s : Store) (n : NodeId) : Outcome → Prop
  | leftAlone : Suits slots s n .leftAlone
  | lowered {kind : DirectiveKind} {tag : Option String} {records : List JsxAttribute} :
      DirectiveKind.ofType? (s.node n).type = some kind → s.labelOf n kind = none →
      Suits slots s n (.lowered (elementFields kind.elementType tag records))
  | opened {label : NodeId} {slotted : Bool} {tag : Option String} {records : List JsxAttribute} :
      DirectiveKind.ofType? (s.node n).type = some .container →
      s.findLabel (s.children n) = some label → slots slotted →
      Suits slots s n (.opened (elementFields NodeType.flowElement tag records) label slotted)

/-- What a visit may leave that fails: nothing new, a new list, or a new element with what the label
hook has appended to its list. -/
inductive Scraps (slots : Bool → Prop) (s : Store) (n : NodeId) : Store → Prop
  | nothing : Scraps slots s n s
  | list : Scraps slots s n (s.addList (s.withoutLabels (s.children n))).2
  | element {label element : NodeId} {slotted : Bool} {tag : Option String}
      {records : List JsxAttribute} {s₁ : Store} :
      s.findLabel (s.children n) = some label → slots slotted →
      s.addTree (elementFields NodeType.flowElement tag records)
        (s.withoutLabels (s.children n)) = (element, s₁) →
      Scraps slots s n (s₁.label slotted element (s.node label).children)

/-! ## What a label hook leaves -/

section Label

variable {s : Store} {element : NodeId} (slot : Bool) (content : ListId)

theorem node_label (h : s.HasNode element) {n : NodeId} (hn : s.HasNode n) :
    (s.label slot element content).node n = s.node n := by
  cases slot with
  | false => rfl
  | true =>
    have hold : n ≠ s.nextNode := by
      rintro rfl
      exact not_hasNode_nextNode s hn
    rw [Store.label, if_pos rfl, node_appendSlot s content h, if_neg hold]

theorem children_label (h : s.HasNode element) (hl : s.HasList (s.node element).children) :
    (s.label slot element content).children element =
      s.children element ++ if slot then [s.nextNode] else [] := by
  rw [Store.children, node_label slot content h h]
  cases slot with
  | false => exact (List.append_nil _).symm
  | true =>
    rw [Store.label, if_pos rfl, list_appendSlot s content h, if_pos ⟨rfl, hl⟩]
    rfl

theorem hasNode_label (h : s.HasNode element) {n : NodeId} (hn : s.HasNode n) :
    (s.label slot element content).HasNode n := by
  cases slot with
  | false => exact hn
  | true => exact (hasNode_appendSlot s content h n).2 (Or.inl hn)

end Label

end Store

/-! ## Computations that play a talk -/

variable {α β γ δ : Type}

/-- The computation makes the exchanges of the talk, and adds them to those kept. If it returns, its
answer, the result of the talk and the store are as `post` says; if it fails, the talk does, and the store
is as `scraps` says. -/
def Plays (x : PassEffect (σ × List Exchange) α) (s : Store) (t : Talk β)
    (post : α → β → Store → Prop) (scraps : Fault → Store → Prop) : Prop :=
  ∀ m xs books, ∃ ys, match x ⟨s, (m, xs), books⟩ with
    | .ok a v => v.memory.1.2 = xs ++ ys ∧ ∃ b, t.Gives ys (.ok b) ∧ post a b v.store
    | .error e v => v.memory.1.2 = xs ++ ys ∧ t.Gives ys (.error e) ∧ scraps e v.store

namespace Plays

variable {s s' : Store} {post : α → β → Store → Prop} {scraps : Fault → Store → Prop}
  {x : PassEffect (σ × List Exchange) α} {t : Talk β}

theorem pure {a : α} {b : β} (h : post a b s) :
    Plays (Pure.pure a : PassEffect (σ × List Exchange) α) s (Pure.pure b) post scraps := by
  intro m xs books
  exact ⟨[], (List.append_nil xs).symm, b, .done, h⟩

/-- A fault of the pass itself. -/
theorem fails {e : Fault} {f : α → PassEffect (σ × List Exchange) γ} {post : γ → δ → Store → Prop}
    (h : scraps e s) : Plays (Effect.ofExcept (.error e) >>= f) s (Talk.fault e : Talk δ) post scraps := by
  intro m xs books
  exact ⟨[], (List.append_nil xs).symm, .fault, h⟩

theorem mono {post' : α → β → Store → Prop} {scraps' : Fault → Store → Prop}
    (h : Plays x s t post scraps) (hpost : ∀ a b s', post a b s' → post' a b s')
    (hscraps : ∀ e s', scraps e s' → scraps' e s') : Plays x s t post' scraps' := by
  intro m xs books
  obtain ⟨ys, hys⟩ := h m xs books
  refine ⟨ys, ?_⟩
  cases hx : x ⟨s, (m, xs), books⟩ with
  | ok a v =>
    rw [hx] at hys
    obtain ⟨hmemory, b, hgives, hb⟩ := hys
    exact ⟨hmemory, b, hgives, hpost a b _ hb⟩
  | error e v =>
    rw [hx] at hys
    exact ⟨hys.1, hys.2.1, hscraps e _ hys.2.2⟩

theorem bind {f : α → PassEffect (σ × List Exchange) γ} {g : β → Talk δ}
    {post' : γ → δ → Store → Prop} (hx : Plays x s t post scraps)
    (hf : ∀ a b s', post a b s' → Plays (f a) s' (g b) post' scraps) :
    Plays (x >>= f) s (t >>= g) post' scraps := by
  intro m xs books
  obtain ⟨ys, hys⟩ := hx m xs books
  cases hr : x ⟨s, (m, xs), books⟩ with
  | error e v =>
    rw [hr] at hys
    refine ⟨ys, ?_⟩
    rw [Effect.bind_error hr]
    exact ⟨hys.1, hys.2.1.bind_error, hys.2.2⟩
  | ok a v =>
    obtain ⟨s', ⟨m', xs'⟩, books'⟩ := v
    rw [hr] at hys
    obtain ⟨hmemory, b, hgives, hb⟩ := hys
    obtain rfl : xs' = xs ++ ys := hmemory
    obtain ⟨zs, hzs⟩ := hf a b s' hb m' (xs ++ ys) books'
    refine ⟨ys ++ zs, ?_⟩
    rw [Effect.bind_ok hr]
    cases hfa : f a ⟨s', (m', xs ++ ys), books'⟩ with
    | ok c u =>
      rw [hfa] at hzs
      obtain ⟨hmemory, d, hgives', hd⟩ := hzs
      exact ⟨by rw [hmemory, List.append_assoc], d, hgives.bind_ok hgives', hd⟩
    | error e u =>
      rw [hfa] at hzs
      exact ⟨by rw [hzs.1, List.append_assoc], hgives.bind_ok hzs.2.1, hzs.2.2⟩

/-- A step that leaves the documents alone and answers what the talk does. -/
theorem ask {x : PassEffect (σ × List Exchange) α} {t : Talk α} {fails : Fault → Store → Prop}
    {f : α → PassEffect (σ × List Exchange) γ} {g : α → Talk δ} {post : γ → δ → Store → Prop}
    (hx : Plays x s t (fun a b s' => a = b ∧ s' = s) fails)
    (hfails : ∀ e s', fails e s' → scraps e s')
    (hf : ∀ a, Plays (f a) s (g a) post scraps) : Plays (x >>= f) s (t >>= g) post scraps := by
  refine bind (hx.mono (fun _ _ _ => id) hfails) ?_
  rintro a b s' ⟨rfl, rfl⟩
  exact hf a

/-- A step that asks nothing. -/
theorem silent {a : α} {f : α → PassEffect (σ × List Exchange) γ} {t : Talk δ}
    {post' : γ → δ → Store → Prop}
    (hx : ∀ m books, ∃ books', x ⟨s, m, books⟩ = .ok a ⟨s', m, books'⟩)
    (hf : Plays (f a) s' t post' scraps) : Plays (x >>= f) s t post' scraps := by
  intro m xs books
  obtain ⟨books', hx⟩ := hx (m, xs) books
  rw [Effect.bind_ok hx]
  exact hf m xs books'

theorem readNode {n : NodeId} {f : Node → PassEffect (σ × List Exchange) γ} {t : Talk δ}
    {post' : γ → δ → Store → Prop} (hf : Plays (f (s.node n)) s t post' scraps) :
    Plays (Effect.readNode n >>= f) s t post' scraps :=
  silent (fun _ books => ⟨books, rfl⟩) hf

theorem onStore {op : Store → α × Store} {a : α}
    {f : α → PassEffect (σ × List Exchange) γ} {t : Talk δ} {post' : γ → δ → Store → Prop}
    (hop : op s = (a, s')) (hf : Plays (f a) s' t post' scraps) :
    Plays (Effect.onStore op >>= f) s t post' scraps := by
  refine silent (fun _ books => ⟨books, ?_⟩) hf
  rw [Effect.onStore_apply, hop]

theorem note {notice : Notice} {f : Unit → PassEffect (σ × List Exchange) γ} {t : Talk δ}
    {post' : γ → δ → Store → Prop} (hf : Plays (f ()) s t post' scraps) :
    Plays (Pass.note notice >>= f) s t post' scraps :=
  silent (fun _ _ => ⟨_, rfl⟩) hf

theorem count {change : Stats → Stats} {f : Unit → PassEffect (σ × List Exchange) γ} {t : Talk δ}
    {post' : γ → δ → Store → Prop} (hf : Plays (f ()) s t post' scraps) :
    Plays (Pass.count change >>= f) s t post' scraps :=
  silent (fun _ _ => ⟨_, rfl⟩) hf

/-- A computation that asks nothing and ends. -/
theorem last {a : α} {b : δ} {post : α → δ → Store → Prop}
    (hx : ∀ m books, ∃ books', x ⟨s, m, books⟩ = .ok a ⟨s', m, books'⟩) (h : post a b s') :
    Plays x s (Pure.pure b : Talk δ) post scraps := by
  intro m xs books
  obtain ⟨books', hx⟩ := hx (m, xs) books
  refine ⟨[], ?_⟩
  rw [hx]
  exact ⟨(List.append_nil xs).symm, b, .done, h⟩

/-- A hook is asked. -/
theorem heard {q : Question} {reading : α → Store → q.Answer} {y : Effect σ α}
    {post : α → Store → Prop}
    (h : ∀ m, match y ⟨s, m⟩ with
      | .ok a v => post a v.store
      | .error e v => scraps e v.store) :
    Plays (Effect.onFirst (DirectiveLowering.heard q reading y)) s (Talk.question q)
      (fun a b s' => b = reading a s' ∧ post a s') scraps := by
  intro m xs books
  have hm := h m
  simp only [Effect.onFirst, DirectiveLowering.heard, view_mk]
  cases hy : y ⟨s, m⟩ with
  | ok a v =>
    rw [hy] at hm
    exact ⟨[⟨q, .ok (reading a v.store)⟩], rfl, _, Talk.Gives.question _, rfl, hm⟩
  | error e v =>
    rw [hy] at hm
    exact ⟨[⟨q, .error e⟩], rfl, Talk.Gives.question _, hm⟩

end Plays

namespace Pass

open Store

variable {o : Options σ} {slots : Bool → Prop} {s s' : Store} {n element : NodeId}

/-! ## Asking quiet hooks -/

/-- A hook that leaves the documents alone is asked, or fails. -/
theorem plays_asked {q : Question} {y : Effect σ q.Answer}
    (hquiet : ∀ w, (left (y w)).store = w.store)
    (hraises : ∀ e w v, y w = .error e v → o.Raises e) :
    Plays (Effect.onFirst (heard q (fun a _ => a) y)) s (Talk.question q)
      (fun a b s' => a = b ∧ s' = s) (fun e s' => o.Raises e ∧ s' = s) := by
  have hheard : Plays (Effect.onFirst (heard q (fun a _ => a) y)) s (Talk.question q)
      (fun a b s' => b = a ∧ s' = s) (fun e s' => o.Raises e ∧ s' = s) := by
    refine Plays.heard fun m => ?_
    have hm := hquiet ⟨s, m⟩
    cases hy : y ⟨s, m⟩ with
    | ok a v =>
      rw [hy] at hm
      exact hm
    | error e v =>
      rw [hy] at hm
      exact ⟨hraises e _ v hy, hm⟩
  exact hheard.mono (fun a b s' h => ⟨h.1.symm, h.2⟩) fun _ _ => id

section Asking

variable (h : o.Quiet slots)
include h

theorem plays_filter (n : NodeId) :
    Plays (Effect.onFirst (o.conversed.filter n)) s (Talk.question (.filter n (s.node n)))
      (fun taken answer s' => taken = answer ∧ s' = s) (fun e s' => o.Raises e ∧ s' = s) :=
  plays_asked (q := .filter n (s.node n)) (h.filter n) fun _ _ _ => .filter

theorem plays_tag (name : Option String) :
    Plays (Effect.onFirst (o.conversed.transformTag name)) s (Talk.question (.tag name))
      (fun tag answer s' => tag = answer ∧ s' = s) (fun e s' => o.Raises e ∧ s' = s) :=
  plays_asked (q := .tag name) (h.transformTag name) fun _ _ _ => .transformTag

theorem plays_attribute (tag : Option String) (name : String) :
    Plays (Effect.onFirst (o.conversed.transformAttribute tag name)) s
      (Talk.question (.attributeName tag name))
      (fun renamed answer s' => renamed = answer ∧ s' = s) (fun e s' => o.Raises e ∧ s' = s) :=
  plays_asked (q := .attributeName tag name) (h.transformAttribute tag name)
    fun _ _ _ => .transformAttribute

/-- The attribute hook is asked once per entry, in order. -/
theorem plays_rename (tag : Option String) (entries : List (String × Option String)) :
    Plays (renameEntries (fun name => Effect.onFirst (o.conversed.transformAttribute tag name)) entries)
      s (Talk.rename tag entries) (fun records answer s' => records = answer ∧ s' = s)
      (fun e s' => o.Raises e ∧ s' = s) := by
  induction entries with
  | nil => exact Plays.pure ⟨rfl, rfl⟩
  | cons entry rest ih =>
    refine Plays.ask (plays_attribute h tag entry.1) (fun _ _ => id) fun renamed => ?_
    exact Plays.ask ih (fun _ _ => id) fun others => Plays.pure ⟨rfl, rfl⟩

theorem plays_records (tag : Option String) (attributes : Option Attributes) :
    Plays (buildAttributes (fun name => Effect.onFirst (o.conversed.transformAttribute tag name))
      attributes) s (Talk.records tag attributes) (fun records answer s' => records = answer ∧ s' = s)
      (fun e s' => (o.Raises e ∨ attributeEntries attributes = .error e) ∧ s' = s) := by
  rw [buildAttributes, Talk.records]
  cases hentries : attributeEntries attributes with
  | error e => exact Plays.fails ⟨Or.inr rfl, rfl⟩
  | ok entries =>
    refine Plays.silent (fun _ books => ⟨books, rfl⟩) ?_
    exact (plays_rename h tag entries).mono (fun _ _ _ => id) fun _ _ hfails =>
      ⟨Or.inl hfails.1, hfails.2⟩

/-- The label hook is asked, and answers whether it has appended the label. -/
theorem plays_label (content : ListId) (helement : s.HasNode element)
    (hlist : s.HasList (s.node element).children) :
    Plays (Effect.onFirst (o.conversed.handleLabel element content)) s
      (Talk.question (.label (s.node element).toFields (s.children element) content))
      (fun _ slotted s' => slots slotted ∧ s' = s.label slotted element content)
      (fun e s' => o.Raises e ∧ ∃ slotted, slots slotted ∧ s' = s.label slotted element content) := by
  have hheard : Plays (Effect.onFirst (heard
        (.label (s.node element).toFields (s.children element) content)
        (fun (_ : Unit) after => after.children element != s.children element)
        (o.handleLabel element content))) s
      (Talk.question (.label (s.node element).toFields (s.children element) content))
      (fun _ slotted s' => slotted = (s'.children element != s.children element) ∧
        ∃ slot, slots slot ∧ s' = s.label slot element content)
      (fun e s' => o.Raises e ∧ ∃ slot, slots slot ∧ s' = s.label slot element content) := by
    refine Plays.heard fun m => ?_
    obtain ⟨slot, hslot, hstore⟩ := h.handleLabel element content ⟨s, m⟩
    cases hy : o.handleLabel element content ⟨s, m⟩ with
    | ok a v =>
      rw [hy] at hstore
      exact ⟨slot, hslot, hstore⟩
    | error e v =>
      rw [hy] at hstore
      exact ⟨.handleLabel hy, slot, hslot, hstore⟩
  have hread : ∀ (u : Unit) slotted s', (slotted = (s'.children element != s.children element) ∧
      ∃ slot, slots slot ∧ s' = s.label slot element content) →
      slots slotted ∧ s' = s.label slotted element content := by
    rintro _ slotted s' ⟨hslotted, slot, hslot, rfl⟩
    have hslot' : ((s.label slot element content).children element != s.children element) = slot := by
      rw [children_label slot content helement hlist]
      cases slot <;> simp
    rw [hslot'] at hslotted
    rw [hslotted]
    exact ⟨hslot, rfl⟩
  exact fun m xs books => hheard.mono hread (fun _ _ => id) m xs books

end Asking

/-! ## Building an element -/

/-- The store after an element has been built for a directive, with this outcome. -/
def Built (s : Store) (n element : NodeId) : Outcome → Store → Prop
  | .leftAlone, _ => False
  | .lowered g, s' => s.addNode (g.over (s.node n).children) = (element, s')
  | .opened g label slotted, s' =>
    ∃ s₁, s.addTree g (s.withoutLabels (s.children n)) = (element, s₁) ∧
      s' = s₁.label slotted element (s.node label).children

section Build

variable (h : o.Quiet slots) {kind : DirectiveKind}
  (hkind : DirectiveKind.ofType? (s.node n).type = some kind)
include h hkind

/-- What may be left of building an element that fails, and why it may. -/
def Spoilt (o : Options σ) (slots : Bool → Prop) (s : Store) (n : NodeId) (e : Fault) (s' : Store) :
    Prop :=
  (o.Raises e ∨ attributeEntries (s.node n).attributes = .error e) ∧ Scraps slots s n s'

omit h hkind in
theorem spoilt_nothing {e : Fault}
    (h : (o.Raises e ∨ attributeEntries (s.node n).attributes = .error e) ∧ s' = s) :
    Spoilt o slots s n e s' :=
  ⟨h.1, h.2 ▸ .nothing⟩

/-- The new element of a container is there, and its label is dealt with. -/
theorem plays_opened (hcontainer : kind = .container) {label : NodeId} {tag : Option String}
    {records : List JsxAttribute} {s₁ : Store} (hchildren : ∀ k ∈ s.children n, s.HasNode k)
    (hlabel : s.findLabel (s.children n) = some label)
    (hadd : s.addTree (elementFields NodeType.flowElement tag records)
      (s.withoutLabels (s.children n)) = (element, s₁)) :
    Plays (do
        count Stats.label
        Effect.onFirst (o.conversed.handleLabel element (← Effect.readNode label).children)
        return element) s₁
      (do
        let slotted ← Talk.question (.label (elementFields NodeType.flowElement tag records)
          (s.withoutLabels (s.children n)) (s.node label).children)
        return Outcome.opened (elementFields NodeType.flowElement tag records) label slotted)
      (fun element outcome s' => Suits slots s n outcome ∧ Built s n element outcome s')
      (Spoilt o slots s n) := by
  subst hcontainer
  have hgains := gains_addTree hadd
  have hcontent : (s₁.node label).children = (s.node label).children := by
    rw [hgains.grows.node label (hchildren label (List.mem_of_find?_eq_some hlabel)) id]
  have hasked := plays_label h (s.node label).children hgains.hasNode hgains.hasList
  rw [hgains.children, hgains.fields, Fields.toFields_over] at hasked
  refine Plays.count (Plays.readNode ?_)
  rw [hcontent]
  refine Plays.bind (hasked.mono (fun _ _ _ => id) ?_) ?_
  · rintro e s' ⟨hraises, slotted, hslot, rfl⟩
    exact ⟨Or.inl hraises, .element hlabel hslot hadd⟩
  · rintro _ slotted s' ⟨hslot, rfl⟩
    exact Plays.pure ⟨.opened hkind hlabel hslot, s₁, hadd, rfl⟩

theorem plays_buildElement (hchildren : ∀ k ∈ s.children n, s.HasNode k) :
    Plays (buildElement o.conversed kind n) s (s.building n kind)
      (fun element outcome s' => Suits slots s n outcome ∧ Built s n element outcome s')
      (Spoilt o slots s n) := by
  rw [buildElement, building]
  refine Plays.readNode (Plays.ask (plays_tag h _)
    (fun e s' hfails => spoilt_nothing ⟨Or.inl hfails.1, hfails.2⟩) fun tag => ?_)
  cases kind with
  | container =>
    dsimp only [labelOf]
    cases hlabel : s.findLabel (s.children n) with
    | none =>
      refine Plays.readNode (Plays.onStore (extractLabel_of_none hlabel) (Plays.readNode ?_))
      refine Plays.ask (plays_records h tag _) (fun _ _ => spoilt_nothing) fun records => ?_
      refine Plays.onStore rfl (Plays.pure ⟨.lowered hkind hlabel, rfl⟩)
    | some label =>
      obtain ⟨l, s₁, hlist⟩ : ∃ l s₁, s.addList (s.withoutLabels (s.children n)) = (l, s₁) :=
        ⟨_, _, rfl⟩
      have hsplit : s.extractLabel (s.node n).children = ((l, some label), s₁) := by
        rw [extractLabel_of_some hlabel, ← Store.children, hlist]
      have hs₁ : s₁ = (s.addList (s.withoutLabels (s.children n))).2 := by rw [hlist]
      have hnode : s₁.node n = s.node n := by rw [hs₁, node_addList]
      refine Plays.readNode (Plays.onStore hsplit (Plays.readNode ?_))
      rw [hnode]
      refine Plays.ask (plays_records h tag _) (fun e s' hfails => ⟨hfails.1, ?_⟩) fun records => ?_
      · rw [hfails.2, hs₁]
        exact .list
      · obtain ⟨element, s₂, hadd⟩ : ∃ element s₂,
            s.addTree (elementFields NodeType.flowElement tag records)
              (s.withoutLabels (s.children n)) = (element, s₂) := ⟨_, _, rfl⟩
        refine Plays.onStore ?_ (plays_opened h hkind rfl hchildren hlabel hadd)
        rw [addTree, hlist] at hadd
        exact hadd
  | leaf | text =>
    refine Plays.readNode (Plays.ask (plays_records h tag _) (fun _ _ => spoilt_nothing)
      fun records => ?_)
    exact Plays.readNode (Plays.last (fun _ books => ⟨books, rfl⟩) ⟨.lowered hkind rfl, rfl⟩)

end Build

/-! ## Overwriting a directive -/

/-- Overwriting a directive with the element that was built leaves what the outcome tells. -/
theorem setNode_of_builds {outcome : Outcome} (hn : s.HasNode n)
    (h : Built s n element outcome s') :
    s'.setNode n ((s'.node n).overwrite (s'.node element)) = s.settle n outcome := by
  cases outcome with
  | leftAlone => exact h.elim
  | lowered g =>
    have hadd : s.addNode (g.over (s.node n).children) = (element, s') := h
    obtain rfl : s' = (s.addNode (g.over (s.node n).children)).2 := by rw [hadd]
    obtain rfl : element = (s.addNode (g.over (s.node n).children)).1 := by rw [hadd]
    rw [node_addNode_of_hasNode hn, node_addNode, if_pos rfl]
    rfl
  | opened g label slotted =>
    obtain ⟨s₁, hadd, rfl⟩ := h
    have hgains := gains_addTree hadd
    rw [node_label _ _ hgains.hasNode hgains.hasNode,
      node_label _ _ hgains.hasNode (hgains.grows.hasNode n hn), hgains.grows.node n hn id, settle, hadd]

/-- The directive is lowered, or something is left of the attempt. -/
theorem plays_lower (h : o.Quiet slots) (hn : s.HasNode n)
    (hdirective : (s.node n).isDirective = true) (hchildren : ∀ k ∈ s.children n, s.HasNode k) :
    Plays (lower o.conversed n) s (s.lowering n)
      (fun _ outcome s' => (Suits slots s n outcome ∧ outcome ≠ .leftAlone) ∧ s' = s.settle n outcome)
      (Spoilt o slots s n) := by
  obtain ⟨kind, hkind⟩ := Fields.exists_kind hdirective
  rw [lower, lowering]
  refine Plays.readNode ?_
  simp only [hkind]
  -- the talk is over when the element has been built
  rw [← Talk.bind_pure (s.building n kind)]
  refine Plays.bind (plays_buildElement h hkind hchildren) ?_
  rintro element outcome s' ⟨hsuits, hbuilds⟩
  have hchanged : outcome ≠ .leftAlone := by
    rintro rfl
    exact hbuilds
  refine Plays.readNode (Plays.readNode (Plays.note ?_))
  exact Plays.last (fun _ books => ⟨_, rfl⟩) ⟨⟨hsuits, hchanged⟩, setNode_of_builds hn hbuilds⟩

/-! ## Visiting a directive -/

/-- **A visit asks what the interview asks**, and leaves what the outcome of the interview tells. If it
fails, then because a hook did or because the directive carries attribute records. -/
theorem plays_visit (h : o.Quiet slots) (hn : s.HasNode n)
    (hdirective : (s.node n).isDirective = true) (hchildren : ∀ k ∈ s.children n, s.HasNode k) :
    Plays (visit o.conversed n) s (s.interview o.skipTransformed.truthy n)
      (fun _ outcome s' => Suits slots s n outcome ∧ s' = s.settle n outcome) (Spoilt o slots s n) := by
  have hpolicy : Plays (do
        if ← Effect.onFirst (o.conversed.filter n) then lower o.conversed n
        else
          note (.rejected (← Effect.readNode n).name)
          count Stats.reject) s
      (Talk.question (.filter n (s.node n)) >>= fun taken : Bool =>
        if taken then s.lowering n else pure .leftAlone)
      (fun _ outcome s' => Suits slots s n outcome ∧ s' = s.settle n outcome) (Spoilt o slots s n) := by
    refine Plays.ask (plays_filter h n)
      (fun e s' hfails => spoilt_nothing ⟨Or.inl hfails.1, hfails.2⟩) fun taken : Bool => ?_
    cases taken with
    | true =>
      exact (plays_lower h hn hdirective hchildren).mono (fun _ _ _ hlowered =>
        ⟨hlowered.1.1, hlowered.2⟩) fun _ _ => id
    | false =>
      refine Plays.readNode (Plays.note ?_)
      exact Plays.last (fun _ books => ⟨_, rfl⟩) ⟨.leftAlone, rfl⟩
  rw [visit, interview]
  refine Plays.count (Plays.readNode ?_)
  have hskip : o.conversed.skipTransformed = o.skipTransformed := rfl
  rw [hskip]
  cases hname : (s.node n).loweredName? with
  | none =>
    have hask : (s.node n).isLowered = false := by rw [Fields.isLowered, hname]; rfl
    rw [hask, Bool.and_false]
    cases o.skipTransformed.truthy <;> exact hpolicy
  | some hName =>
    have hlowered : (s.node n).isLowered = true := by rw [Fields.isLowered, hname]; rfl
    rw [hlowered, Bool.and_true]
    cases o.skipTransformed.truthy with
    | false => exact hpolicy
    | true => exact Plays.note (Plays.last (fun _ books => ⟨_, rfl⟩) ⟨.leftAlone, rfl⟩)

end Pass

end DirectiveLowering
