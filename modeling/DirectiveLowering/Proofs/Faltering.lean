import DirectiveLowering.Proofs.TreeWalk

/-!
# Hooks that may raise

Hooks falter when any of their calls may raise, before it has changed a document, and those that return
do what the choices say. To see which call has raised, and what would have happened otherwise, the hooks
are watched in two ways: either the fault is noted and goes on, or it is noted and the hook does what the
choices say all the same. Mended hooks follow the choices, and until the first fault both do the same.

Results:
* `extends_withMishaps`: noting the faults changes nothing.
* `follows_mended`, `labels_mended`: mended hooks follow the choices.
* `keepsUp_visit`: a visit does what it does with mended hooks, or a call that is made for its directive
  raises, and then nothing that was there has changed.
* `deals_withMishaps`: hooks that falter deal with directives.
-/

namespace DirectiveLowering

variable {σ α β : Type}

/-! ## Faltering -/

/-- The computation answers and changes the documents as the function says, or it raises and leaves the
documents alone. -/
def MayRaise (x : Effect σ α) (f : Store → α × Store) : Prop :=
  ∀ w, (∃ m, x w = .ok (f w.store).1 ⟨(f w.store).2, m⟩) ∨
    ∃ fault m, x w = .error fault ⟨w.store, m⟩

/-- The hooks do what the choices say, or raise before they have changed a document. -/
structure Options.Falters (o : Options σ) (c : Choices) (slot : Bool) : Prop where
  skipTransformed : o.skipTransformed = c.skipTransformed
  filter : ∀ n, MayRaise (o.filter n) fun s => (c.accepts (s.node n).toFields, s)
  handleLabel : ∀ element content,
    MayRaise (o.handleLabel element content) fun s => ((), s.label slot element content)
  transformTag : ∀ name, MayRaise (o.transformTag name) fun s => (c.tag name, s)
  transformAttribute : ∀ tag name,
    MayRaise (o.transformAttribute tag name) fun s => (c.attributeName tag name, s)

/-- A call of a hook that has raised. -/
structure Mishap where
  event : HookEvent
  fault : Fault

/-- Carries out a call of a hook. If it raises, that is noted, and the rescue follows. -/
def attended (event : Store → HookEvent) (x : Effect σ α)
    (rescue : Fault → Effect (σ × List Mishap) α) : Effect (σ × List Mishap) α := fun w =>
  match w with
  | ⟨s, m, mishaps⟩ =>
    match x ⟨s, m⟩ with
    | .ok a v => .ok a ⟨v.store, v.memory, mishaps⟩
    | .error fault v => rescue fault ⟨v.store, v.memory, mishaps ++ [⟨event s, fault⟩]⟩

/-- The options with hooks that note when they raise. -/
def Options.withMishaps (o : Options σ) : Options (σ × List Mishap) where
  skipTransformed := o.skipTransformed
  filter n := attended (fun s => .filter n (s.node n)) (o.filter n) throw
  handleLabel element content :=
    attended (fun s => .label (s.node element) (s.children element) content)
      (o.handleLabel element content) throw
  transformTag name := attended (fun _ => .tag name) (o.transformTag name) throw
  transformAttribute tag name :=
    attended (fun _ => .attributeName tag name) (o.transformAttribute tag name) throw

/-- The options with hooks that note when they raise, and then do what the choices say. -/
def Options.mended (o : Options σ) (c : Choices) (slot : Bool) : Options (σ × List Mishap) where
  skipTransformed := o.skipTransformed
  filter n := attended (fun s => .filter n (s.node n)) (o.filter n) fun _ =>
    Effect.onStore fun s => (c.accepts (s.node n).toFields, s)
  handleLabel element content :=
    attended (fun s => .label (s.node element) (s.children element) content)
      (o.handleLabel element content) fun _ =>
        Effect.onStore fun s => ((), s.label slot element content)
  transformTag name := attended (fun _ => .tag name) (o.transformTag name) fun _ =>
    Effect.onStore fun s => (c.tag name, s)
  transformAttribute tag name :=
    attended (fun _ => .attributeName tag name) (o.transformAttribute tag name) fun _ =>
      Effect.onStore fun s => (c.attributeName tag name, s)

variable {o : Options σ} {c : Choices} {slot : Bool}

theorem covers_attended (event : Store → HookEvent) (x : Effect σ α) :
    Covers (Prod.fst : σ × List Mishap → σ) (attended event x throw) x := by
  rintro ⟨s, m, mishaps⟩
  simp only [attended, view_mk]
  cases x ⟨s, m⟩ <;> rfl

theorem Options.extends_withMishaps (o : Options σ) : o.withMishaps.Extends Prod.fst o where
  skipTransformed := rfl
  filter n := covers_attended (fun s => .filter n (s.node n)) _
  handleLabel element content :=
    covers_attended (fun s => .label (s.node element) (s.children element) content) _
  transformTag name := covers_attended (fun _ => .tag name) _
  transformAttribute tag name := covers_attended (fun _ => .attributeName tag name) _

theorem MayRaise.mended {x : Effect σ α} {f : Store → α × Store} (h : MayRaise x f)
    (event : Store → HookEvent) (w : World (σ × List Mishap)) :
    ∃ m, attended event x (fun _ => Effect.onStore f) w =
      .ok (f w.store).1 ⟨(f w.store).2, m⟩ := by
  obtain ⟨s, m, mishaps⟩ := w
  rcases h ⟨s, m⟩ with ⟨m', hx⟩ | ⟨fault, m', hx⟩ <;> exact ⟨_, by simp only [attended, hx]; rfl⟩

theorem Options.Falters.follows_mended (h : o.Falters c slot) : (o.mended c slot).Follows c where
  skipTransformed := h.skipTransformed
  filter n w := (h.filter n).mended (fun s => .filter n (s.node n)) w
  transformTag name w := (h.transformTag name).mended (fun _ => .tag name) w
  transformAttribute tag name w :=
    (h.transformAttribute tag name).mended (fun _ => .attributeName tag name) w

theorem Options.Falters.labels_mended (h : o.Falters c slot) : (o.mended c slot).Labels slot :=
  fun element content w => (h.handleLabel element content).mended
    (fun s => .label (s.node element) (s.children element) content) w

/-! ## Calls made for a directive -/

/-- The call of a hook is one that is made for a directive, as the directive is in the store. -/
def Choices.MadeFor (c : Choices) (s : Store) (d : NodeId) : HookEvent → Prop
  | .filter n seen => n = d ∧ seen = s.node d
  | .tag name => name = (s.node d).name
  | .attributeName tag name =>
    tag = c.tag (s.node d).name ∧ ∃ value, (name, value) ∈ (s.node d).entries
  | .label seen children content => seen.toFields = c.element .container (s.node d).toFields ∧
    children = s.withoutLabels (s.children d) ∧
    ∃ label, s.findLabel (s.children d) = some label ∧ content = (s.node label).children

namespace Pass

open Store

variable {s : Store} {d : NodeId}

/-- The calls of hooks that have raised so far. -/
def mishapsOf (w : World ((σ × List Mishap) × Books)) : List Mishap :=
  w.memory.1.2

/-- The first computation does what the second does, and no call of a hook raises, or one raises that is
made for the directive, and what was there in the store is there unchanged. -/
def KeepsUp (c : Choices) (slot : Bool) (s : Store) (d : NodeId)
    (x y : PassEffect (σ × List Mishap) α) (w : World ((σ × List Mishap) × Books)) : Prop :=
  (x w = y w ∧ mishapsOf (left (y w)) = mishapsOf w) ∨
    ∃ event fault v, x w = .error fault v ∧ mishapsOf v = mishapsOf w ++ [⟨event, fault⟩] ∧
      c.MadeFor s d event ∧ Dealt c slot s [] v.store

variable {x y : PassEffect (σ × List Mishap) α} {w : World ((σ × List Mishap) × Books)}

theorem KeepsUp.same (h : mishapsOf (left (x w)) = mishapsOf w) : KeepsUp c slot s d x x w :=
  Or.inl ⟨rfl, h⟩

theorem KeepsUp.bind {f g : α → PassEffect (σ × List Mishap) β} (hx : KeepsUp c slot s d x y w)
    (hf : ∀ a v, y w = .ok a v → KeepsUp c slot s d (f a) (g a) v) :
    KeepsUp c slot s d (x >>= f) (y >>= g) w := by
  rcases hx with ⟨heq, hsame⟩ | ⟨event, fault, v, hx, hmishaps, hevent, hdealt⟩
  · cases hy : y w with
    | ok a v =>
      rw [hy] at heq hsame
      rcases hf a v hy with ⟨heq', hsame'⟩ | ⟨event, fault, u, hx, hmishaps, hevent, hdealt⟩
      · refine Or.inl ⟨?_, ?_⟩
        · rw [Effect.bind_ok heq, Effect.bind_ok hy, heq']
        · rw [Effect.bind_ok hy]
          exact hsame'.trans hsame
      · refine Or.inr ⟨event, fault, u, ?_, ?_, hevent, hdealt⟩
        · rw [Effect.bind_ok heq, hx]
        · rw [hmishaps]
          exact congrArg (· ++ _) hsame
    | error fault v =>
      rw [hy] at heq hsame
      refine Or.inl ⟨?_, ?_⟩
      · rw [Effect.bind_error heq, Effect.bind_error hy]
      · rw [Effect.bind_error hy]
        exact hsame
  · exact Or.inr ⟨event, fault, v, Effect.bind_error hx, hmishaps, hevent, hdealt⟩

/-- A step that both computations take, with a known result. -/
theorem KeepsUp.step {z : PassEffect (σ × List Mishap) α} {f g : α → PassEffect (σ × List Mishap) β}
    {a : α} {v : World ((σ × List Mishap) × Books)} (hz : z w = .ok a v)
    (hsame : mishapsOf v = mishapsOf w) (hf : KeepsUp c slot s d (f a) (g a) v) :
    KeepsUp c slot s d (z >>= f) (z >>= g) w := by
  refine KeepsUp.bind (.same ?_) fun a' v' hy => ?_
  · rw [hz]
    exact hsame
  · rw [hz] at hy
    cases hy
    exact hf

/-- A call of a hook that is made for the directive. -/
theorem keepsUp_hook {x : Effect σ α} {f : Store → α × Store} (h : MayRaise x f)
    (event : Store → HookEvent) (hevent : c.MadeFor s d (event w.store))
    (hdealt : Dealt c slot s [] w.store) :
    KeepsUp c slot s d (Effect.onFirst (attended event x throw))
      (Effect.onFirst (attended event x fun _ => Effect.onStore f)) w := by
  obtain ⟨s', ⟨m, mishaps⟩, books⟩ := w
  rcases h ⟨s', m⟩ with ⟨m', hx⟩ | ⟨fault, m', hx⟩
  · refine Or.inl ⟨?_, ?_⟩
    · simp only [Effect.onFirst, attended, hx]
    · simp only [Effect.onFirst, attended, hx]
      rfl
  · refine Or.inr ⟨event s', fault, ⟨s', (m', mishaps ++ [⟨event s', fault⟩]), books⟩, ?_, rfl, hevent,
      hdealt⟩
    simp only [Effect.onFirst, attended, hx]
    rfl

/-- A mended hook returns. -/
theorem exists_of_mended {x : Effect σ α} {f : Store → α × Store} (h : MayRaise x f)
    (event : Store → HookEvent) {a : α} {v : World ((σ × List Mishap) × Books)}
    (hy : Effect.onFirst (attended event x fun _ => Effect.onStore f) w = .ok a v) :
    a = (f w.store).1 ∧ v.store = (f w.store).2 := by
  obtain ⟨s', memory, books⟩ := w
  obtain ⟨m, hm⟩ := h.mended event ⟨s', memory⟩
  rw [Effect.onFirst_ok hm] at hy
  cases hy
  exact ⟨rfl, rfl⟩

/-! ## Visits -/

/-- Reading the attributes of a directive gives the records that the choices say. -/
theorem buildAttributes_apply {o : Options σ} (h : o.Follows c) (s : Store) (m : σ) (books : Books)
    (tag : Option String) {f : Fields} (hf : attributeEntries f.attributes = .ok f.entries) :
    ∃ m', buildAttributes (fun name => Effect.onFirst (o.transformAttribute tag name)) f.attributes
      ⟨s, m, books⟩ = .ok (c.records tag f.entries) ⟨s, m', books⟩ := by
  obtain ⟨m', hm⟩ := buildAttributes_recorded h s m [] books tag hf
  have hcovers := covers_buildAttributes
    (fun name => (o.extends_recorded.transformAttribute tag name).onFirst) f.attributes
    ⟨s, (m, []), books⟩
  rw [hm] at hcovers
  exact ⟨m', hcovers.symm⟩

/-- Hands the label of a container to the label hook. -/
def handLabel (o : Options σ) (element label : NodeId) : PassEffect σ NodeId := do
  count Stats.label
  Effect.onFirst (o.handleLabel element (← Effect.readNode label).children)
  return element

/-- Taking out the label of a container adds a list, and an element over that list is added as if it were
made in one go. -/
theorem extractLabel_dealt (slot : Bool) {label : NodeId} (hlabel : s.findLabel (s.children d) = some label)
    (f : Fields) :
    ∃ l s₁, s.extractLabel (s.node d).children = ((l, some label), s₁) ∧ s₁.node d = s.node d ∧
      Dealt c slot s [] s₁ ∧ s₁.addNode (f.over l) = s.addTree f (s.withoutLabels (s.children d)) := by
  refine ⟨_, (s.addList (s.withoutLabels (s.children d))).2, ?_, Store.node_addList s _ d,
    dealt_added (grows_addList s _ _) fun k hk => hasNode_of_isDirective hk, rfl⟩
  rw [Store.extractLabel_of_some hlabel]
  rfl

section Visit

variable (h : o.Falters c slot)
include h

/-- The names of entries that the directive has. -/
theorem keepsUp_renameEntries {tag : Option String} (htag : tag = c.tag (s.node d).name)
    (entries : List (String × Option String)) (hentries : ∀ entry ∈ entries, entry ∈ (s.node d).entries)
    (hdealt : Dealt c slot s [] w.store) :
    KeepsUp c slot s d
      (renameEntries (fun name => Effect.onFirst (o.withMishaps.transformAttribute tag name)) entries)
      (renameEntries (fun name => Effect.onFirst ((o.mended c slot).transformAttribute tag name))
        entries) w := by
  induction entries generalizing w with
  | nil => exact .same rfl
  | cons entry rest ih =>
    have hhook := h.transformAttribute tag entry.1
    refine (keepsUp_hook hhook (fun _ => .attributeName tag entry.1)
      ⟨htag, entry.2, hentries entry List.mem_cons_self⟩ hdealt).bind fun a v hy => ?_
    have hstore : v.store = w.store := (exists_of_mended hhook _ hy).2
    refine (ih (fun e he => hentries e (List.mem_cons_of_mem _ he)) ?_).bind fun _ _ _ => .same rfl
    rwa [hstore]

theorem keepsUp_buildAttributes {tag : Option String} (htag : tag = c.tag (s.node d).name)
    (hattributes : attributeEntries (s.node d).attributes = .ok (s.node d).entries)
    (hdealt : Dealt c slot s [] w.store) :
    KeepsUp c slot s d
      (buildAttributes (fun name => Effect.onFirst (o.withMishaps.transformAttribute tag name))
        (s.node d).attributes)
      (buildAttributes (fun name => Effect.onFirst ((o.mended c slot).transformAttribute tag name))
        (s.node d).attributes) w := by
  simp only [buildAttributes, hattributes]
  refine KeepsUp.bind (.same rfl) fun entries v hy => ?_
  cases hy
  exact keepsUp_renameEntries h htag _ (fun _ => id) hdealt

/-- The last call that is made for a container: its label is handed to the label hook. -/
theorem keepsUp_handLabel (hready : Ready s d) {element label : NodeId} {s' : Store}
    (hgains : s.Gains (c.element .container (s.node d).toFields) (s.withoutLabels (s.children d)) element s')
    (hlabel : s.findLabel (s.children d) = some label) (memory : (σ × List Mishap) × Books) :
    KeepsUp c slot s d (handLabel o.withMishaps element label) (handLabel (o.mended c slot) element label)
      ⟨s', memory⟩ := by
  refine KeepsUp.bind (.same rfl) fun _ v hy => ?_
  cases hy
  have hread : ∀ memory : (σ × List Mishap) × Books,
      Effect.readNode label ⟨s', memory⟩ = .ok (s'.node label) ⟨s', memory⟩ := fun _ => rfl
  have hlabelNode := hready.children label (List.mem_of_find?_eq_some hlabel)
  refine KeepsUp.step (hread _) rfl ?_
  refine (keepsUp_hook (h.handleLabel element (s'.node label).children)
    (fun s => .label (s.node element) (s.children element) (s'.node label).children)
    ⟨?_, hgains.children, label, hlabel, ?_⟩ (dealt_added hgains.grows fun k hk => ?_)).bind
    fun _ v _ => .same rfl
  · rw [hgains.fields, Fields.toFields_over]
  · rw [hgains.grows.node label hlabelNode id]
  · rcases hgains.only k (hasNode_of_isDirective hk) with hold | rfl
    · exact hold
    · rw [hgains.fields, Fields.toFields_over, Choices.isDirective_element] at hk
      cases hk

theorem keepsUp_buildElement (hready : Ready s d) (kind : DirectiveKind)
    (memory : (σ × List Mishap) × Books) :
    KeepsUp c slot s d (buildElement o.withMishaps kind d) (buildElement (o.mended c slot) kind d)
      ⟨s, memory⟩ := by
  have hattributes := attributeEntries_of_plain hready.plain hready.directive
  have hread : ∀ (s' : Store) (memory : (σ × List Mishap) × Books),
      Effect.readNode d ⟨s', memory⟩ = .ok (s'.node d) ⟨s', memory⟩ := fun _ _ => rfl
  refine KeepsUp.step (hread s memory) rfl ?_
  have htag := h.transformTag (s.node d).name
  refine (keepsUp_hook htag (fun _ => .tag (s.node d).name) rfl (Dealt.refl c slot s)).bind
    fun tag v hy => ?_
  obtain ⟨htag, hstore⟩ := exists_of_mended htag _ hy
  obtain ⟨s', memory⟩ := v
  obtain rfl : s = s' := hstore.symm
  have htag : tag = c.tag (s.node d).name := htag
  cases kind with
  | container =>
    refine KeepsUp.step (hread s memory) rfl ?_
    cases hlabel : s.findLabel (s.children d) with
    | none =>
      have hsplit : s.extractLabel (s.node d).children = (((s.node d).children, none), s) :=
        Store.extractLabel_of_none hlabel
      have hextract : Effect.onStore (Store.extractLabel (s.node d).children) ⟨s, memory⟩ =
          .ok ((s.node d).children, none) ⟨s, memory⟩ := by
        rw [Effect.onStore_apply, hsplit]
      refine KeepsUp.step hextract rfl (KeepsUp.step (hread s memory) rfl ?_)
      refine (keepsUp_buildAttributes h htag hattributes (Dealt.refl c slot s)).bind
        fun records v _ => ?_
      exact KeepsUp.bind (.same rfl) fun element v _ => .same rfl
    | some label =>
      obtain ⟨l, s₁, hsplit, hnode, hdealt, hadd⟩ := extractLabel_dealt (c := c) slot hlabel
        (c.element .container (s.node d).toFields)
      have hextract : Effect.onStore (Store.extractLabel (s.node d).children) ⟨s, memory⟩ =
          .ok (l, some label) ⟨s₁, memory⟩ := by
        rw [Effect.onStore_apply, hsplit]
      refine KeepsUp.step hextract rfl (KeepsUp.step (hread s₁ memory) rfl ?_)
      rw [hnode]
      refine (keepsUp_buildAttributes h htag hattributes hdealt).bind fun records v hy => ?_
      obtain ⟨m', hm⟩ := buildAttributes_apply h.follows_mended s₁ memory.1 memory.2 tag hattributes
      obtain ⟨rfl, rfl⟩ : c.records tag (s.node d).entries = records ∧ ⟨s₁, m', memory.2⟩ = v := by
        rw [hm] at hy
        cases hy
        exact ⟨rfl, rfl⟩
      obtain ⟨element, s₂, htree, hgains⟩ := exists_gains s
        (c.element .container (s.node d).toFields) (s.withoutLabels (s.children d))
      have helement : Effect.onStore (Store.addElement · DirectiveKind.container.elementType tag
            (c.records tag (s.node d).entries) l)
            (⟨s₁, m', memory.2⟩ : World ((σ × List Mishap) × Books)) =
          .ok element ⟨s₂, m', memory.2⟩ := by
        have hboth : s₁.addElement DirectiveKind.container.elementType tag
            (c.records tag (s.node d).entries) l = (element, s₂) := by
          rw [htag]
          exact hadd.trans htree
        rw [Effect.onStore_apply, hboth]
      exact KeepsUp.step helement rfl
        (keepsUp_handLabel h hready hgains hlabel (m', memory.2))
  | leaf | text =>
    refine KeepsUp.step (hread s memory) rfl ?_
    refine (keepsUp_buildAttributes h htag hattributes (Dealt.refl c slot s)).bind fun records v _ => ?_
    exact KeepsUp.bind (.same rfl) fun node v _ => .same rfl

theorem keepsUp_lower (hready : Ready s d) (memory : (σ × List Mishap) × Books) :
    KeepsUp c slot s d (lower o.withMishaps d) (lower (o.mended c slot) d) ⟨s, memory⟩ := by
  have hread : Effect.readNode d ⟨s, memory⟩ = .ok (s.node d) ⟨s, memory⟩ := rfl
  refine KeepsUp.step hread rfl ?_
  dsimp only
  cases DirectiveKind.ofType? (s.node d).type with
  | none => exact .same rfl
  | some kind =>
    exact (keepsUp_buildElement h hready kind memory).bind fun element v _ => .same rfl

/-- A visit does what it does with mended hooks, or a call that is made for its directive raises. -/
theorem keepsUp_visit (hready : Ready s d) (memory : (σ × List Mishap) × Books) :
    KeepsUp c slot s d (visit o.withMishaps d) (visit (o.mended c slot) d) ⟨s, memory⟩ := by
  have hread : ∀ memory : (σ × List Mishap) × Books,
      Effect.readNode d ⟨s, memory⟩ = .ok (s.node d) ⟨s, memory⟩ := fun _ => rfl
  have hpolicy : ∀ memory, KeepsUp c slot s d
      (Effect.onFirst (o.withMishaps.filter d) >>= fun taken =>
        if taken then lower o.withMishaps d else Effect.readNode d >>= fun node =>
          note (.rejected node.name) >>= fun _ => count Stats.reject)
      (Effect.onFirst ((o.mended c slot).filter d) >>= fun taken =>
        if taken then lower (o.mended c slot) d else Effect.readNode d >>= fun node =>
          note (.rejected node.name) >>= fun _ => count Stats.reject) ⟨s, memory⟩ := by
    intro memory
    refine (keepsUp_hook (h.filter d) (fun s => .filter d (s.node d)) ⟨rfl, rfl⟩
      (Dealt.refl c slot s)).bind fun taken v hy => ?_
    obtain ⟨-, hstore⟩ := exists_of_mended (h.filter d) _ hy
    obtain ⟨s', memory⟩ := v
    obtain rfl : s = s' := hstore.symm
    cases taken with
    | true =>
      rw [if_pos rfl, if_pos rfl]
      exact keepsUp_lower h hready memory
    | false =>
      rw [if_neg Bool.false_ne_true, if_neg Bool.false_ne_true]
      exact .same rfl
  have hcount : count Stats.visit ⟨s, memory⟩ =
      .ok () ⟨s, memory.1, { memory.2 with stats := memory.2.stats.visit }⟩ := rfl
  refine KeepsUp.step hcount rfl (KeepsUp.step (hread _) rfl ?_)
  have hskip : o.withMishaps.skipTransformed = (o.mended c slot).skipTransformed := rfl
  rw [hskip]
  cases (o.mended c slot).skipTransformed.truthy with
  | false => exact hpolicy _
  | true =>
    cases (s.node d).loweredName? with
    | none => exact hpolicy _
    | some hName => exact .same rfl

/-- Hooks that falter deal with directives. -/
theorem deals_withMishaps : Deals (visitor o.withMishaps) c slot := by
  rintro ⟨s, memory⟩ n t cells i p hheld hnodup hplain hdirective
  have hmended := deals_of_follows h.follows_mended h.labels_mended ⟨s, memory⟩ n t cells i p hheld
    hnodup hplain hdirective
  rw [visitor_apply] at hmended ⊢
  rcases keepsUp_visit h (hheld.ready hplain hdirective) memory with ⟨heq, -⟩ | ⟨_, _, v, hx, -, -, hdealt⟩
  · rw [heq]
    exact hmended
  · rw [hx]
    exact hdealt

end Visit

end Pass

end DirectiveLowering
