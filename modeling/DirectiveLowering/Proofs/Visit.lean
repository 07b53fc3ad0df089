import DirectiveLowering.Proofs.Growth
import DirectiveLowering.Proofs.Recording

/-!
# What a pass does at a directive

Hooks follow choices when they answer as functions of what they are given would, without touching the
documents; they may remember whatever they like. With such hooks a pass leaves a directive alone or
overwrites it, and the statements below say exactly what it changes and which hooks it calls.

Results:
* `visit_left_alone`, `visit_taken`: a directive is left alone or lowered, as the choices say.
* `lower_plain`, `lower_labelled`: lowering a directive without and with a label.
* `lower_refused`: attribute records where a mapping is needed.
* `run_apply`: a pass as a walk.
-/

namespace DirectiveLowering

/-! ## Choices -/

/-- The decisions of a lowering, as functions of what the hooks are given. -/
structure Choices where
  /-- Whether directives that another pass has lowered are left alone: any value, by its truth. -/
  skipTransformed : Datum := .bool true
  /-- Whether to take a directive, by its own fields. -/
  accepts : Fields → Bool := fun _ => true
  /-- The element name for a directive name. -/
  tag : Option String → Option String := id
  /-- The output name for an attribute name, at an element of a name. -/
  attributeName : Option String → String → Option String := fun _ name => some name

/-- Entries of the attribute mapping of a directive; there are none without a mapping. -/
def Fields.entries (f : Fields) : List (String × Option String) :=
  match f.attributes with
  | some (.mapping entries) => entries
  | _ => []

namespace Choices

/-- Whether a directive with these fields stays as it is. -/
def leavesAlone (c : Choices) (f : Fields) : Bool :=
  (c.skipTransformed.truthy && f.isLowered) || !c.accepts f

/-- One attribute record per entry, at an element of a name. -/
def records (c : Choices) (tag : Option String) (entries : List (String × Option String)) :
    List JsxAttribute :=
  entries.map fun entry => ⟨c.attributeName tag entry.1, entry.2⟩

/-- Fields of the element that is made for a directive of a kind with these fields. -/
def element (c : Choices) (kind : DirectiveKind) (f : Fields) : Fields :=
  elementFields kind.elementType (c.tag f.name) (c.records (c.tag f.name) f.entries)

/-- Fields of the directive once it is overwritten with that element: value and position stay. -/
def lowered (c : Choices) (kind : DirectiveKind) (f : Fields) : Fields :=
  { c.element kind f with value := f.value, position := f.position }

theorem isDirective_element (c : Choices) (kind : DirectiveKind) (f : Fields) :
    (c.element kind f).isDirective = false := by
  cases kind <;> rfl

theorem isDirective_lowered (c : Choices) (kind : DirectiveKind) (f : Fields) :
    (c.lowered kind f).isDirective = false := by
  cases kind <;> rfl

end Choices

/-- The hooks answer as the choices say, and leave the documents alone. -/
structure Options.Follows {σ : Type} (o : Options σ) (c : Choices) : Prop where
  skipTransformed : o.skipTransformed = c.skipTransformed
  filter : ∀ n w, ∃ m, o.filter n w = .ok (c.accepts (w.store.node n).toFields) ⟨w.store, m⟩
  transformTag : ∀ name w, ∃ m, o.transformTag name w = .ok (c.tag name) ⟨w.store, m⟩
  transformAttribute : ∀ tag name w,
    ∃ m, o.transformAttribute tag name w = .ok (c.attributeName tag name) ⟨w.store, m⟩

/-- The hooks that do what the choices say and nothing else, with a label hook. -/
def Choices.options {σ : Type} (c : Choices) (handleLabel : LabelHook σ) : Options σ where
  skipTransformed := c.skipTransformed
  filter n := do return c.accepts (← Effect.readNode n).toFields
  handleLabel := handleLabel
  transformTag name := return c.tag name
  transformAttribute tag name := return c.attributeName tag name

theorem Choices.follows_options {σ : Type} (c : Choices) (handleLabel : LabelHook σ) :
    (c.options handleLabel).Follows c where
  skipTransformed := rfl
  filter _ w := ⟨w.memory, rfl⟩
  transformTag _ w := ⟨w.memory, rfl⟩
  transformAttribute _ _ w := ⟨w.memory, rfl⟩

theorem entries_eq_of_attributeEntries {f : Fields} {entries : List (String × Option String)}
    (h : attributeEntries f.attributes = .ok entries) : f.entries = entries := by
  unfold attributeEntries at h
  unfold Fields.entries
  split at h
  · next ha =>
    rw [ha]
    exact Except.ok.inj h
  · next ha =>
    rw [ha]
    exact Except.ok.inj h
  · next ha =>
    rw [ha]
    exact Except.ok.inj h
  · cases h

namespace Pass

variable {σ : Type} {o : Options σ} {c : Choices}

/-! ## Recorded hooks that follow choices -/

section Hooks

variable (h : o.Follows c) (s : Store) (m : σ) (events : List HookEvent) (books : Books)
include h

theorem filter_recorded (n : NodeId) :
    ∃ m', Effect.onFirst (o.recorded.filter n) ⟨s, (m, events), books⟩ =
      .ok (c.accepts (s.node n).toFields) ⟨s, (m', events ++ [.filter n (s.node n)]), books⟩ := by
  obtain ⟨m', hm⟩ := h.filter n ⟨s, m⟩
  have hrec : o.recorded.filter n ⟨s, m, events⟩ = .ok (c.accepts (s.node n).toFields)
      ⟨s, m', events ++ [.filter n (s.node n)]⟩ := Effect.onFirst_ok hm
  exact ⟨m', Effect.onFirst_ok hrec⟩

theorem tag_recorded (name : Option String) :
    ∃ m', Effect.onFirst (o.recorded.transformTag name) ⟨s, (m, events), books⟩ =
      .ok (c.tag name) ⟨s, (m', events ++ [.tag name]), books⟩ := by
  obtain ⟨m', hm⟩ := h.transformTag name ⟨s, m⟩
  have hrec : o.recorded.transformTag name ⟨s, m, events⟩ = .ok (c.tag name)
      ⟨s, m', events ++ [.tag name]⟩ := Effect.onFirst_ok hm
  exact ⟨m', Effect.onFirst_ok hrec⟩

theorem attribute_recorded (tag : Option String) (name : String) :
    ∃ m', Effect.onFirst (o.recorded.transformAttribute tag name) ⟨s, (m, events), books⟩ =
      .ok (c.attributeName tag name) ⟨s, (m', events ++ [.attributeName tag name]), books⟩ := by
  obtain ⟨m', hm⟩ := h.transformAttribute tag name ⟨s, m⟩
  have hrec : o.recorded.transformAttribute tag name ⟨s, m, events⟩ =
      .ok (c.attributeName tag name) ⟨s, m', events ++ [.attributeName tag name]⟩ :=
    Effect.onFirst_ok hm
  exact ⟨m', Effect.onFirst_ok hrec⟩

omit h in
theorem handleLabel_recorded {element : NodeId} {content : ListId} {s s' : Store} {m m' : σ}
    (hhook : o.handleLabel element content ⟨s, m⟩ = .ok () ⟨s', m'⟩) (events : List HookEvent)
    (books : Books) :
    Effect.onFirst (o.recorded.handleLabel element content) ⟨s, (m, events), books⟩ =
      .ok () ⟨s', (m', events ++ [.label (s.node element) (s.children element) content]), books⟩ := by
  have hrec : o.recorded.handleLabel element content ⟨s, m, events⟩ = .ok ()
      ⟨s', m', events ++ [.label (s.node element) (s.children element) content]⟩ :=
    Effect.onFirst_ok hhook
  exact Effect.onFirst_ok hrec

/-- The attribute hook is called once per entry, in order. -/
theorem renameEntries_recorded (tag : Option String) (entries : List (String × Option String)) :
    ∃ m', renameEntries (fun name => Effect.onFirst (o.recorded.transformAttribute tag name))
        entries ⟨s, (m, events), books⟩ =
      .ok (c.records tag entries)
        ⟨s, (m', events ++ entries.map fun entry => .attributeName tag entry.1), books⟩ := by
  induction entries generalizing m events with
  | nil => exact ⟨m, by simp [renameEntries, Choices.records]⟩
  | cons entry rest ih =>
    obtain ⟨m₁, h₁⟩ := attribute_recorded h s m events books tag entry.1
    obtain ⟨m₂, h₂⟩ := ih m₁ (events ++ [.attributeName tag entry.1])
    refine ⟨m₂, ?_⟩
    rw [renameEntries, Effect.bind_ok h₁, Effect.bind_ok h₂]
    simp [Choices.records]

theorem buildAttributes_recorded (tag : Option String) {f : Fields}
    (hf : attributeEntries f.attributes = .ok f.entries) :
    ∃ m', buildAttributes (fun name => Effect.onFirst (o.recorded.transformAttribute tag name))
        f.attributes ⟨s, (m, events), books⟩ =
      .ok (c.records tag f.entries)
        ⟨s, (m', events ++ f.entries.map fun entry => .attributeName tag entry.1), books⟩ := by
  obtain ⟨m', hm⟩ := renameEntries_recorded h s m events books tag f.entries
  refine ⟨m', ?_⟩
  rw [buildAttributes, hf, Effect.bind_ok (Effect.ofExcept_ok _ _), hm]

end Hooks

/-! ## Building elements -/

/-- Calls of the hooks for the names of an element, made for a directive with these fields. -/
def nameEvents (c : Choices) (f : Fields) : List HookEvent :=
  .tag f.name :: f.entries.map fun entry => .attributeName (c.tag f.name) entry.1

section Element

variable (h : o.Follows c) {s : Store} (m : σ) (events : List HookEvent) (books : Books) {n : NodeId}
  (hattributes : attributeEntries (s.node n).attributes = .ok (s.node n).entries)
include h hattributes

/-- Without a label the element takes over the list of children as it is. -/
theorem buildElement_plain {kind : DirectiveKind} {e : Node}
    (hlabel : kind = .container → s.findLabel (s.children n) = none)
    (he : e = (c.element kind (s.node n).toFields).over (s.node n).children) :
    ∃ m', buildElement o.recorded kind n ⟨s, (m, events), books⟩ =
      .ok (s.addNode e).1
        ⟨(s.addNode e).2, (m', events ++ nameEvents c (s.node n).toFields), books⟩ := by
  subst he
  obtain ⟨m₁, h₁⟩ := tag_recorded h s m events books (s.node n).name
  obtain ⟨m₂, h₂⟩ := buildAttributes_recorded h s m₁ (events ++ [.tag (s.node n).name]) books
    (c.tag (s.node n).name) hattributes
  refine ⟨m₂, ?_⟩
  rw [buildElement, Effect.bind_ok (Effect.readNode_apply _ _), Effect.bind_ok h₁]
  rw [List.append_assoc] at h₂
  cases kind with
  | container =>
    have hsplit : s.extractLabel (s.node n).children = (((s.node n).children, none), s) :=
      Store.extractLabel_of_none (hlabel rfl)
    dsimp only
    rw [Effect.bind_ok (Effect.readNode_apply _ _), Effect.bind_ok (Effect.onStore_apply _ _)]
    dsimp only
    rw [hsplit]
    dsimp only
    rw [Effect.bind_ok (Effect.readNode_apply _ _), Effect.bind_ok h₂,
      Effect.bind_ok (Effect.onStore_apply _ _)]
    rfl
  | leaf | text =>
    dsimp only
    rw [Effect.bind_ok (Effect.readNode_apply _ _), Effect.bind_ok h₂,
      Effect.bind_ok (Effect.readNode_apply _ _), Effect.onStore_apply]
    rfl

/-- With a label the element of a container gets a new list of the children that are no labels, and
the label hook is called once it is there. -/
theorem buildElement_labelled {label element : NodeId} {l content : ListId} {s₁ s₂ : Store}
    (hlabel : s.findLabel (s.children n) = some label)
    (hlist : s.addList (s.withoutLabels (s.children n)) = (l, s₁))
    (hnode : s₁.addNode ((c.element .container (s.node n).toFields).over l) = (element, s₂))
    (hcontent : content = (s₂.node label).children) {P : Store → Prop}
    (hhook : ∀ m, ∃ s' m', o.handleLabel element content ⟨s₂, m⟩ = .ok () ⟨s', m'⟩ ∧ P s') :
    ∃ s' m', P s' ∧ buildElement o.recorded .container n ⟨s, (m, events), books⟩ =
      .ok element ⟨s', (m', events ++ nameEvents c (s.node n).toFields ++
        [.label (s₂.node element) (s₂.children element) content]),
        { books with stats := books.stats.label }⟩ := by
  obtain ⟨m₁, h₁⟩ := tag_recorded h s m events books (s.node n).name
  have hsplit : s.extractLabel (s.node n).children = ((l, some label), s₁) := by
    rw [Store.extractLabel_of_some hlabel, ← Store.children, hlist]
  have hn : s₁.node n = s.node n := by
    have hs₁ : s₁ = (s.addList (s.withoutLabels (s.children n))).2 := by rw [hlist]
    rw [hs₁, Store.node_addList]
  obtain ⟨m₂, h₂⟩ := buildAttributes_recorded h s₁ m₁ (events ++ [.tag (s.node n).name]) books
    (c.tag (s.node n).name) hattributes
  rw [List.append_assoc] at h₂
  obtain ⟨s', m', hhook, hP⟩ := hhook m₂
  have h₃ := handleLabel_recorded hhook (events ++ nameEvents c (s.node n).toFields)
    { books with stats := books.stats.label }
  refine ⟨s', m', hP, ?_⟩
  rw [buildElement, Effect.bind_ok (Effect.readNode_apply _ _), Effect.bind_ok h₁]
  dsimp only
  rw [Effect.bind_ok (Effect.readNode_apply _ _), Effect.bind_ok (Effect.onStore_apply _ _)]
  dsimp only
  rw [hsplit]
  dsimp only
  rw [Effect.bind_ok (Effect.readNode_apply _ _), hn, Effect.bind_ok h₂,
    Effect.bind_ok (Effect.onStore_apply _ _)]
  have helement : s₁.addElement DirectiveKind.container.elementType (c.tag (s.node n).name)
      (c.records (c.tag (s.node n).name) (s.node n).entries) l = (element, s₂) := hnode
  dsimp only
  rw [helement]
  dsimp only
  rw [Effect.bind_ok (count_apply _ _ _ _), Effect.bind_ok (Effect.readNode_apply _ _), ← hcontent]
  exact Effect.bind_ok h₃

end Element

/-- Attribute records where a mapping is needed stop the building of an element. -/
theorem buildElement_refused (h : o.Follows c) (s : Store) (m : σ) (events : List HookEvent)
    (books : Books) (kind : DirectiveKind) {n : NodeId} {fault : Fault}
    (hattributes : attributeEntries (s.node n).attributes = .error fault) :
    ∃ w, buildElement o.recorded kind n ⟨s, (m, events), books⟩ = .error fault w := by
  obtain ⟨m₁, h₁⟩ := tag_recorded h s m events books (s.node n).name
  have hrefused : ∀ (rename : String → PassEffect (σ × List HookEvent) (Option String)) w,
      buildAttributes rename (s.node n).attributes w = .error fault w := by
    intro rename w
    rw [buildAttributes, hattributes]
    exact Effect.bind_error (Effect.ofExcept_error fault w)
  have hnode : (s.extractLabel (s.node n).children).2.node n = s.node n := by
    unfold Store.extractLabel
    split <;> rfl
  cases kind with
  | container =>
    refine ⟨⟨(s.extractLabel (s.node n).children).2, (m₁, events ++ [.tag (s.node n).name]), books⟩, ?_⟩
    rw [buildElement, Effect.bind_ok (Effect.readNode_apply _ _), Effect.bind_ok h₁]
    dsimp only
    rw [Effect.bind_ok (Effect.readNode_apply _ _), Effect.bind_ok (Effect.onStore_apply _ _),
      Effect.bind_ok (Effect.readNode_apply _ _)]
    dsimp only
    rw [hnode]
    exact Effect.bind_error (hrefused _ _)
  | leaf | text =>
    refine ⟨⟨s, (m₁, events ++ [.tag (s.node n).name]), books⟩, ?_⟩
    rw [buildElement, Effect.bind_ok (Effect.readNode_apply _ _), Effect.bind_ok h₁]
    dsimp only
    rw [Effect.bind_ok (Effect.readNode_apply _ _)]
    exact Effect.bind_error (hrefused _ _)

/-! ## Overwriting a directive -/

/-- The directive is overwritten with the element that was built. -/
theorem lower_of_built {o : Options σ} {kind : DirectiveKind} {n element : NodeId}
    {s s' : Store} {m m' : σ} {books books' : Books}
    (hkind : DirectiveKind.ofType? (s.node n).type = some kind)
    (hbuilt : buildElement o kind n ⟨s, m, books⟩ = .ok element ⟨s', m', books'⟩) :
    lower o n ⟨s, m, books⟩ =
      .ok () ⟨s'.setNode n ((s'.node n).overwrite (s'.node element)), m',
        { stats := books'.stats.transform
          notices := books'.notices.push (.lowered (s'.node n).type (s'.node n).name
            (s'.node element).type (s'.node element).name) }⟩ := by
  rw [lower, Effect.bind_ok (Effect.readNode_apply _ _)]
  dsimp only
  rw [hkind]
  dsimp only
  rw [Effect.bind_ok hbuilt, Effect.bind_ok (Effect.readNode_apply _ _),
    Effect.bind_ok (Effect.readNode_apply _ _), Effect.bind_ok (note_apply _ _ _ _),
    Effect.bind_ok (Effect.changeNode_apply _ _ _), count_apply]

section Lower

variable (h : o.Follows c) {s : Store} (m : σ) (events : List HookEvent) (books : Books) {n : NodeId}
include h

/-- Without a label the directive is overwritten in one go and keeps its list of children. -/
theorem lower_plain {kind : DirectiveKind} {e : Node} (hn : s.HasNode n)
    (hkind : DirectiveKind.ofType? (s.node n).type = some kind)
    (hattributes : attributeEntries (s.node n).attributes = .ok (s.node n).entries)
    (hlabel : kind = .container → s.findLabel (s.children n) = none)
    (he : e = (c.element kind (s.node n).toFields).over (s.node n).children) :
    ∃ m' notices, lower o.recorded n ⟨s, (m, events), books⟩ =
      .ok () ⟨(s.addNode e).2.setNode n
          ((c.lowered kind (s.node n).toFields).over (s.node n).children),
        (m', events ++ nameEvents c (s.node n).toFields), ⟨books.stats.transform, notices⟩⟩ := by
  obtain ⟨m', hbuilt⟩ := buildElement_plain h m events books hattributes hlabel he
  have hfresh : n ≠ (s.addNode e).1 := by
    rintro rfl
    exact Nat.lt_irrefl _ hn
  have hnode : (s.addNode e).2.node n = s.node n := by
    rw [Store.node_addNode, if_neg hfresh]
  have helement : (s.addNode e).2.node (s.addNode e).1 = e := by
    rw [Store.node_addNode, if_pos rfl]
  have hover : (s.node n).overwrite e =
      (c.lowered kind (s.node n).toFields).over (s.node n).children := by
    rw [he]
    rfl
  have hlower := lower_of_built hkind hbuilt
  rw [hnode, helement, hover] at hlower
  exact ⟨m', _, hlower⟩

/-- With a label the container is overwritten with what the label hook has left of the element. -/
theorem lower_labelled {label element : NodeId} {content : ListId} {s₁ : Store}
    (hkind : DirectiveKind.ofType? (s.node n).type = some .container)
    (hattributes : attributeEntries (s.node n).attributes = .ok (s.node n).entries)
    (hlabel : s.findLabel (s.children n) = some label)
    (hgains : s.addTree (c.element .container (s.node n).toFields)
      (s.withoutLabels (s.children n)) = (element, s₁))
    (hcontent : content = (s₁.node label).children) {P : Store → Prop}
    (hhook : ∀ m, ∃ s' m', o.handleLabel element content ⟨s₁, m⟩ = .ok () ⟨s', m'⟩ ∧ P s') :
    ∃ s' m' notices, P s' ∧ lower o.recorded n ⟨s, (m, events), books⟩ =
      .ok () ⟨s'.setNode n ((s'.node n).overwrite (s'.node element)),
        (m', events ++ nameEvents c (s.node n).toFields ++
          [.label (s₁.node element) (s₁.children element) content]),
        ⟨books.stats.label.transform, notices⟩⟩ := by
  obtain ⟨s', m', hP, hbuilt⟩ :=
    buildElement_labelled h m events books hattributes hlabel rfl hgains hcontent hhook
  exact ⟨s', m', _, hP, lower_of_built hkind hbuilt⟩

/-- Attribute records where a mapping is needed stop the lowering. -/
theorem lower_refused {kind : DirectiveKind} {fault : Fault}
    (hkind : DirectiveKind.ofType? (s.node n).type = some kind)
    (hattributes : attributeEntries (s.node n).attributes = .error fault) :
    ∃ w, lower o.recorded n ⟨s, (m, events), books⟩ = .error fault w := by
  obtain ⟨w, hw⟩ := buildElement_refused h s m events books kind hattributes
  refine ⟨w, ?_⟩
  rw [lower, Effect.bind_ok (Effect.readNode_apply _ _)]
  dsimp only
  rw [hkind]
  exact Effect.bind_error hw

end Lower

/-! ## Visiting a directive -/

/-- A directive that another pass has lowered is left alone, whatever the hooks are. -/
theorem visit_of_loweredName {n : NodeId} {hName : String} {w : World (σ × Books)}
    (hskip : o.skipTransformed.truthy = true)
    (hlowered : (w.store.node n).loweredName? = some hName) :
    visit o n w =
      .ok () ⟨w.store, w.memory.1,
        { stats := w.memory.2.stats.visit.skip
          notices := w.memory.2.notices.push (.skipped (w.store.node n).name hName) }⟩ := by
  rw [visit, Effect.bind_ok (count_apply _ _ _ _), Effect.bind_ok (Effect.readNode_apply _ _)]
  dsimp only
  rw [hskip, hlowered]
  dsimp only
  rw [Effect.bind_ok (note_apply _ _ _ _), count_apply]

section Visit

variable (h : o.Follows c) {s : Store} (m : σ) (events : List HookEvent) (books : Books) {n : NodeId}
include h

/-- A directive that another pass has lowered is left alone without asking a hook. -/
theorem visit_skipped {hName : String} (hskip : c.skipTransformed.truthy = true)
    (hlowered : (s.node n).loweredName? = some hName) :
    visit o.recorded n ⟨s, (m, events), books⟩ =
      .ok () ⟨s, (m, events),
        { stats := books.stats.visit.skip
          notices := books.notices.push (.skipped (s.node n).name hName) }⟩ := by
  have hskip' : o.recorded.skipTransformed.truthy = true := by
    rw [← hskip, ← h.skipTransformed]
    rfl
  exact visit_of_loweredName hskip' hlowered

/-- Any other directive is shown to the filter, and lowered if the filter takes it. -/
theorem visit_asked (hask : (c.skipTransformed.truthy && (s.node n).isLowered) = false) :
    ∃ m', visit o.recorded n ⟨s, (m, events), books⟩ =
      if c.accepts (s.node n).toFields then
        lower o.recorded n ⟨s, (m', events ++ [.filter n (s.node n)]),
          { books with stats := books.stats.visit }⟩
      else
        .ok () ⟨s, (m', events ++ [.filter n (s.node n)]),
          { stats := books.stats.visit.reject
            notices := books.notices.push (.rejected (s.node n).name) }⟩ := by
  obtain ⟨m', hfilter⟩ := filter_recorded h s m events
    { books with stats := books.stats.visit } n
  have hskip : o.recorded.skipTransformed.truthy = c.skipTransformed.truthy := by
    rw [← h.skipTransformed]
    rfl
  refine ⟨m', ?_⟩
  have hpolicy : (do
        if ← Effect.onFirst (o.recorded.filter n) then lower o.recorded n
        else
          note (.rejected (← Effect.readNode n).name)
          count Stats.reject : PassEffect (σ × List HookEvent) Unit)
      ⟨s, (m, events), { books with stats := books.stats.visit }⟩ =
      if c.accepts (s.node n).toFields then
        lower o.recorded n ⟨s, (m', events ++ [.filter n (s.node n)]),
          { books with stats := books.stats.visit }⟩
      else
        .ok () ⟨s, (m', events ++ [.filter n (s.node n)]),
          { stats := books.stats.visit.reject
            notices := books.notices.push (.rejected (s.node n).name) }⟩ := by
    rw [Effect.bind_ok hfilter]
    by_cases ha : c.accepts (s.node n).toFields = true
    · rw [if_pos ha, if_pos ha]
    · rw [if_neg ha, if_neg ha, Effect.bind_ok (Effect.readNode_apply _ _),
        Effect.bind_ok (note_apply _ _ _ _), count_apply]
  rw [visit, Effect.bind_ok (count_apply _ _ _ _), Effect.bind_ok (Effect.readNode_apply _ _)]
  dsimp only
  rw [hskip]
  cases hs : c.skipTransformed.truthy with
  | false => exact hpolicy
  | true =>
    have hname : (s.node n).loweredName? = none := by
      rw [hs, Bool.true_and] at hask
      simpa [Fields.isLowered] using hask
    rw [hname]
    exact hpolicy

/-- A directive that the choices leave alone, and that no other pass has lowered, is rejected. -/
theorem visit_rejected (hask : (c.skipTransformed.truthy && (s.node n).isLowered) = false)
    (hleft : c.leavesAlone (s.node n).toFields = true) :
    ∃ m', visit o.recorded n ⟨s, (m, events), books⟩ =
      .ok () ⟨s, (m', events ++ [.filter n (s.node n)]),
        { stats := books.stats.visit.reject
          notices := books.notices.push (.rejected (s.node n).name) }⟩ := by
  have hrejects : c.accepts (s.node n).toFields = false := by
    rw [Choices.leavesAlone, hask, Bool.false_or] at hleft
    simpa using hleft
  obtain ⟨m', hvisit⟩ := visit_asked h m events books hask
  rw [hrejects, if_neg (by decide)] at hvisit
  exact ⟨m', hvisit⟩

/-- A directive that the choices leave alone costs no call of the tag hook and changes no document. -/
theorem visit_left_alone (hleft : c.leavesAlone (s.node n).toFields = true) :
    ∃ m' events' books', visit o.recorded n ⟨s, (m, events), books⟩ =
        .ok () ⟨s, (m', events'), books'⟩ ∧
      events'.filterMap HookEvent.tag? = events.filterMap HookEvent.tag? ∧
      books'.stats.transformed = books.stats.transformed := by
  by_cases hask : (c.skipTransformed.truthy && (s.node n).isLowered) = true
  · obtain ⟨hskip, hlowered⟩ := Bool.and_eq_true_iff.1 hask
    obtain ⟨hName, hname⟩ := Option.isSome_iff_exists.1 hlowered
    exact ⟨m, events, _, visit_skipped h m events books hskip hname, rfl, rfl⟩
  · obtain ⟨m', hvisit⟩ := visit_rejected h m events books (by simpa using hask) hleft
    refine ⟨m', _, _, hvisit, ?_, rfl⟩
    rw [List.filterMap_append]
    exact List.append_nil _

/-- Any other directive is lowered, after the filter has taken it. -/
theorem visit_taken (htaken : c.leavesAlone (s.node n).toFields = false) :
    ∃ m', visit o.recorded n ⟨s, (m, events), books⟩ =
      lower o.recorded n ⟨s, (m', events ++ [.filter n (s.node n)]),
        { books with stats := books.stats.visit }⟩ := by
  obtain ⟨hask, haccepts⟩ := Bool.or_eq_false_iff.1 htaken
  obtain ⟨m', hvisit⟩ := visit_asked h m events books hask
  rw [if_pos (by simpa using haccepts)] at hvisit
  exact ⟨m', hvisit⟩

end Visit

/-! ## Entering a node -/

section Enter

variable (i : Option Nat) (p : Option NodeId) {n : NodeId} {w : World (σ × Books)}

/-- The visitor of a pass is called on directives alone. -/
theorem enter_other (h : (w.store.node n).isDirective = false) :
    Walk.enter (.oneOf directiveTypes) (visitor o) n i p w = .ok .proceed w :=
  Walk.enter_of_rejects h

theorem visitor_apply :
    visitor o n i p w =
      match visit o n w with
      | .ok () v => .ok .proceed v
      | .error fault v => .error fault v := by
  rw [visitor]
  cases hv : visit o n w with
  | ok a v => rw [Effect.bind_ok hv, Effect.pure_apply]
  | error fault v => rw [Effect.bind_error hv]

theorem enter_directive (h : (w.store.node n).isDirective = true) :
    Walk.enter (.oneOf directiveTypes) (visitor o) n i p w =
      match visit o n w with
      | .ok () v => .ok .proceed v
      | .error fault v => .error fault v := by
  have haccepts : (TypeTest.oneOf directiveTypes).accepts (w.store.node n).type = true := h
  rw [Walk.enter_of_accepts haccepts, visitor_apply]

end Enter

/-! ## The pass around the walk -/

/-- A pass is a walk with a notice before and, if the walk comes to its end, one after it. -/
theorem run_apply (o : Options σ) (budget : Nat) (root : NodeId) (s : Store) (m : σ)
    (books : Books) :
    run o budget root ⟨s, m, books⟩ =
      match Walk.run (.oneOf directiveTypes) (visitor o) budget root
        ⟨s, m, { books with notices := books.notices.push .started }⟩ with
      | .ok () v => .ok () ⟨v.store, v.memory.1, { v.memory.2 with
          notices := v.memory.2.notices.push (.finished v.memory.2.stats) }⟩
      | .error halt v => .error halt v := by
  simp only [run, bind, EStateM.bind, Effect.toRun, note_apply]
  cases Walk.run (.oneOf directiveTypes) (visitor o) budget root
    ⟨s, m, { books with notices := books.notices.push .started }⟩ <;> rfl

/-- The root is visited by recursion, as it is in a pass. -/
def visitRoot (o : Options σ) (bound : Nat) (root : NodeId) : Run (σ × Books) Bool :=
  Walk.visitNode (.oneOf directiveTypes) (visitor o)
    (fun n l => Walk.walkFrom (.oneOf directiveTypes) (visitor o) bound n l 0) root none none

/-- What a pass leaves when its walk has left this. -/
def concluded (w : World (σ × Books)) : World (σ × Books) :=
  ⟨w.store, w.memory.1, { w.memory.2 with
    notices := w.memory.2.notices.push (.finished w.memory.2.stats) }⟩

/-- A pass that comes to its end is a recursive visit of its root. -/
theorem visitRoot_of_run {budget : Nat} {root : NodeId} {s : Store} {m : σ} {books : Books}
    {v : World (σ × Books)} (h : run o budget root ⟨s, m, books⟩ = .ok () v) :
    ∃ goesOn u, visitRoot o (budget + 1) root
      ⟨s, m, { books with notices := books.notices.push .started }⟩ = .ok goesOn u ∧
      v = concluded u := by
  rw [run_apply] at h
  cases hwalk : Walk.run (.oneOf directiveTypes) (visitor o) budget root
      ⟨s, m, { books with notices := books.notices.push .started }⟩ with
  | error halt u =>
    rw [hwalk] at h
    cases h
  | ok a u =>
    rw [hwalk] at h
    cases h
    have hrecursive := Walk.recursive_eq_of_run (Nat.lt_succ_self budget) hwalk (by simp)
    rw [Walk.recursive_apply] at hrecursive
    cases hvisit : visitRoot o (budget + 1) root
        ⟨s, m, { books with notices := books.notices.push .started }⟩ with
    | error halt u' =>
      rw [visitRoot] at hvisit
      rw [hvisit] at hrecursive
      cases hrecursive
    | ok goesOn u' =>
      rw [visitRoot] at hvisit
      rw [hvisit] at hrecursive
      cases hrecursive
      exact ⟨goesOn, u, rfl, rfl⟩

/-- If the recursive visit of the root comes to its end, so does the pass, within any budget that is
large enough. -/
theorem run_of_visitRoot {bound : Nat} {root : NodeId} {s : Store} {m : σ} {books : Books}
    {goesOn : Bool} {u : World (σ × Books)}
    (h : visitRoot o bound root ⟨s, m, { books with notices := books.notices.push .started }⟩ =
      .ok goesOn u) :
    ∃ budget, ∀ b, budget ≤ b → run o b root ⟨s, m, books⟩ = .ok () (concluded u) := by
  obtain ⟨budget, hwalk⟩ := Walk.run_of_visitNode h (by simp)
  refine ⟨budget, fun b hb => ?_⟩
  rw [run_apply, hwalk b hb]
  rfl

end Pass

end DirectiveLowering
