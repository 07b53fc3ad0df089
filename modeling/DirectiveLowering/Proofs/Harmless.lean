import DirectiveLowering.Lowering.Making
import DirectiveLowering.Proofs.Bookkeeping
import DirectiveLowering.Proofs.Frame
import DirectiveLowering.Proofs.Walkable

/-!
# Lowering with harmless hooks

Hooks are harmless if they never fail, if only the label hook changes documents, and if that one decorates
the element it is handed. With such hooks a directive whose attributes are a mapping, or none, is lowered
without a fault, whatever else the documents hold; and it is lowered in such a way that what can be walked
stays so. The hooks that settings ask for are harmless where directives have names.

Results:
* `harmless_ofSettings`: the hooks that settings ask for.
* `buildElement_yields`, `lower_yields`, `visit_yields`: what is done at a directive.
-/

namespace DirectiveLowering

/-! ## Computations that return -/

namespace Effect

variable {μ ν α β : Type}

/-- The computation returns an answer and leaves a world such as is said. -/
def Yields (x : Effect μ α) (w : World μ) (P : α → World μ → Prop) : Prop :=
  ∃ a v, x w = .ok a v ∧ P a v

variable {x : Effect μ α} {w : World μ} {P : α → World μ → Prop}

theorem Yields.bind (hx : x.Yields w P) {f : α → Effect μ β} {Q : β → World μ → Prop}
    (hf : ∀ a v, P a v → (f a).Yields v Q) : (x >>= f).Yields w Q := by
  obtain ⟨a, v, hx, hP⟩ := hx
  obtain ⟨b, u, hf, hQ⟩ := hf a v hP
  exact ⟨b, u, (bind_ok hx).trans hf, hQ⟩

theorem Yields.onFirst {w : World (μ × ν)} (h : x.Yields (w.view Prod.fst) P) :
    (onFirst x : Effect (μ × ν) α).Yields w fun a v => P a (v.view Prod.fst) := by
  obtain ⟨a, v, hx, hP⟩ := h
  exact ⟨a, _, onFirst_ok hx, hP⟩

/-- The first part is known to return. -/
theorem Yields.after {a : α} {v : World μ} (hx : x w = .ok a v) {f : α → Effect μ β}
    {Q : β → World μ → Prop} (hf : (f a).Yields v Q) : (x >>= f).Yields w Q := by
  obtain ⟨b, u, hf, hQ⟩ := hf
  exact ⟨b, u, (bind_ok hx).trans hf, hQ⟩

end Effect

open Effect

/-! ## Harmless hooks -/

variable {σ : Type}

/-- The hooks never fail, where the names of directives are such as is said; of the documents they change
nothing, but the label hook decorates the element it is handed. -/
structure Options.Harmless (o : Options σ) (named : Option String → Prop) : Prop where
  filter : ∀ n w, (o.filter n).Yields w fun _ v => v.store = w.store
  transformTag : ∀ name w, named name → (o.transformTag name).Yields w fun _ v => v.store = w.store
  transformAttribute : ∀ tag name w,
    (o.transformAttribute tag name).Yields w fun _ v => v.store = w.store
  handleLabel : Decorating o.handleLabel

/-- Hooks that follow choices are harmless, with a label hook that is. -/
theorem Options.Follows.harmless {o : Options σ} {c : Choices} (h : o.Follows c)
    (hlabel : Decorating o.handleLabel) (named : Option String → Prop) : o.Harmless named where
  filter n w := by
    obtain ⟨m, hm⟩ := h.filter n w
    exact ⟨_, _, hm, rfl⟩
  transformTag name w _ := by
    obtain ⟨m, hm⟩ := h.transformTag name w
    exact ⟨_, _, hm, rfl⟩
  transformAttribute tag name w := by
    obtain ⟨m, hm⟩ := h.transformAttribute tag name w
    exact ⟨_, _, hm, rfl⟩
  handleLabel := hlabel

/-- The hooks that settings ask for are harmless where every directive has a name. -/
theorem harmless_ofSettings (settings : Settings) :
    (Options.ofSettings settings : Options σ).Harmless (·.isSome = true) where
  filter _ w := ⟨true, w, rfl, rfl⟩
  transformTag name w hname := by
    obtain ⟨text, rfl⟩ := Option.isSome_iff_exists.1 hname
    rw [Options.ofSettings]
    cases settings.normalizeNames with
    | true => exact ⟨_, w, ofExcept_ok _ w, rfl⟩
    | false => exact ⟨_, w, rfl, rfl⟩
  transformAttribute tag name w := by
    rw [Options.ofSettings]
    cases settings.normalizeNames with
    | true => exact ⟨_, w, ofExcept_ok _ w, rfl⟩
    | false => exact ⟨_, w, rfl, rfl⟩
  handleLabel := by
    rw [Options.ofSettings]
    cases settings.labelSlot with
    | true => exact decorating_slot
    | false => exact decorating_discard

/-! ## Building an element -/

/-- A directive's attributes are missing, a mapping, or no records. -/
def Fields.Readable (f : Fields) : Prop :=
  f.attributes = none ∨ (∃ entries, f.attributes = some (.mapping entries)) ∨
    f.attributes = some (.records [])

theorem Fields.Readable.entries {f : Fields} (h : f.Readable) :
    ∃ entries, attributeEntries f.attributes = .ok entries := by
  obtain h | ⟨entries, h⟩ | h := h
  · exact ⟨[], by rw [h]; rfl⟩
  · exact ⟨entries, by rw [h]; rfl⟩
  · exact ⟨[], by rw [h]; rfl⟩

/-- A new element over a new list. -/
theorem Store.addElement_addList (s : Store) (type : String) (name : Option String)
    (attributes : List JsxAttribute) (items : List NodeId) :
    (s.addList items).2.addElement type name attributes (s.addList items).1 =
      s.addTree (elementFields type name attributes) items := rfl

namespace Pass

open Store

variable {o : Options σ} {named : Option String → Prop} (h : o.Harmless named)
include h

/-! ## A visit -/

theorem renameEntries_yields (tag : Option String) (entries : List (String × Option String))
    (w : World (σ × Books)) :
    (renameEntries (fun name => onFirst (o.transformAttribute tag name)) entries).Yields w
      fun _ v => v.store = w.store := by
  induction entries generalizing w with
  | nil => exact ⟨[], w, rfl, rfl⟩
  | cons entry rest ih =>
    refine (h.transformAttribute tag entry.1 _).onFirst.bind fun renamed v hv => ?_
    refine (ih v).bind fun others u hu => ?_
    exact ⟨_, u, rfl, hu.trans hv⟩

theorem buildAttributes_yields (tag : Option String) {f : Fields} (hf : f.Readable)
    (w : World (σ × Books)) :
    (buildAttributes (fun name => onFirst (o.transformAttribute tag name)) f.attributes).Yields w
      fun _ v => v.store = w.store := by
  obtain ⟨entries, hentries⟩ := hf.entries
  obtain ⟨records, v, hrename, hv⟩ := renameEntries_yields h tag entries w
  refine ⟨records, v, ?_, hv⟩
  rw [buildAttributes, hentries, Effect.bind_ok (ofExcept_ok _ _), hrename]

/-- The element of a container with a label is made over what remains of its children, and decorated. -/
theorem handLabel_yields {s : Store} {n label : NodeId} (hclosed : s.Closed) (hn : s.HasNode n)
    (hlabel : s.findLabel (s.children n) = some label) (tag : Option String)
    (records : List JsxAttribute) {w : World (σ × Books)}
    (hw : w.store = (s.addList (s.withoutLabels (s.children n))).2) :
    (do
      let element ← onStore (Store.addElement · DirectiveKind.container.elementType tag records
        (s.addList (s.withoutLabels (s.children n))).1)
      count Stats.label
      onFirst (o.handleLabel element (← readNode label).children)
      return element : PassEffect σ NodeId).Yields w fun element v => s.Builds n element v.store := by
  obtain ⟨element, s₁, hadd, hgains⟩ := exists_gains s
    (elementFields DirectiveKind.container.elementType tag records) (s.withoutLabels (s.children n))
  have hadded : onStore (Store.addElement · DirectiveKind.container.elementType tag records
      (s.addList (s.withoutLabels (s.children n))).1) w = .ok element ⟨s₁, w.memory⟩ := by
    rw [onStore_apply, hw, addElement_addList, hadd]
  have hlabelMem : label ∈ s.children n := List.mem_of_find?_eq_some hlabel
  have hitems : ∀ k ∈ s.withoutLabels (s.children n), s.HasNode k :=
    fun k hk => hclosed.child hn (List.mem_filter.1 hk).1
  have hoffered := hgains.offered hclosed hitems rfl (hclosed.child hn hlabelMem)
  obtain ⟨s', m, hhook, hdecorates⟩ := h.handleLabel element _ s₁ w.memory.1 hoffered
  refine .after hadded (.after (count_apply _ _ _ _) (.after (readNode_apply label _) ?_))
  exact .after (onFirst_ok hhook)
    ⟨element, _, rfl, builds_decorated hclosed hn hlabelMem rfl hgains hdecorates⟩

variable {n : NodeId} {w : World (σ × Books)} (hclosed : w.store.Closed) (hn : w.store.HasNode n)
  (hname : named (w.store.node n).name) (hreadable : (w.store.node n).Readable)
include hclosed hn hname hreadable

theorem buildElement_yields (kind : DirectiveKind) :
    (buildElement o kind n).Yields w fun element v => w.store.Builds n element v.store := by
  refine .after (readNode_apply n w) ?_
  refine (h.transformTag _ (w.view Prod.fst) hname).onFirst.bind fun tag v hv => ?_
  have hv' : v.store = w.store := hv
  rw [← hv'] at hclosed hn hreadable ⊢
  have hplain : ∀ records, (elementFields kind.elementType tag records).isDirective = false := by
    cases kind <;> exact fun _ => rfl
  cases kind with
  | container =>
    dsimp only
    refine .after (readNode_apply n v) (.after (onStore_apply _ v) (.after (readNode_apply n _) ?_))
    dsimp only
    cases hlabel : v.store.findLabel (v.store.list (v.store.node n).children) with
    | none =>
      rw [extractLabel_of_none hlabel]
      refine (buildAttributes_yields h tag hreadable _).bind fun records u hu => ?_
      have hu' : u.store = v.store := hu
      rw [← hu'] at hclosed hn ⊢
      exact ⟨_, _, rfl, builds_addNode hclosed hn (hplain records)⟩
    | some label =>
      rw [extractLabel_of_some hlabel]
      dsimp only
      refine (buildAttributes_yields h tag hreadable _).bind fun records u hu => ?_
      exact handLabel_yields h hclosed hn hlabel tag records hu
  | leaf | text =>
    dsimp only
    refine .after (readNode_apply n v) ?_
    refine (buildAttributes_yields h tag hreadable v).bind fun records u hu => ?_
    have hu' : u.store = v.store := hu
    rw [← hu'] at hclosed hn ⊢
    exact ⟨_, _, rfl, builds_addNode hclosed hn (hplain records)⟩

theorem lower_yields (hdirective : (w.store.node n).isDirective = true) :
    (lower o n).Yields w fun _ v => w.store.Lowers n v.store := by
  obtain ⟨kind, hkind⟩ := Fields.exists_kind hdirective
  obtain ⟨element, v, hbuilt, hbuilds⟩ := buildElement_yields h hclosed hn hname hreadable kind
  have hlower := lower_apply o n w
  rw [hkind] at hlower
  dsimp only at hlower
  rw [hbuilt] at hlower
  exact ⟨(), _, hlower, hbuilds.lowers hn⟩

/-- A directive is left alone or lowered; either way the visit returns. -/
theorem visit_yields (hdirective : (w.store.node n).isDirective = true) :
    (visit o n).Yields w fun _ v => v.store = w.store ∨ w.store.Lowers n v.store := by
  by_cases hskips : Skips o n w
  · obtain ⟨books, hvisit⟩ := visit_of_skips hskips
    exact ⟨(), _, hvisit, Or.inl rfl⟩
  · obtain ⟨taken, v, hfilter, hv⟩ := h.filter n (w.view Prod.fst)
    have hstore : v.store = w.store := hv
    have hvisit := visit_of_asks hskips
    rw [hfilter] at hvisit
    cases taken with
    | false => exact ⟨(), _, hvisit, Or.inl hstore⟩
    | true =>
      rw [← hstore] at hclosed hn hname hreadable hdirective ⊢
      obtain ⟨_, u, hlower, hu⟩ := lower_yields h (w := ⟨v.store, v.memory,
        { w.memory.2 with stats := w.memory.2.stats.visit }⟩) hclosed hn hname hreadable hdirective
      exact ⟨(), u, hvisit.trans hlower, Or.inr hu⟩

end Pass

end DirectiveLowering
