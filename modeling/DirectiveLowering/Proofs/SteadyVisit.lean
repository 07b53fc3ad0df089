import DirectiveLowering.Proofs.Bookkeeping
import DirectiveLowering.Proofs.Endowing
import DirectiveLowering.Proofs.Frame

/-!
# Visits with steady hooks

Hooks are steady if the filter and the naming hooks touch no children and the label hook only places the
content of a label. They may fail, change the fields of any node, and make nodes and lists of their own.
A visit with steady hooks makes no cycles, and its store subsides, whether or not the visit returns.

Results:
* `buildElement_prepares`: the element that is made for a directive, or what is left if a hook fails.
* `lower_settles`, `visitor_settles`: a store subsides while a directive is dealt with.
-/

namespace DirectiveLowering

variable {μ ν σ α β : Type}

/-! ## Answers and failures -/

namespace Effect

/-- The computation gives an answer in a world, about which the one property holds, or fails in a world
with the other. -/
def YieldsOr (x : Effect μ α) (w : World μ) (P : α → World μ → Prop) (Q : World μ → Prop) : Prop :=
  match x w with
  | .ok a v => P a v
  | .error _ v => Q v

variable {x : Effect μ α} {w v : World μ} {P : α → World μ → Prop} {Q : World μ → Prop}

theorem YieldsOr.bind {f : α → Effect μ β} {R : β → World μ → Prop} (hx : x.YieldsOr w P Q)
    (hf : ∀ a v, P a v → (f a).YieldsOr v R Q) : (x >>= f).YieldsOr w R Q := by
  unfold YieldsOr at hx
  cases hr : x w with
  | ok a v =>
    rw [hr] at hx
    unfold YieldsOr
    rw [bind_ok hr]
    exact hf a v hx
  | error fault v =>
    rw [hr] at hx
    unfold YieldsOr
    rw [bind_error hr]
    exact hx

/-- The first part is known to return. -/
theorem YieldsOr.after {a : α} (hx : x w = .ok a v) {f : α → Effect μ β} {R : β → World μ → Prop}
    (hf : (f a).YieldsOr v R Q) : (x >>= f).YieldsOr w R Q := by
  unfold YieldsOr
  rw [bind_ok hx]
  exact hf

theorem YieldsOr.mono {R : World μ → Prop} (h : x.YieldsOr w P Q) (hQ : ∀ v, Q v → R v) :
    x.YieldsOr w P R := by
  unfold YieldsOr at *
  cases hr : x w with
  | ok a v =>
    rw [hr] at h
    exact h
  | error fault v =>
    rw [hr] at h
    exact hQ v h

end Effect

open Effect Store

/-! ## Steady hooks -/

/-- The second world comes from the first by changes that touch no children. -/
def SparesChildren (w v : World μ) : Prop :=
  w.store.KeepsChildren v.store

/-- The filter and the naming hooks touch no children, and the label hook only places the content of a
label. -/
structure Options.Steady (o : Options σ) : Prop where
  filter : ∀ n, Keeps SparesChildren (o.filter n)
  transformTag : ∀ name, Keeps SparesChildren (o.transformTag name)
  transformAttribute : ∀ tag name, Keeps SparesChildren (o.transformAttribute tag name)
  handleLabel : Places o.handleLabel

theorem sparesChildren_refl (w : World μ) : SparesChildren w w :=
  .refl

theorem sparesChildren_trans (u v w : World μ) (h₁ : SparesChildren u v) (h₂ : SparesChildren v w) :
    SparesChildren u w :=
  KeepsChildren.trans h₁ h₂

/-- Every ready-made filter touches no children. -/
theorem FilterPolicy.keeps_hook (p : FilterPolicy) (n : NodeId) :
    Keeps SparesChildren (p.hook n) := by
  have hdecide : ∀ node : Fields, Keeps SparesChildren (p.decide n node) := by
    intro node
    cases p with
    | all | names | notNames | types | const => exact Keeps.pure sparesChildren_refl _
    | failOn name failure =>
      simp only [FilterPolicy.decide]
      split
      · exact Keeps.throw sparesChildren_refl _
      · exact Keeps.pure sparesChildren_refl _
    | retype name type =>
      simp only [FilterPolicy.decide]
      split
      · refine Keeps.bind sparesChildren_trans (fun w => ?_) fun _ => Keeps.pure sparesChildren_refl _
        exact KeepsChildren.refl.setFields n { (w.store.node n).toFields with type := type }
      · exact Keeps.pure sparesChildren_refl _
  have hrecorded : Keeps SparesChildren (do
      let node ← readNode n
      recorded (.filter node.type node.name) (p.decide n node.toFields) : Effect Trace Bool) := by
    refine Keeps.bind sparesChildren_trans (Keeps.readNode sparesChildren_refl n) fun node => ?_
    exact Keeps.bind sparesChildren_trans (fun w => sparesChildren_refl w) fun _ => hdecide node.toFields
  cases p with
  | all => exact Keeps.pure sparesChildren_refl true
  | names | notNames | types | const | failOn | retype => exact hrecorded

/-- Ready-made filters and label hooks, with names kept as they are, are steady. -/
theorem steady_policies (p : FilterPolicy) {q : LabelPolicy} (hq : q ∈ LabelPolicy.placing) :
    Options.Steady { filter := p.hook, handleLabel := q.hook } where
  filter := p.keeps_hook
  transformTag _ := Keeps.pure sparesChildren_refl _
  transformAttribute _ _ := Keeps.pure sparesChildren_refl _
  handleLabel := places_hook hq

theorem Effect.YieldsOr.of_spares {x : Effect μ α} {w : World μ} (hs : w.store.Sound)
    (h : SparesChildren w (left (x w))) :
    x.YieldsOr w (fun _ v => w.store.KeepsChildren v.store) fun v => w.store.Settles v.store := by
  unfold YieldsOr
  cases hr : x w with
  | ok a v =>
    rw [hr] at h
    exact h
  | error fault v =>
    rw [hr] at h
    exact KeepsChildren.settles h hs

theorem keeps_onFirst {x : Effect μ α} (h : Keeps SparesChildren x) :
    Keeps SparesChildren (onFirst x : Effect (μ × ν) α) := by
  intro w
  obtain ⟨s, m, outer⟩ := w
  have hx : s.KeepsChildren (left (x ⟨s, m⟩)).store := h ⟨s, m⟩
  show s.KeepsChildren (left (onFirst x ⟨s, m, outer⟩)).store
  cases hr : x ⟨s, m⟩ with
  | ok a v =>
    rw [hr] at hx
    rw [onFirst_ok hr]
    exact hx
  | error fault v =>
    rw [hr] at hx
    rw [onFirst_error hr]
    exact hx

/-! ## Making an element -/

namespace Store

variable {s s₁ : Store} {n : NodeId} {l : ListId}

/-- An element over children of the directive. -/
theorem KeepsChildren.prepares_addNode (h : s.KeepsChildren s₁) (hs : s.Sound) (f : Fields)
    (hl : s₁.HasList l) (hbody : s₁.list l ⊆ s.children n) :
    s.Prepares n (s₁.addNode (f.over l)).1 (s₁.addNode (f.over l)).2 := by
  have hadded := h.addNode f l hl
  refine hadded.retains.prepares (hadded.sound hs) ?_ ?_
  · exact (hasNode_addNode s₁ _ _).2 (Or.inr rfl)
  · unfold Store.children
    rw [node_addNode, if_pos rfl]
    exact hbody

/-- An element over the list of the directive. -/
theorem KeepsChildren.prepares_over (h : s.KeepsChildren s₁) (hs : s.Sound) (hn : s.HasNode n)
    (f : Fields) (hl : l = (s.node n).children) :
    s.Prepares n (s₁.addNode (f.over l)).1 (s₁.addNode (f.over l)).2 := by
  subst hl
  have hlist := hs.closed.children n hn
  exact h.prepares_addNode hs f (h.retains.hasList _ hlist) (h.retains.list _ hlist).subset

end Store

namespace Pass

variable {o : Options σ} (h : o.Steady)
include h

theorem keeps_attributes (tag : Option String) (attributes : Option Attributes) :
    Keeps SparesChildren (buildAttributes (fun name => onFirst (o.transformAttribute tag name))
      attributes : PassEffect σ (List JsxAttribute)) :=
  Keeps.buildAttributes sparesChildren_refl sparesChildren_trans
    (fun name => keeps_onFirst (h.transformAttribute tag name)) attributes

variable {n label : NodeId} {w : World (σ × Books)} {s : Store}

/-- The element of a container with a label is made over a new list, and endowed with the label's
content. -/
theorem handLabel_prepares (hs : s.Sound) (hn : s.HasNode n) {l : ListId} (hnew : ¬ s.HasList l)
    (hlabel : label ∈ s.children n) (hkeeps : s.KeepsChildren w.store) (hl : w.store.HasList l)
    (hbody : w.store.list l ⊆ s.children n) (f : Fields) :
    (do
      let element ← onStore (Store.addNode · (f.over l))
      count Stats.label
      onFirst (o.handleLabel element (← readNode label).children)
      return element : PassEffect σ NodeId).YieldsOr w
        (fun element v => s.Prepares n element v.store) fun v => s.Settles v.store := by
  obtain ⟨element, s₁, hadd⟩ : ∃ element s₁, w.store.addNode (f.over l) = (element, s₁) := ⟨_, _, rfl⟩
  have hadded : onStore (Store.addNode · (f.over l)) w = .ok element ⟨s₁, w.memory⟩ := by
    rw [onStore_apply, hadd]
  have hprepares := hkeeps.prepares_addNode hs f hl hbody
  have hkeeps₁ := hkeeps.addNode f l hl
  have hnode : (w.store.addNode (f.over l)).2.node (w.store.addNode (f.over l)).1 = f.over l := by
    rw [node_addNode, if_pos rfl]
  rw [hadd] at hprepares hkeeps₁ hnode
  have hlabelNode := hs.closed.child hn hlabel
  have hcontent : (s₁.node label).children = (s.node label).children :=
    hprepares.retains.node label hlabelNode
  have hown : (s₁.node element).children = l := by rw [hnode, Fields.children_over]
  have hentrusted : s₁.Entrusted element (s₁.node label).children := by
    constructor
    case closed => exact hprepares.sound.closed
    case hasNode => exact hprepares.hasNode
    case hasList =>
      exact hprepares.sound.closed.children label (hprepares.retains.hasNode label hlabelNode)
    case apart =>
      rw [hcontent, hown]
      rintro rfl
      exact hnew (hs.closed.children label hlabelNode)
  have hendows := h.handleLabel.endows hentrusted w.memory.1
  have hplaced := hendows.prepares hentrusted hs hn hkeeps₁.retains hprepares.sound
    (by rwa [hown]) (by
      rw [Store.children, hown]
      exact fun k hk => hbody (by rwa [← list_addNode w.store (f.over l), hadd])) hlabel hcontent.symm
  refine .after hadded (.after (count_apply _ _ _ _) (.after (readNode_apply label _) ?_))
  dsimp only
  cases hhook : o.handleLabel element (s₁.node label).children ⟨s₁, w.memory.1⟩ with
  | ok a v =>
    rw [hhook] at hplaced
    exact .after (onFirst_ok hhook) hplaced
  | error fault v =>
    rw [hhook] at hplaced
    unfold YieldsOr
    rw [bind_error (onFirst_error hhook)]
    exact hplaced.settled hs

/-- An element is made for the directive; if a hook fails, the store has settled all the same. -/
theorem buildElement_prepares (hs : w.store.Sound) (hn : w.store.HasNode n) (kind : DirectiveKind) :
    (buildElement o kind n).YieldsOr w (fun element v => w.store.Prepares n element v.store)
      fun v => w.store.Settles v.store := by
  refine .after (readNode_apply n w) ?_
  have htag : Keeps SparesChildren (onFirst (o.transformTag (w.store.node n).name) :
      PassEffect σ (Option String)) := keeps_onFirst (h.transformTag _)
  refine (YieldsOr.of_spares hs (htag w)).bind fun tag v hv => ?_
  have hnode : (v.store.node n).children = (w.store.node n).children := hv.retains.node n hn
  -- the records are made before the element, and a naming hook may fail meanwhile
  have hrecords : ∀ u : World (σ × Books), w.store.Settles u.store → ∀ attributes,
      (buildAttributes (fun name => onFirst (o.transformAttribute tag name)) attributes).YieldsOr u
        (fun _ r => u.store.KeepsChildren r.store) fun r => w.store.Settles r.store :=
    fun u hu attributes => (YieldsOr.of_spares hu.sound (keeps_attributes h tag attributes u)).mono
      fun _ hr => hu.trans hr
  cases kind with
  | container =>
    dsimp only
    refine .after (readNode_apply n v) (.after (onStore_apply _ v) (.after (readNode_apply n _) ?_))
    dsimp only
    cases hlabel : v.store.findLabel (v.store.list (v.store.node n).children) with
    | none =>
      rw [extractLabel_of_none hlabel]
      refine (hrecords v (hv.settles hs) _).bind fun records u hu => ?_
      refine .after (onStore_apply _ u) ?_
      exact (hv.trans hu).prepares_over hs hn _ hnode
    | some label =>
      rw [extractLabel_of_some hlabel]
      dsimp only
      have hbody : v.store.children n ⊆ w.store.children n :=
        (hv.retains.children hs.closed hn).subset
      have hrest : ∀ k ∈ v.store.withoutLabels (v.store.children n), k ∈ v.store.children n :=
        fun k hk => (List.mem_filter.1 hk).1
      have hadded : w.store.KeepsChildren
          (v.store.addList (v.store.withoutLabels (v.store.children n))).2 :=
        hv.addList _ fun k hk =>
          (hv.sound hs).closed.child (hv.retains.hasNode n hn) (hrest k hk)
      have hlast := (hasList_addList v.store (v.store.withoutLabels (v.store.children n)) _).2
        (Or.inr rfl)
      refine (hrecords _ (hadded.settles hs) _).bind fun records u hu => ?_
      have hu' : (v.store.addList (v.store.withoutLabels (v.store.children n))).2.KeepsChildren
          u.store := hu
      refine handLabel_prepares h hs hn ?_ (hbody (List.mem_of_find?_eq_some hlabel))
        (hadded.trans hu') (hu'.retains.hasList _ hlast) ?_ _
      · exact fun hold => not_hasList_addList v.store _ (hv.retains.hasList _ hold)
      · intro k hk
        have hk' := (hu'.retains.list _ hlast).subset hk
        rw [list_addList, if_pos rfl] at hk'
        exact hbody (hrest k hk')
  | leaf | text =>
    dsimp only
    refine .after (readNode_apply n v) ?_
    refine (hrecords v (hv.settles hs) _).bind fun records u hu => ?_
    refine .after (readNode_apply n u) ?_
    have hkeeps := hv.trans hu
    exact hkeeps.prepares_over hs hn _ (hkeeps.retains.node n hn)

/-! ## Dealing with a directive -/

theorem lower_settles (hs : w.store.Sound) (hn : w.store.HasNode n) :
    w.store.Settles (left (lower o n w)).store := by
  rw [lower_apply]
  cases DirectiveKind.ofType? (w.store.node n).type with
  | none => exact hs.settles
  | some kind =>
    have hbuild := buildElement_prepares h hs hn kind
    unfold YieldsOr at hbuild
    dsimp only
    cases hr : buildElement o kind n w with
    | error fault v =>
      rw [hr] at hbuild
      exact hbuild
    | ok element v =>
      rw [hr] at hbuild
      exact Prepares.settles hbuild hs hn rfl

/-- **A visit with steady hooks makes no cycles and its store subsides, whether or not it returns.** -/
theorem visitor_settles (hs : w.store.Sound) (hn : w.store.HasNode n) (i : Option Nat)
    (p : Option NodeId) : w.store.Settles (left (visitor o n i p w)).store := by
  have hvisitor : (left (visitor o n i p w)).store = (left (visit o n w)).store := by
    rw [visitor_apply]
    cases visit o n w <;> rfl
  rw [hvisitor]
  by_cases hskips : Skips o n w
  · obtain ⟨books, hvisit⟩ := visit_of_skips hskips
    rw [hvisit]
    exact hs.settles
  · have hasked : w.store.KeepsChildren (left (o.filter n (w.view Prod.fst))).store :=
      h.filter n (w.view Prod.fst)
    rw [visit_of_asks hskips]
    cases hfilter : o.filter n (w.view Prod.fst) with
    | error fault v =>
      rw [hfilter] at hasked
      exact KeepsChildren.settles hasked hs
    | ok taken v =>
      rw [hfilter] at hasked
      have hkeeps : w.store.KeepsChildren v.store := hasked
      cases taken with
      | false => exact KeepsChildren.settles hkeeps hs
      | true =>
        have hlower := lower_settles h (w := ⟨v.store, v.memory,
          { w.memory.2 with stats := w.memory.2.stats.visit }⟩) (hkeeps.sound hs)
          (hkeeps.retains.hasNode n hn)
        exact (KeepsChildren.settles hkeeps hs).trans hlower

end Pass

end DirectiveLowering
