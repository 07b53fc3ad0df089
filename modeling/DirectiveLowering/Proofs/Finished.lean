import DirectiveLowering.Proofs.LoweredTwice
import DirectiveLowering.Proofs.Opening

/-!
# Finished directives

A directive that a pass has visited is in its final form at once: left alone, or overwritten with the
element made of it, over the list of children that it had or over a new one without its labels. What is
visited later does not touch it any more, as long as nothing is shared.

Results:
* `Dealt.trans`: directives that are visited one after another.
* `visit_finishes`: a visit finishes a directive.
-/

namespace DirectiveLowering

namespace Store

variable {c : Choices} {slot : Bool} {s s' s₁ s₂ : Store} {n : NodeId}

/-! ## The final form of a directive -/

/-- What is added to the children of an element for a label with a list of content: a new fragment over
that very list, or nothing. -/
def Added (slot : Bool) (s s' : Store) (content : ListId) (extra : List NodeId) : Prop :=
  if slot then
    ∃ fragment, extra = [fragment] ∧ ¬ s.HasNode fragment ∧ s'.HasNode fragment ∧
      s'.node fragment = slotFields.over content
  else extra = []

/-- The second store has a directive of the first in its final form. -/
inductive Finished (c : Choices) (slot : Bool) (s s' : Store) (n : NodeId) : Prop
  /-- It is as it was. -/
  | leftAlone : c.leavesAlone (s.node n).toFields = true → s'.node n = s.node n →
      Finished c slot s s' n
  /-- It is an element over its own list of children. -/
  | plain {kind : DirectiveKind} : c.fate (s.node n).toFields = some kind →
      (kind = .container → s.findLabel (s.children n) = none) →
      s'.node n = (c.lowered kind (s.node n).toFields).over (s.node n).children →
      Finished c slot s s' n
  /-- It is an element over a new list, without the labels. -/
  | labelled {label : NodeId} {l : ListId} {extra : List NodeId} :
      c.fate (s.node n).toFields = some .container →
      s.findLabel (s.children n) = some label →
      s'.node n = (c.lowered .container (s.node n).toFields).over l →
      ¬ s.HasList l → s'.HasList l →
      s'.list l = s.withoutLabels (s.children n) ++ extra →
      Added slot s s' (s.node label).children extra → Finished c slot s s' n

/-- A directive is in the store: an identity that is not stands for a blank node. -/
theorem hasNode_of_isDirective (h : (s.node n).isDirective = true) : s.HasNode n := by
  by_cases hn : s.HasNode n
  · exact hn
  · have hblank : s.node n = default := by
      have hsize : s.nodes.size ≤ n.index := Nat.le_of_not_lt hn
      simp [Store.node, hsize]
    rw [hblank] at h
    exact absurd h (by decide)

/-- Everything is there for a directive to be lowered: its children, and no attributes or a mapping of
them. -/
structure Ready (s : Store) (n : NodeId) : Prop where
  directive : (s.node n).isDirective = true
  plain : (s.node n).PlainAttributes
  children : ∀ k ∈ s.children n, s.HasNode k

/-! ## What follows does not touch it -/

/-- The later directives that are dealt with are apart from a finished one. -/
theorem Finished.of_grows {done : List NodeId} (h : Finished c slot s s₁ n)
    (hg : s₁.Grows s₂ (· ∈ done)) (hn : s.HasNode n) (hs : ∀ m, s.HasNode m → s₁.HasNode m)
    (hdone : ∀ m ∈ done, s.HasNode m) (hout : n ∉ done) : Finished c slot s s₂ n := by
  have hsame : s₂.node n = s₁.node n := hg.node n (hs n hn) hout
  cases h with
  | leftAlone hleft hnode => exact .leftAlone hleft (hsame.trans hnode)
  | plain hfate hlabel hnode => exact .plain hfate hlabel (hsame.trans hnode)
  | labelled hfate hlabel hnode hnew hl hlist hadded =>
    refine .labelled hfate hlabel (hsame.trans hnode) hnew (hg.hasList _ hl)
      ((hg.list _ hl).trans hlist) ?_
    cases slot with
    | false => exact hadded
    | true =>
      obtain ⟨fragment, hextra, hfresh, hfragment, hfields⟩ := hadded
      refine ⟨fragment, hextra, hfresh, hg.hasNode _ hfragment, ?_⟩
      rw [hg.node _ hfragment fun hin => hfresh (hdone _ hin), hfields]

/-- A store in which a node and its children are as they were before. -/
structure SameFamily (s s₁ : Store) (n : NodeId) : Prop where
  node : s₁.node n = s.node n
  children : s₁.children n = s.children n
  child : ∀ m ∈ s.children n, s₁.node m = s.node m

theorem SameFamily.of_grows {changed : NodeId → Prop} (hg : s.Grows s₁ changed) (hn : s.HasNode n)
    (hl : s.HasList (s.node n).children) (hout : ¬ changed n)
    (hchildren : ∀ m ∈ s.children n, s.HasNode m ∧ ¬ changed m) : SameFamily s s₁ n := by
  have hnode : s₁.node n = s.node n := hg.node n hn hout
  refine ⟨hnode, ?_, fun m hm => hg.node m (hchildren m hm).1 (hchildren m hm).2⟩
  rw [Store.children, hnode, hg.list _ hl, Store.children]

theorem SameFamily.trans (h₁ : SameFamily s s₁ n) (h₂ : SameFamily s₁ s₂ n) : SameFamily s s₂ n where
  node := h₂.node.trans h₁.node
  children := h₂.children.trans h₁.children
  child m hm := (h₂.child m (by rwa [h₁.children])).trans (h₁.child m hm)

theorem SameFamily.isLabel (h : SameFamily s s₁ n) :
    ∀ m ∈ s.children n, s₁.isLabel m = s.isLabel m := by
  intro m hm
  rw [Store.isLabel, h.child m hm, Store.isLabel]

theorem SameFamily.findLabel (h : SameFamily s s₁ n) :
    s₁.findLabel (s₁.children n) = s.findLabel (s.children n) := by
  rw [h.children, Store.findLabel, Store.findLabel, ← List.head?_filter, ← List.head?_filter,
    List.filter_congr h.isLabel]

theorem SameFamily.withoutLabels (h : SameFamily s s₁ n) :
    s₁.withoutLabels (s₁.children n) = s.withoutLabels (s.children n) := by
  rw [h.children, Store.withoutLabels, Store.withoutLabels]
  exact List.filter_congr fun m hm => by rw [h.isLabel m hm]

/-- The earlier directives that are dealt with are apart from one that is finished later. -/
theorem Finished.of_sameFamily (h : Finished c slot s₁ s₂ n) (hsame : SameFamily s s₁ n)
    (hnodes : ∀ m, s.HasNode m → s₁.HasNode m) (hlists : ∀ l, s.HasList l → s₁.HasList l) :
    Finished c slot s s₂ n := by
  cases h with
  | leftAlone hleft hnode =>
    rw [hsame.node] at hleft hnode
    exact .leftAlone hleft hnode
  | plain hfate hlabel hnode =>
    rw [hsame.findLabel] at hlabel
    rw [hsame.node] at hfate hnode
    exact .plain hfate hlabel hnode
  | @labelled label l extra hfate hlabel hnode hnew hl hlist hadded =>
    rw [hsame.findLabel] at hlabel
    have hcontent := hsame.child label (List.mem_of_find?_eq_some hlabel)
    rw [hsame.node] at hfate hnode
    rw [hsame.withoutLabels] at hlist
    rw [hcontent] at hadded
    refine .labelled hfate hlabel hnode (fun hold => hnew (hlists l hold)) hl hlist ?_
    cases slot with
    | false => exact hadded
    | true =>
      obtain ⟨fragment, hextra, hfresh, hfragment, hfields⟩ := hadded
      exact ⟨fragment, hextra, fun hold => hfresh (hnodes _ hold), hfragment, hfields⟩

/-! ## Directives dealt with one after another -/

/-- These directives have been dealt with, each of them once, and nothing else was changed; whatever is
a directive afterwards was the same before. -/
structure Dealt (c : Choices) (slot : Bool) (s : Store) (done : List NodeId) (s' : Store) :
    Prop where
  grows : s.Grows s' (· ∈ done)
  nodup : done.Nodup
  directive : ∀ n ∈ done, (s.node n).isDirective = true
  finished : ∀ n ∈ done, Finished c slot s s' n
  old : ∀ n, (s'.node n).isDirective = true → s'.node n = s.node n

variable {done more : List NodeId}

theorem Dealt.refl (c : Choices) (slot : Bool) (s : Store) : Dealt c slot s [] s where
  grows := Grows.refl s _
  nodup := List.nodup_nil
  directive _ hn := nomatch hn
  finished _ hn := nomatch hn
  old _ _ := rfl

theorem Dealt.hasNode (h : Dealt c slot s done s') (hn : (s'.node n).isDirective = true) :
    s.HasNode n := by
  rw [h.old n hn] at hn
  exact hasNode_of_isDirective hn

/-- A node, its children and their list have no part in what was done to these directives. -/
def Apart (s : Store) (done : List NodeId) (n : NodeId) : Prop :=
  n ∉ done ∧ s.HasList (s.node n).children ∧ ∀ m ∈ s.children n, s.HasNode m ∧ m ∉ done

theorem Apart.sameFamily (h : Apart s done n) (hn : s.HasNode n) (hdealt : Dealt c slot s done s₁) :
    SameFamily s s₁ n :=
  .of_grows hdealt.grows hn h.2.1 h.1 h.2.2

/-- Directives that are dealt with later are apart from those that were dealt with before. -/
theorem Dealt.trans (h₁ : Dealt c slot s done s₁) (h₂ : Dealt c slot s₁ more s₂)
    (hapart : ∀ n ∈ more, Apart s done n) : Dealt c slot s (done ++ more) s₂ where
  grows := by
    have hfirst := h₁.grows.mono fun n _ (hn : n ∈ done) => List.mem_append_left more hn
    exact hfirst.trans h₂.grows fun n _ hout hin => hout (List.mem_append_right done hin)
  nodup := by
    refine List.nodup_append.2 ⟨h₁.nodup, h₂.nodup, ?_⟩
    rintro n hn _ hn' rfl
    exact (hapart n hn').1 hn
  directive n hn := by
    rcases List.mem_append.1 hn with hn | hn
    · exact h₁.directive n hn
    · have hdirective := h₂.directive n hn
      rwa [h₁.old n hdirective] at hdirective
  finished n hn := by
    have hmore : ∀ m ∈ more, s.HasNode m := fun m hm => h₁.hasNode (h₂.directive m hm)
    rcases List.mem_append.1 hn with hn | hn
    · exact (h₁.finished n hn).of_grows h₂.grows (hasNode_of_isDirective (h₁.directive n hn))
        h₁.grows.hasNode hmore fun hin => (hapart n hin).1 hn
    · exact (h₂.finished n hn).of_sameFamily ((hapart n hn).sameFamily (hmore n hn) h₁)
        h₁.grows.hasNode h₁.grows.hasList
  old n hn := by
    have hn' := h₂.old n hn
    rw [hn'] at hn ⊢
    exact h₁.old n hn

/-! ## Dealing with one directive -/

/-- Nothing but nodes that are no directives has been added. -/
theorem dealt_added (hg : s.Grows s₁ fun _ => False)
    (hadded : ∀ k, (s₁.node k).isDirective = true → s.HasNode k) : Dealt c slot s [] s₁ where
  grows := hg.mono fun _ _ => False.elim
  nodup := List.nodup_nil
  directive _ hn := nomatch hn
  finished _ hn := nomatch hn
  old k hk := hg.node k (hadded k hk) id

theorem dealt_left (hdirective : (s.node n).isDirective = true)
    (hleft : c.leavesAlone (s.node n).toFields = true) : Dealt c slot s [n] s where
  grows := Grows.refl s _
  nodup := by simp
  directive k hk := by
    rw [List.mem_singleton.1 hk]
    exact hdirective
  finished k hk := by
    rw [List.mem_singleton.1 hk]
    exact .leftAlone hleft rfl
  old _ _ := rfl

/-- A directive is overwritten with an element, after nothing but other elements has been added. -/
theorem dealt_overwritten {x : Node} (hdirective : (s.node n).isDirective = true)
    (hg : s.Grows s₁ fun _ => False) (hadded : ∀ k, (s₁.node k).isDirective = true → s.HasNode k)
    (hx : x.isDirective = false)
    (hfinished : s₁.HasNode n → Finished c slot s (s₁.setNode n x) n) :
    Dealt c slot s [n] (s₁.setNode n x) where
  grows := by
    have hfirst : s.Grows s₁ (· ∈ [n]) := hg.mono fun _ _ => False.elim
    refine hfirst.trans (grows_setNode s₁ n x) fun k _ hout hk => ?_
    exact hout (List.mem_singleton.2 hk)
  nodup := by simp
  directive k hk := by
    rw [List.mem_singleton.1 hk]
    exact hdirective
  finished k hk := by
    rw [List.mem_singleton.1 hk]
    exact hfinished (hg.hasNode n (hasNode_of_isDirective hdirective))
  old k hk := by
    rw [node_setNode] at hk ⊢
    by_cases hkn : k = n ∧ s₁.HasNode n
    · rw [if_pos hkn, hx] at hk
      cases hk
    · rw [if_neg hkn] at hk ⊢
      exact hg.node k (hadded k hk) id

/-- What a label becomes is added to the end of a new element's children. -/
theorem added_label (slot : Bool) (content : ListId) {f : Fields} {items : List NodeId}
    {element : NodeId} (hgains : s.Gains f items element s₁) :
    s.Grows (s₁.label slot element content) (fun _ => False) ∧
    (s₁.label slot element content).node element = s₁.node element ∧
    (∀ k, ((s₁.label slot element content).node k).isDirective = true →
      (s₁.node k).isDirective = true) ∧
    ∃ extra, (s₁.label slot element content).list (s₁.node element).children = items ++ extra ∧
      Added slot s (s₁.label slot element content) content extra := by
  have hchildren : s₁.list (s₁.node element).children = items := hgains.children
  cases slot with
  | false => exact ⟨hgains.grows, rfl, fun _ => id, [], by rw [List.append_nil]; exact hchildren, rfl⟩
  | true =>
    have hnode := node_appendSlot s₁ content hgains.hasNode
    have hnew : element ≠ s₁.nextNode := by
      rintro heq
      exact not_hasNode_nextNode s₁ (heq ▸ hgains.hasNode)
    refine ⟨grows_appendSlot hgains.grows hgains.hasNode hgains.newList content, ?_, fun k hk => ?_,
      [s₁.nextNode], ?_, s₁.nextNode, rfl, fun hold => ?_, ?_, ?_⟩
    · exact (hnode element).trans (if_neg hnew)
    · have hk' : ((s₁.appendSlot element content).node k).isDirective = true := hk
      rw [hnode] at hk'
      by_cases hkn : k = s₁.nextNode
      · rw [if_pos hkn, Fields.toFields_over] at hk'
        exact absurd hk' (by decide)
      · rwa [if_neg hkn] at hk'
    · have hlist := list_appendSlot s₁ content hgains.hasNode (s₁.node element).children
      rw [if_pos ⟨rfl, hgains.hasList⟩, hchildren] at hlist
      exact hlist
    · exact not_hasNode_nextNode s₁ (hgains.grows.hasNode _ hold)
    · exact (hasNode_appendSlot s₁ content hgains.hasNode _).2 (Or.inr rfl)
    · exact (hnode _).trans (if_pos rfl)

end Store

namespace Pass

open Store

variable {σ : Type} {o : Options σ} {c : Choices} {slot : Bool} {s : Store} {n : NodeId}

section Lower

variable (h : o.Follows c) (m : σ) (events : List HookEvent) (books : Books)
  (hdirective : (s.node n).isDirective = true)
  (hattributes : attributeEntries (s.node n).attributes = .ok (s.node n).entries)
include h hdirective hattributes

theorem lower_plain_deals {kind : DirectiveKind} (hfate : c.fate (s.node n).toFields = some kind)
    (hlabel : kind = .container → s.findLabel (s.children n) = none) :
    ∃ w, lower o.recorded n ⟨s, (m, events), books⟩ = .ok () w ∧ Dealt c slot s [n] w.store := by
  have hkind := (Choices.fate_eq_some hfate).2
  obtain ⟨m', notices, hlower⟩ := lower_plain h m events books (hasNode_of_isDirective hdirective)
    hkind hattributes hlabel rfl
  refine ⟨_, hlower, dealt_overwritten hdirective (grows_addNode s _ _) (fun k hk => ?_)
    (Choices.isDirective_lowered c kind _) fun hn => ?_⟩
  · rw [node_addNode] at hk
    split at hk
    · rw [Fields.toFields_over, Choices.isDirective_element] at hk
      cases hk
    · exact hasNode_of_isDirective hk
  · exact .plain hfate hlabel ((node_setNode _ n n _).trans (if_pos ⟨rfl, hn⟩))

theorem lower_labelled_deals (hhook : o.Labels slot) {label : NodeId}
    (hfate : c.fate (s.node n).toFields = some .container)
    (hlabel : s.findLabel (s.children n) = some label) (hlabelNode : s.HasNode label) :
    ∃ w, lower o.recorded n ⟨s, (m, events), books⟩ = .ok () w ∧ Dealt c slot s [n] w.store := by
  have hkind := (Choices.fate_eq_some hfate).2
  obtain ⟨element, s₁, hadd, hgains⟩ :=
    exists_gains s (c.element .container (s.node n).toFields) (s.withoutLabels (s.children n))
  have hcontent : (s.node label).children = (s₁.node label).children := by
    rw [hgains.grows.node label hlabelNode id]
  obtain ⟨hg, hsame, hold, extra, hlist, hextra⟩ :=
    added_label slot (s.node label).children hgains
  obtain ⟨s', m', notices, rfl, hlower⟩ := lower_labelled h m events books hkind hattributes hlabel
    hadd hcontent (P := (· = s₁.label slot element (s.node label).children)) fun m => by
      obtain ⟨m', hm⟩ := hhook element (s.node label).children ⟨s₁, m⟩
      exact ⟨_, m', hm, rfl⟩
  have hover : (((s₁.label slot element (s.node label).children).node n).overwrite
      ((s₁.label slot element (s.node label).children).node element)) =
      (c.lowered .container (s.node n).toFields).over (s₁.node element).children := by
    rw [hg.node n (hasNode_of_isDirective hdirective) id, hsame, hgains.fields]
    rfl
  rw [hover] at hlower
  refine ⟨_, hlower, dealt_overwritten hdirective hg (fun k hk => ?_)
    (Choices.isDirective_lowered c .container _) fun hn => ?_⟩
  · have hk' := hold k hk
    rcases hgains.only k (hasNode_of_isDirective hk') with hk | rfl
    · exact hk
    · rw [hgains.fields, Fields.toFields_over, Choices.isDirective_element] at hk'
      cases hk'
  · have hl : (s₁.label slot element (s.node label).children).HasList
        (s₁.node element).children := by
      cases slot with
      | false => exact hgains.hasList
      | true => exact (hasList_appendSlot s₁ _ hgains.hasNode _).2 hgains.hasList
    refine .labelled hfate hlabel ((node_setNode _ n n _).trans (if_pos ⟨rfl, hn⟩)) hgains.newList hl
      hlist ?_
    cases slot with
    | false => exact hextra
    | true =>
      -- the fragment is new, so the directive that is overwritten is another node
      obtain ⟨fragment, hfragment, hnew, hthere, hfields⟩ := hextra
      refine ⟨fragment, hfragment, hnew, (hasNode_setNode _ n _ _).2 hthere, ?_⟩
      rw [node_setNode, if_neg, hfields]
      rintro ⟨rfl, -⟩
      exact hnew (hasNode_of_isDirective hdirective)

end Lower

/-- **A visit finishes a directive**, and touches nothing else that was there. -/
theorem visit_finishes (h : o.Follows c) (hhook : o.Labels slot) (m : σ) (events : List HookEvent)
    (books : Books) (hready : Ready s n) :
    ∃ w, visit o.recorded n ⟨s, (m, events), books⟩ = .ok () w ∧ Dealt c slot s [n] w.store := by
  obtain ⟨hdirective, hplain, hchildren⟩ := hready
  have hattributes := attributeEntries_of_plain hplain hdirective
  by_cases hleft : c.leavesAlone (s.node n).toFields = true
  · obtain ⟨m', events', books', hvisit, -, -⟩ := visit_left_alone h m events books hleft
    exact ⟨_, hvisit, dealt_left hdirective hleft⟩
  · obtain ⟨m', hvisit⟩ := visit_taken h m events books (by simpa using hleft)
    rw [hvisit]
    obtain ⟨kind, hfate⟩ := Choices.fate_of_directive hdirective hleft
    cases hlabel : s.findLabel (s.children n) with
    | none => exact lower_plain_deals h m' _ _ hdirective hattributes hfate fun _ => hlabel
    | some label =>
      by_cases hcontainer : kind = .container
      · rw [hcontainer] at hfate
        exact lower_labelled_deals h m' _ _ hdirective hattributes hhook hfate hlabel
          (hchildren label (List.mem_of_find?_eq_some hlabel))
      · exact lower_plain_deals h m' _ _ hdirective hattributes hfate fun hk => absurd hk hcontainer

end Pass

end DirectiveLowering
