import DirectiveLowering.Proofs.DocumentTalk
import DirectiveLowering.Proofs.Treatment
import Mathlib.Data.List.Nodup
import Mathlib.Data.List.Perm.Subperm

/-!
# What becomes of nodes

In a document without sharing a pass makes of each node what the visit of that node makes of it: later
visits touch other nodes only. So what a pass does to a document can be told node by node, from the store
before the pass and the store after it.

Results:
* `fate_settle`: what a visit makes of its directive.
* `Fates.append`: documents one after another.
* `goesOn_settle`: the documents that the walk goes on with below a directive.
* `Fates.below`: a directive, and then what is below it.
-/

namespace DirectiveLowering.Store

open Skeleton

variable {slots : Bool → Prop} {s s' s₁ s₂ : Store} {n label : NodeId} {g : Fields} {slotted : Bool}
  {outcome : Outcome} {xs ys : List NodeId} {ks us : List Skeleton}

/-! ## What a visit makes of its directive -/

theorem settle_opened (g : Fields) (label : NodeId) (slotted : Bool) (hn : s.HasNode n) :
    s.Grows (s.settle n (.opened g label slotted)) (· = n) ∧
      ∃ l extra, (s.settle n (.opened g label slotted)).node n = (s.node n).overwrite (g.over l) ∧
        (s.settle n (.opened g label slotted)).HasList l ∧
        (s.settle n (.opened g label slotted)).list l = s.withoutLabels (s.children n) ++ extra ∧
        Added slotted s (s.settle n (.opened g label slotted)) (s.node label).children extra := by
  obtain ⟨element, s₁, hadd, hgains⟩ := exists_gains s g (s.withoutLabels (s.children n))
  obtain ⟨hgrows, -, -, extra, hlist, hadded⟩ := added_label slotted (s.node label).children hgains
  have hmid := hgrows.hasNode n hn
  have hfirst : s.Grows (s₁.label slotted element (s.node label).children) (· = n) :=
    hgrows.mono fun _ _ => False.elim
  rw [settle, hadd]
  refine ⟨hfirst.trans (grows_setNode _ n _) fun _ _ hne => hne, (s₁.node element).children, extra,
    ?_, ?_, hlist, ?_⟩
  · rw [node_setNode, if_pos ⟨rfl, hmid⟩, hgains.fields]
    rfl
  · exact (hasList_setNode _ n _ _).2 ((hasList_label hgains.hasNode _).2 hgains.hasList)
  · cases slotted with
    | false => exact hadded
    | true =>
      obtain ⟨fragment, hextra, hnew, hfragment, hnode⟩ := hadded
      have hne : fragment ≠ n := by
        rintro rfl
        exact hnew hn
      refine ⟨fragment, hextra, hnew, (hasNode_setNode _ n fragment _).2 hfragment, ?_⟩
      rw [node_setNode, if_neg fun hc => hne hc.1, hnode]

/-- What has become of a node. -/
inductive Fate (slots : Bool → Prop) (s s' : Store) (n : NodeId) : Prop
  /-- It is as it was. -/
  | same : s'.node n = s.node n → Fate slots s s' n
  /-- It was a directive without a label and is an element over the list that it had. -/
  | lowered {g : Fields} : (s.node n).isDirective = true → s.ownLabel n = none →
      g.isDirective = false → g.isLabel = false → s'.node n = g.over (s.node n).children →
      Fate slots s s' n
  /-- It was a container with a label and is an element over a list without labels, behind which the
  first label may have been appended; the label itself is as it was. -/
  | opened {g : Fields} {label : NodeId} {slotted : Bool} {l : ListId} {extra : List NodeId} :
      (s.node n).isDirective = true → s.ownLabel n = some label → slots slotted →
      g.isDirective = false → g.isLabel = false → s'.node n = g.over l → s'.HasList l →
      s'.list l = s.withoutLabels (s.children n) ++ extra →
      Added slotted s s' (s.node label).children extra → s'.node label = s.node label →
      Fate slots s s' n

theorem fate_settle (hn : s.HasNode n) (hdirective : (s.node n).isDirective = true)
    (hchildren : ∀ k ∈ s.children n, s.HasNode k ∧ k ≠ n) (h : s.Suits slots n outcome) :
    Fate slots s (s.settle n outcome) n := by
  cases h with
  | leftAlone => exact .same rfl
  | @lowered kind tag records hkind hlabel =>
    refine .lowered hdirective (ownLabel_eq_labelOf hkind ▸ hlabel) ?_ ?_ (settle_lowered hn).2
    · cases kind <;> rfl
    · rfl
  | @opened label slotted tag records hkind hlabel hslot =>
    obtain ⟨hgrows, l, extra, hnode, hl, hlist, hadded⟩ :=
      settle_opened (elementFields NodeType.flowElement tag records) label slotted hn
    obtain ⟨hold, hne⟩ := hchildren label (List.mem_of_find?_eq_some hlabel)
    exact .opened hdirective (ownLabel_eq_labelOf hkind ▸ hlabel) hslot rfl rfl hnode hl hlist hadded
      (hgrows.node label hold hne)

theorem grows_settle (hn : s.HasNode n) (h : s.Suits slots n outcome) :
    s.Grows (s.settle n outcome) (· = n) := by
  cases h with
  | leftAlone => exact Grows.refl s _
  | lowered => exact (settle_lowered hn).1
  | opened => exact (settle_opened _ _ _ hn).1

/-! ## What follows does not touch it -/

/-- Later visits of other directives. -/
theorem Fate.of_grows {changed : NodeId → Prop} (h : Fate slots s s₁ n) (hg : s₁.Grows s₂ changed)
    (hgrown : ∀ k, s.HasNode k → s₁.HasNode k) (hn : s.HasNode n) (hout : ¬ changed n)
    (hkeeps : (s₁.node n).isDirective = false →
      ∀ label, s.ownLabel n = some label → s.HasNode label ∧ ¬ changed label)
    (hnew : ∀ k, ¬ s.HasNode k → (s₁.node k).isDirective = false → ¬ changed k) :
    Fate slots s s₂ n := by
  have hsame : s₂.node n = s₁.node n := hg.node n (hgrown n hn) hout
  cases h with
  | same hnode => exact .same (hsame.trans hnode)
  | lowered hdirective hlabel hplain hunmarked hnode =>
    exact .lowered hdirective hlabel hplain hunmarked (hsame.trans hnode)
  | @opened g label slotted l extra hdirective hlabel hslot hplain hunmarked hnode hl hlist hadded
      hkept =>
    obtain ⟨hold, hfree⟩ := hkeeps (by rw [hnode]; exact hplain) label hlabel
    refine .opened hdirective hlabel hslot hplain hunmarked (hsame.trans hnode) (hg.hasList l hl)
      ((hg.list l hl).trans hlist) ?_ ((hg.node label (hgrown _ hold) hfree).trans hkept)
    cases slotted with
    | false => exact hadded
    | true =>
      obtain ⟨fragment, hextra, hfresh, hfragment, hfields⟩ := hadded
      have hout : ¬ changed fragment := hnew fragment hfresh (by rw [hfields]; rfl)
      exact ⟨fragment, hextra, hfresh, hg.hasNode _ hfragment,
        (hg.node _ hfragment hout).trans hfields⟩

theorem ownLabel_congr (h : SameFamily s s₁ n) : s₁.ownLabel n = s.ownLabel n := by
  rw [ownLabel, ownLabel, h.node, h.findLabel]

/-- Earlier visits of other directives. -/
theorem Fate.of_sameFamily (h : Fate slots s₁ s₂ n) (hsame : SameFamily s s₁ n)
    (hgrown : ∀ k, s.HasNode k → s₁.HasNode k) : Fate slots s s₂ n := by
  cases h with
  | same hnode => exact .same (hnode.trans hsame.node)
  | lowered hdirective hlabel hplain hunmarked hnode =>
    rw [ownLabel_congr hsame] at hlabel
    rw [hsame.node] at hdirective hnode
    exact .lowered hdirective hlabel hplain hunmarked hnode
  | @opened g label slotted l extra hdirective hlabel hslot hplain hunmarked hnode hl hlist hadded
      hkept =>
    rw [ownLabel_congr hsame] at hlabel
    rw [hsame.node] at hdirective
    rw [hsame.withoutLabels] at hlist
    rw [hsame.child label (ownLabel_mem hlabel)] at hadded hkept
    refine .opened hdirective hlabel hslot hplain hunmarked hnode hl hlist ?_ hkept
    cases slotted with
    | false => exact hadded
    | true =>
      obtain ⟨fragment, hextra, hfresh, hfragment, hfields⟩ := hadded
      exact ⟨fragment, hextra, fun hold => hfresh (hgrown _ hold), hfragment, hfields⟩

/-! ## Documents one after another -/

/-- What has become of some nodes, one by one; nothing else that was there has changed. -/
structure Fates (slots : Bool → Prop) (s : Store) (xs : List NodeId) (s' : Store) : Prop where
  grows : s.Grows s' fun x => x ∈ xs ∧ (s.node x).isDirective = true
  fate : ∀ x ∈ xs, Fate slots s s' x

theorem fates_same (s : Store) (xs : List NodeId) : Fates slots s xs s where
  grows := Grows.refl s _
  fate _ _ := .same rfl

/-- A visit that fails leaves all nodes as they were. -/
theorem fates_scraps (h : s.Scraps slots n s') (hxs : ∀ x ∈ xs, s.HasNode x) :
    Fates slots s xs s' where
  grows := (grows_scraps h).mono fun _ _ => False.elim
  fate x hx := .same ((grows_scraps h).node x (hxs x hx) id)

theorem fates_settle (hn : s.HasNode n) (hdirective : (s.node n).isDirective = true)
    (hchildren : ∀ k ∈ s.children n, s.HasNode k ∧ k ≠ n) (h : s.Suits slots n outcome) :
    Fates slots s [n] (s.settle n outcome) where
  grows := (grows_settle hn h).mono fun k _ hk => ⟨List.mem_singleton.2 hk, hk ▸ hdirective⟩
  fate k hk := by
    rw [List.mem_singleton.1 hk]
    exact fate_settle hn hdirective hchildren h

/-- Some skeletons that a store spells, none of whose nodes is met twice. -/
structure Spread (s : Store) (ks : List Skeleton) : Prop where
  spells : ∀ k ∈ ks, s.Spells k
  nodup : (nodesOf ks).Nodup

namespace Spread

variable {x : NodeId}

theorem hasNode (h : s.Spread ks) (hx : x ∈ nodesOf ks) : s.HasNode x := by
  obtain ⟨k, hk, hx⟩ := mem_nodesOf.1 hx
  exact (h.spells k hk).hasNode hx

theorem hasList (h : s.Spread ks) (hx : x ∈ nodesOf ks) : s.HasList (s.node x).children := by
  obtain ⟨k, hk, hx⟩ := mem_nodesOf.1 hx
  exact (h.spells k hk).hasList hx

theorem child (h : s.Spread ks) (hx : x ∈ nodesOf ks) {m : NodeId} (hm : m ∈ s.children x) :
    m ∈ nodesOf ks := by
  obtain ⟨k, hk, hx⟩ := mem_nodesOf.1 hx
  exact mem_nodesOf.2 ⟨k, hk, (h.spells k hk).children_subset hx hm⟩

/-- Nothing that matters for the nodes has changed, if they have not. -/
theorem sameFamily {changed : NodeId → Prop} (h : s.Spread ks) (hg : s.Grows s₁ changed)
    (hkept : ∀ m ∈ nodesOf ks, ¬ changed m) (hx : x ∈ nodesOf ks) : SameFamily s s₁ x :=
  .of_grows hg (h.hasNode hx) (h.hasList hx) (hkept x hx) fun m hm =>
    ⟨h.hasNode (h.child hx hm), hkept m (h.child hx hm)⟩

theorem of_grows {changed : NodeId → Prop} (h : s.Spread ks) (hg : s.Grows s₁ changed)
    (hkept : ∀ m ∈ nodesOf ks, ¬ changed m) : s₁.Spread ks where
  spells k hk := (h.spells k hk).of_grows hg fun m hm => hkept m (mem_nodesOf.2 ⟨k, hk, hm⟩)
  nodup := h.nodup

theorem sublist (h : s.Spread ks) (hsub : us.Sublist ks) : s.Spread us where
  spells k hk := h.spells k (hsub.subset hk)
  nodup := h.nodup.sublist (nodesOf_sublist hsub)

theorem apart (h : s.Spread (ks ++ us)) : ∀ m ∈ nodesOf ks, m ∉ nodesOf us := by
  have hnodup := h.nodup
  rw [nodesOf_append] at hnodup
  exact fun m hm hm' => (List.nodup_append.1 hnodup).2.2 m hm m hm' rfl

/-! One document, and what is below its root. -/

section Root

variable (h : s.Spread [.node n ks])
include h

theorem root : s.HasNode n ∧ s.HasList (s.node n).children ∧ s.children n = ks.map Skeleton.root := by
  obtain ⟨hn, hl, hroots, -⟩ := spells_node.1 (h.spells _ List.mem_cons_self)
  exact ⟨hn, hl, hroots⟩

theorem root_notMem : n ∉ nodesOf ks := by
  have hnodup := h.nodup
  rw [nodesOf_singleton, nodes_node] at hnodup
  exact (List.nodup_cons.1 hnodup).1

theorem below : s.Spread ks where
  spells := (spells_node.1 (h.spells _ List.mem_cons_self)).2.2.2
  nodup := by
    have hnodup := h.nodup
    rw [nodesOf_singleton, nodes_node] at hnodup
    exact (List.nodup_cons.1 hnodup).2

/-- The children of a node are in the store, and are not the node itself. -/
theorem children : ∀ k ∈ s.children n, s.HasNode k ∧ k ≠ n := by
  intro k hk
  rw [h.root.2.2] at hk
  obtain ⟨u, hu, rfl⟩ := List.mem_map.1 hk
  have hin : u.root ∈ nodesOf ks := mem_nodesOf.2 ⟨u, hu, u.root_mem_nodes⟩
  exact ⟨h.below.hasNode hin, fun heq => h.root_notMem (heq ▸ hin)⟩

end Root

end Spread

theorem Fates.append (h₁ : Fates slots s (nodesOf ks) s₁) (h₂ : Fates slots s₁ (nodesOf us) s₂)
    (hspread : s.Spread (ks ++ us)) : Fates slots s (nodesOf (ks ++ us)) s₂ := by
  have hks : s.Spread ks := hspread.sublist (List.sublist_append_left ks us)
  have hus : s.Spread us := hspread.sublist (List.sublist_append_right ks us)
  have hapart := hspread.apart
  rw [nodesOf_append]
  have hlater : ∀ x ∈ nodesOf us, SameFamily s s₁ x := fun x hx =>
    hus.sameFamily h₁.grows (fun m hm hc => hapart m hc.1 hm) hx
  constructor
  case grows =>
    have hfirst : s.Grows s₁ fun x => x ∈ nodesOf ks ++ nodesOf us ∧ (s.node x).isDirective = true :=
      h₁.grows.mono fun x _ hx => ⟨List.mem_append_left _ hx.1, hx.2⟩
    refine hfirst.trans h₂.grows fun x _ hfree ⟨hx, hdirective⟩ => hfree ⟨?_, ?_⟩
    · exact List.mem_append_right _ hx
    · rwa [(hlater x hx).node] at hdirective
  case fate =>
    intro x hx
    rcases List.mem_append.1 hx with hx | hx
    · refine (h₁.fate x hx).of_grows h₂.grows h₁.grows.hasNode (hks.hasNode hx)
        (fun hc => hapart x hx hc.1) (fun _ label hlabel => ?_) fun k hnew hplain hc => ?_
      · have hchild := hks.child hx (ownLabel_mem hlabel)
        exact ⟨hks.hasNode hchild, fun hc => hapart label hchild hc.1⟩
      · exact absurd hc.2 (by simp [hplain])
    · exact (h₂.fate x hx).of_sameFamily (hlater x hx) h₁.grows.hasNode

/-! ## A node and what is below it -/

/-- The documents that the walk goes on with below a node, once this has become of it. -/
structure GoesOn (skip : Bool) (s : Store) (n : NodeId) (ks : List Skeleton) (outcome : Outcome)
    (s₁ : Store) (us : List Skeleton) : Prop where
  hasList : s₁.HasList (s₁.node n).children
  children : s₁.children n = us.map Skeleton.root
  spread : s₁.Spread us
  length : (nodesOf us).length ≤ (nodesOf ks).length
  old : ∀ x ∈ nodesOf us, x ∈ nodesOf ks ∨ (¬ s.HasNode x ∧ (s₁.node x).isDirective = false)
  label : (s₁.node n).isDirective = false → ∀ label, s.ownLabel n = some label → label ∉ nodesOf us
  talk : talkOf skip s₁ us = talkOf skip s (s.remaining outcome ks)

theorem goesOn_same (skip : Bool) (h : s.Spread [.node n ks]) : GoesOn skip s n ks .leftAlone s ks where
  hasList := h.root.2.1
  children := h.root.2.2
  spread := h.below
  length := Nat.le_refl _
  old _ hx := Or.inl hx
  label hplain label hlabel := absurd (isDirective_of_ownLabel hlabel) (by simp [hplain])
  talk := rfl

section Settle

variable (h : s.Spread [.node n ks]) (hg : s.Grows s₁ (· = n))
include h hg

/-- What is below a node that is overwritten has not changed. -/
theorem sameFamily_below : ∀ x ∈ nodesOf ks, SameFamily s s₁ x := fun _ hx =>
  h.below.sameFamily hg (fun _ hm heq => h.root_notMem (heq ▸ hm)) hx

theorem spread_below : s₁.Spread ks :=
  h.below.of_grows hg fun _ hm heq => h.root_notMem (heq ▸ hm)

/-- About what is left of the children the same is asked as before. -/
theorem talkOf_below (skip : Bool) (hus : ∀ u ∈ us, u ∈ ks ∨ ∃ k ∈ ks, u ∈ k.children) :
    talkOf skip s₁ us = talkOf skip s us := by
  refine talkOf_congr fun u hu => ?_
  have hsame := sameFamily_below h hg
  rcases hus u hu with hu | ⟨k, hk, hu⟩
  · exact talk_congr skip (h.below.spells u hu) fun x hx => hsame x (mem_nodesOf.2 ⟨u, hu, hx⟩)
  · obtain ⟨m, ms⟩ := k
    obtain ⟨-, -, -, hcontent⟩ := spells_node.1 (h.below.spells _ hk)
    exact talk_congr skip (hcontent u hu) fun x hx => hsame x (mem_nodesOf.2 ⟨_, hk,
      List.mem_cons_of_mem _ (mem_nodesOf.2 ⟨u, hu, hx⟩)⟩)

end Settle

theorem goesOn_lowered (skip : Bool) (h : s.Spread [.node n ks]) (hg : s.Grows s₁ (· = n))
    (hlist : (s₁.node n).children = (s.node n).children) (hlabel : s.ownLabel n = none)
    (g : Fields) : GoesOn skip s n ks (.lowered g) s₁ ks where
  hasList := by
    rw [hlist]
    exact hg.hasList _ h.root.2.1
  children := by
    rw [Store.children, hlist, hg.list _ h.root.2.1]
    exact h.root.2.2
  spread := spread_below h hg
  length := Nat.le_refl _
  old _ hx := Or.inl hx
  label _ label hsome := by
    rw [hlabel] at hsome
    cases hsome
  talk := talkOf_below h hg skip fun u hu => Or.inl hu

/-- The children that are no labels. -/
def bodyOf (s : Store) (ks : List Skeleton) : List Skeleton :=
  ks.filter fun k => !s.isLabel k.root

theorem mem_bodyOf {k : Skeleton} (h : k ∈ s.bodyOf ks) : k ∈ ks :=
  (List.mem_filter.1 h).1

/-- The first label among the children of a container, with its content. The children that are no labels
and the first label are met one after another among the children. -/
structure FirstLabel (s : Store) (ks : List Skeleton) (label : NodeId) (content : List Skeleton) :
    Prop where
  mem : .node label content ∈ ks
  contentOf : s.contentOf ks = content
  subperm : (nodesOf (s.bodyOf ks) ++ label :: nodesOf content).Subperm (nodesOf ks)

theorem firstLabel_of_find? {content : List Skeleton}
    (hfind : ks.find? (fun k => s.isLabel k.root) = some (.node label content)) :
    s.FirstLabel ks label content := by
  refine ⟨List.mem_of_find?_eq_some hfind, by rw [Store.contentOf, hfind]; rfl, ?_⟩
  obtain ⟨hlabel, before, behind, rfl, -⟩ := List.find?_eq_some_iff_append.1 hfind
  have hbody : (s.bodyOf (before ++ .node label content :: behind)).Sublist (before ++ behind) := by
    rw [bodyOf, List.filter_append, List.filter_cons_of_neg (by simpa using hlabel)]
    exact List.filter_sublist.append List.filter_sublist
  have hfirst : (nodesOf (before ++ behind) ++ label :: nodesOf content).Perm
      (nodesOf (before ++ .node label content :: behind)) := by
    rw [nodesOf_append, nodesOf_append, nodesOf_cons, nodes_node, List.append_assoc]
    exact List.perm_append_comm.append_left _
  exact ((nodesOf_sublist hbody).append (List.Sublist.refl _)).subperm.trans hfirst.subperm

theorem find?_of_ownLabel (h : s.Spells (.node n ks)) (hlabel : s.ownLabel n = some label) :
    ∃ content, ks.find? (fun k => s.isLabel k.root) = some (.node label content) := by
  have hfirst := findLabel_of_ownLabel hlabel
  rw [(spells_node.1 h).2.2.1, findLabel, List.find?_map] at hfirst
  obtain ⟨⟨m, content⟩, hfind, rfl⟩ := Option.map_eq_some_iff.1 hfirst
  exact ⟨content, hfind⟩

theorem withoutLabels_children (h : s.Spells (.node n ks)) :
    s.withoutLabels (s.children n) = (s.bodyOf ks).map Skeleton.root := by
  rw [(spells_node.1 h).2.2.1, withoutLabels, List.filter_map]
  rfl

theorem spells_fragment {fragment : NodeId} {l : ListId} (hfragment : s.HasNode fragment)
    (hfields : s.node fragment = slotFields.over l) (hl : s.HasList l)
    (hlist : s.list l = us.map Skeleton.root) (hus : ∀ u ∈ us, s.Spells u) :
    s.Spells (.node fragment us) := by
  refine .node hfragment ?_ ?_ hus
  · rw [hfields]
    exact hl
  · rw [Store.children, hfields, Fields.children_over]
    exact hlist

namespace FirstLabel

variable {content : List Skeleton} {fragment : NodeId} (h : s.FirstLabel ks label content)
include h

theorem body_subset {x : NodeId} (hx : x ∈ nodesOf (s.bodyOf ks)) : x ∈ nodesOf ks :=
  h.subperm.subset (List.mem_append_left _ hx)

theorem content_subset {x : NodeId} (hx : x ∈ nodesOf content) : x ∈ nodesOf ks :=
  h.subperm.subset (List.mem_append_right _ (List.mem_cons_of_mem _ hx))

theorem label_mem : label ∈ nodesOf ks :=
  h.subperm.subset (List.mem_append_right _ List.mem_cons_self)

theorem length_le :
    (nodesOf (s.bodyOf ks)).length + (nodesOf content).length + 1 ≤ (nodesOf ks).length := by
  have hlength := h.subperm.length_le
  rwa [List.length_append, List.length_cons] at hlength

/-- The body and the content of the label are apart, and neither has the label. -/
theorem nodup (hnodup : (nodesOf ks).Nodup) :
    label ∉ nodesOf (s.bodyOf ks) ++ nodesOf content ∧
      (nodesOf (s.bodyOf ks) ++ nodesOf content).Nodup := by
  obtain ⟨xs, hperm, hsub⟩ := h.subperm
  exact List.nodup_cons.1 (List.nodup_middle.1 (hperm.nodup_iff.1 (hnodup.sublist hsub)))

section Opened

variable (hspread : s.Spread [.node n ks]) (hg : s.Grows s₁ (· = n))
  (hl : s₁.HasList (s₁.node n).children) (hlabel : s.ownLabel n = some label)
include hspread hg

/-- A fragment over the content of the label. -/
theorem spells_content (hfragment : s₁.HasNode fragment)
    (hfields : s₁.node fragment = slotFields.over (s.node label).children) :
    s₁.Spells (.node fragment content) := by
  obtain ⟨-, -, hroots, hcontent⟩ := spells_node.1 ((spread_below hspread hg).spells _ h.mem)
  rw [Store.children, (sameFamily_below hspread hg label h.label_mem).node] at hroots
  exact spells_fragment hfragment hfields (hg.hasList _ (hspread.below.hasList h.label_mem)) hroots
    hcontent

include hl hlabel

/-- Of a container whose label is dropped the body is left. -/
theorem goesOn_dropped (skip : Bool) (hchildren : s₁.children n = (s.bodyOf ks).map Skeleton.root) :
    GoesOn skip s n ks (.opened g label false) s₁ (s.bodyOf ks) where
  hasList := hl
  children := hchildren
  spread := (spread_below hspread hg).sublist List.filter_sublist
  length := by
    have hlength := h.length_le
    omega
  old _ hx := Or.inl (h.body_subset hx)
  label _ other hother hx := by
    cases hlabel.symm.trans hother
    exact (h.nodup hspread.below.nodup).1 (List.mem_append_left _ hx)
  talk := by
    rw [remaining, talkOf_below hspread hg skip fun u hu => Or.inl (mem_bodyOf hu), if_neg (by simp),
      List.append_nil, bodyOf]

/-- Of a container whose label is appended the body is left, and behind it the fragment. -/
theorem goesOn_slotted (skip : Bool)
    (hchildren : s₁.children n = (s.bodyOf ks).map Skeleton.root ++ [fragment])
    (hnew : ¬ s.HasNode fragment) (hfragment : s₁.HasNode fragment)
    (hfields : s₁.node fragment = slotFields.over (s.node label).children) :
    GoesOn skip s n ks (.opened g label true) s₁ (s.bodyOf ks ++ [.node fragment content]) := by
  have hnodes : nodesOf (s.bodyOf ks ++ [.node fragment content]) =
      nodesOf (s.bodyOf ks) ++ fragment :: nodesOf content := by
    rw [nodesOf_append, nodesOf_singleton, nodes_node]
  have hfresh : ∀ x ∈ nodesOf ks, x ≠ fragment := by
    rintro x hx rfl
    exact hnew (hspread.below.hasNode hx)
  obtain ⟨hapart, hnodup⟩ := h.nodup hspread.below.nodup
  have hplain : (s₁.node fragment).isDirective = false := by
    rw [hfields]
    rfl
  constructor
  case hasList => exact hl
  case children => rw [hchildren, List.map_append, List.map_singleton, root_node]
  case spread =>
    refine ⟨fun u hu => ?_, ?_⟩
    · rcases List.mem_append.1 hu with hu | hu
      · exact (spread_below hspread hg).spells u (mem_bodyOf hu)
      · rw [List.mem_singleton.1 hu]
        exact h.spells_content hspread hg hfragment hfields
    · rw [hnodes, List.nodup_middle]
      refine List.nodup_cons.2 ⟨fun hx => ?_, hnodup⟩
      exact hfresh fragment ((List.mem_append.1 hx).elim h.body_subset h.content_subset) rfl
  case length =>
    have hlength := h.length_le
    rw [hnodes, List.length_append, List.length_cons]
    omega
  case old =>
    intro x hx
    rw [hnodes] at hx
    rcases List.mem_append.1 hx with hx | hx
    · exact Or.inl (h.body_subset hx)
    · rcases List.mem_cons.1 hx with rfl | hx
      · exact Or.inr ⟨hnew, hplain⟩
      · exact Or.inl (h.content_subset hx)
  case label =>
    intro _ other hother hx
    cases hlabel.symm.trans hother
    rw [hnodes] at hx
    have hx' := (List.mem_cons.1 (List.perm_middle.subset hx)).resolve_left
      (hfresh label h.label_mem)
    exact hapart hx'
  case talk =>
    have hall : ∀ u ∈ s.bodyOf ks ++ content, u ∈ ks ∨ ∃ k ∈ ks, u ∈ k.children := by
      intro u hu
      rcases List.mem_append.1 hu with hu | hu
      · exact Or.inl (mem_bodyOf hu)
      · exact Or.inr ⟨_, h.mem, hu⟩
    have hslot : talkOf skip s₁ [.node fragment content] = talkOf skip s₁ content := by
      rw [talkOf_singleton, talk_other hplain]
    rw [remaining, h.contentOf, if_pos rfl, talkOf_append, hslot, ← talkOf_append,
      talkOf_below hspread hg skip hall, bodyOf]

end Opened

end FirstLabel

/-- Of a container that is opened the body is left, and behind it a fragment with the content of the
label, if the label is appended. -/
theorem goesOn_opened (skip : Bool) (h : s.Spread [.node n ks]) (hg : s.Grows s₁ (· = n))
    (hl : s₁.HasList (s₁.node n).children) {extra : List NodeId}
    (hlist : s₁.children n = s.withoutLabels (s.children n) ++ extra)
    (hadded : Added slotted s s₁ (s.node label).children extra) (hlabel : s.ownLabel n = some label)
    (g : Fields) : ∃ us, GoesOn skip s n ks (.opened g label slotted) s₁ us := by
  have hspells := h.spells _ List.mem_cons_self
  obtain ⟨content, hfind⟩ := find?_of_ownLabel hspells hlabel
  have hfirst := firstLabel_of_find? hfind
  rw [withoutLabels_children hspells] at hlist
  cases slotted with
  | false =>
    obtain rfl : extra = [] := hadded
    rw [List.append_nil] at hlist
    exact ⟨_, hfirst.goesOn_dropped h hg hl hlabel skip hlist⟩
  | true =>
    obtain ⟨fragment, rfl, hnew, hfragment, hfields⟩ := hadded
    exact ⟨_, hfirst.goesOn_slotted h hg hl hlabel skip hlist hnew hfragment hfields⟩

/-- The walk goes on below a directive with what its outcome leaves of its children. -/
theorem goesOn_settle (skip : Bool) (h : s.Spread [.node n ks]) (hsuits : s.Suits slots n outcome) :
    ∃ us, GoesOn skip s n ks outcome (s.settle n outcome) us := by
  have hn := h.root.1
  have hgrows := grows_settle hn hsuits
  cases hsuits with
  | leftAlone => exact ⟨ks, goesOn_same skip h⟩
  | @lowered kind tag records hkind hlabel =>
    refine ⟨ks, goesOn_lowered skip h hgrows ?_ (ownLabel_eq_labelOf hkind ▸ hlabel) _⟩
    rw [(settle_lowered hn).2]
    rfl
  | @opened label slotted tag records hkind hlabel hslot =>
    obtain ⟨-, l, extra, hnode, hl, hlist, hadded⟩ :=
      settle_opened (elementFields NodeType.flowElement tag records) label slotted hn
    refine goesOn_opened skip h hgrows ?_ ?_ hadded (ownLabel_eq_labelOf hkind ▸ hlabel) _
    · rw [hnode]
      exact hl
    · rw [Store.children, hnode]
      exact hlist

/-- What is below a node has not changed with the node. -/
theorem Fates.sameFamily_below (h : Fates slots s [n] s₁) (hspread : s.Spread [.node n ks]) :
    ∀ x ∈ nodesOf ks, SameFamily s s₁ x :=
  Store.sameFamily_below hspread (h.grows.mono fun _ _ hk => List.mem_singleton.1 hk.1)

/-- A node, and then what is below it. -/
theorem Fates.below {skip : Bool} (h₁ : Fates slots s [n] s₁)
    (hgoes : GoesOn skip s n ks outcome s₁ us) (h₂ : Fates slots s₁ (nodesOf us) s₂)
    (hspread : s.Spread [.node n ks]) : Fates slots s (n :: nodesOf ks) s₂ := by
  have hbelow := hspread.below
  have hfresh := hspread.root_notMem
  have hn := hspread.root.1
  have hsame := h₁.sameFamily_below hspread
  have hout : n ∉ nodesOf us := by
    intro hin
    rcases hgoes.old n hin with hold | ⟨hnew, -⟩
    · exact hfresh hold
    · exact hnew hn
  constructor
  case grows =>
    have hfirst : s.Grows s₁ fun x => x ∈ n :: nodesOf ks ∧ (s.node x).isDirective = true :=
      h₁.grows.mono fun x _ hx => ⟨List.mem_singleton.1 hx.1 ▸ List.mem_cons_self, hx.2⟩
    refine hfirst.trans h₂.grows fun x hx hfree ⟨hin, hdirective⟩ => ?_
    rcases hgoes.old x hin with hold | ⟨hnew, -⟩
    · rw [(hsame x hold).node] at hdirective
      exact hfree ⟨List.mem_cons_of_mem _ hold, hdirective⟩
    · exact hnew hx
  case fate =>
    intro x hx
    rcases List.mem_cons.1 hx with rfl | hx
    · refine (h₁.fate x (by simp)).of_grows h₂.grows h₁.grows.hasNode hn (fun hc => hout hc.1)
        (fun hplain label hlabel => ?_) fun k _ hplain hc => absurd hc.2 (by simp [hplain])
      refine ⟨hspread.hasNode (hspread.child (by simp) (ownLabel_mem hlabel)), fun hc => ?_⟩
      exact hgoes.label hplain label hlabel hc.1
    · by_cases hin : x ∈ nodesOf us
      · exact (h₂.fate x hin).of_sameFamily (hsame x hx) h₁.grows.hasNode
      · refine .same ?_
        rw [h₂.grows.node x (h₁.grows.hasNode x (hbelow.hasNode hx)) fun hc => hin hc.1,
          (hsame x hx).node]

end DirectiveLowering.Store
