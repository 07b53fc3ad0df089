import DirectiveLowering.Proofs.Decoration
import DirectiveLowering.Proofs.QuietVisit

/-!
# Who holds which list

A visit with quiet hooks adds nodes and lists to a store and overwrites at most the directive that it was
called on. The statements below say which lists the new and the overwritten nodes hold, and what the new
lists hold; that is enough to tell, for any documents, which lists nodes share afterwards.

Results:
* `treats_scraps`, `treats_settle`: what a visit leaves, whether it fails or not.
* `Owned.of_treats`: a list with one owner keeps it while other directives are visited.
* `rewritten_settle`: what a directive is after it has been lowered.
-/

namespace DirectiveLowering

namespace Store

variable {s s' s₁ : Store} {n element label : NodeId} {g : Fields}

/-- A store after a visit of a node: at most this node is overwritten; what is new is no directive; a new
or overwritten node holds a new list, the list of the node, or the list of a marked child of it; and what
new lists hold are children of the node or new nodes. -/
structure Treats (s : Store) (n : NodeId) (s' : Store) : Prop where
  grows : s.Grows s' (· = n)
  closed : s'.Closed
  fresh : ∀ k, s'.HasNode k → ¬ s.HasNode k → (s'.node k).isDirective = false
  held : ∀ k, s'.HasNode k → ¬ s.HasNode k ∨ k = n → ¬ s.HasList (s'.node k).children ∨
    (s'.node k).children = (s.node n).children ∨
    ∃ r ∈ s.children n, s.isLabel r = true ∧ (s'.node k).children = (s.node r).children
  members : ∀ l, s'.HasList l → ¬ s.HasList l → ∀ k ∈ s'.list l, k ∈ s.children n ∨ ¬ s.HasNode k

theorem Treats.refl (h : s.Closed) (n : NodeId) : s.Treats n s where
  grows := Grows.refl s _
  closed := h
  fresh _ hk hnew := absurd hk hnew
  held _ hk hor := by
    rcases hor with hnew | rfl
    · exact absurd hk hnew
    · exact Or.inr (Or.inl rfl)
  members _ hl hnew := absurd hl hnew

/-- The node itself is overwritten at last. -/
theorem Treats.setNode {x : Node} (h : s.Treats n s') (hn : s.HasNode n)
    (hx : s'.HasList x.children)
    (hheld : ¬ s.HasList x.children ∨ x.children = (s.node n).children) :
    s.Treats n (s'.setNode n x) where
  grows := h.grows.trans (grows_setNode s' n x) fun _ _ hne => hne
  closed := closed_setNode h.closed hx
  fresh k hk hnew := by
    have hne : k ≠ n := fun heq => hnew (heq ▸ hn)
    rw [node_setNode, if_neg fun hc => hne hc.1]
    exact h.fresh k ((hasNode_setNode s' n k x).1 hk) hnew
  held k hk hor := by
    rw [node_setNode]
    by_cases hc : k = n ∧ s'.HasNode n
    · rw [if_pos hc]
      exact hheld.imp_right Or.inl
    · rw [if_neg hc]
      exact h.held k ((hasNode_setNode s' n k x).1 hk) hor
  members l hl hnew k hk := h.members l hl hnew k hk

theorem closed_addList {items : List NodeId} (h : s.Closed) (hitems : ∀ k ∈ items, s.HasNode k) :
    (s.addList items).2.Closed where
  children n hn := (hasList_addList s items _).2 (Or.inl (h.children n hn))
  members l hl k hk := by
    rw [list_addList] at hk
    by_cases hlast : l = (s.addList items).1
    · rw [if_pos hlast] at hk
      exact hitems k hk
    · rw [if_neg hlast] at hk
      exact h.members l (((hasList_addList s items l).1 hl).resolve_right hlast) k hk

theorem treats_addList (h : s.Closed) (hn : s.HasNode n) :
    s.Treats n (s.addList (s.withoutLabels (s.children n))).2 where
  grows := grows_addList s _ _
  closed := closed_addList h fun k hk => h.child hn (List.mem_filter.1 hk).1
  fresh _ hk hnew := absurd hk hnew
  held _ hk hor := by
    rcases hor with hnew | rfl
    · exact absurd hk hnew
    · exact Or.inr (Or.inl rfl)
  members l hl hnew k hk := by
    have hlast := ((hasList_addList s _ l).1 hl).resolve_left hnew
    rw [list_addList, if_pos hlast] at hk
    exact Or.inl (List.mem_filter.1 hk).1

/-- A new node over the list of the node. -/
theorem treats_addNode (h : s.Closed) (hn : s.HasNode n) (hg : g.isDirective = false) :
    s.Treats n (s.addNode (g.over (s.node n).children)).2 where
  grows := grows_addNode s _ _
  closed := closed_addNode h (h.children n hn)
  fresh k hk hnew := by
    have hlast := ((hasNode_addNode s _ k).1 hk).resolve_left hnew
    rw [node_addNode, if_pos hlast]
    exact hg
  held k hk hor := by
    rw [node_addNode]
    by_cases hlast : k = (s.addNode (g.over (s.node n).children)).1
    · rw [if_pos hlast]
      exact Or.inr (Or.inl rfl)
    · rw [if_neg hlast]
      have hold := ((hasNode_addNode s _ k).1 hk).resolve_right hlast
      rcases hor with hnew | rfl
      · exact absurd hold hnew
      · exact Or.inr (Or.inl rfl)
  members _ hl hnew := absurd hl hnew

/-- A new node over a new list of children of the node. -/
theorem Gains.treats (h : s.Gains g (s.withoutLabels (s.children n)) element s₁) (hclosed : s.Closed)
    (hn : s.HasNode n) (hg : g.isDirective = false) : s.Treats n s₁ where
  grows := h.grows.mono fun _ _ => False.elim
  closed := h.closed hclosed fun k hk => hclosed.child hn (List.mem_filter.1 hk).1
  fresh k hk hnew := by
    rw [(h.only k hk).resolve_left hnew, h.fields]
    exact hg
  held k hk hor := by
    rcases h.only k hk with hold | rfl
    · rcases hor with hnew | rfl
      · exact absurd hold hnew
      · exact Or.inr (Or.inl (by rw [h.grows.node k hold id]))
    · exact Or.inl h.newList
  members l hl hnew k hk := by
    rw [(h.onlyList l hl).resolve_left hnew] at hk
    have hitem : k ∈ s₁.children element := hk
    rw [h.children] at hitem
    exact Or.inl (List.mem_filter.1 hitem).1

/-- The list of a marked child is appended to a new list, or dropped. -/
theorem Treats.appended {slotted : Bool} (h : s.Treats n s₁)
    (hgains : s.Gains g (s.withoutLabels (s.children n)) element s₁) (hclosed : s.Closed)
    (hn : s.HasNode n) (hlabel : s.findLabel (s.children n) = some label) :
    s.Treats n (s₁.label slotted element (s.node label).children) := by
  cases slotted with
  | false => exact h
  | true =>
    have hchild : label ∈ s.children n := List.mem_of_find?_eq_some hlabel
    have hmarked : s.isLabel label = true := List.find?_some hlabel
    have hcontent : s.HasList (s.node label).children := hclosed.children _ (hclosed.child hn hchild)
    have helement := hgains.hasNode
    have hfresh : ∀ k, s₁.HasNode k → k ≠ s₁.nextNode := by
      rintro k hk rfl
      exact not_hasNode_nextNode s₁ hk
    show s.Treats n (s₁.appendSlot element (s.node label).children)
    constructor
    case grows =>
      exact (grows_appendSlot hgains.grows helement hgains.newList _).mono fun _ _ => False.elim
    case closed => exact closed_appendSlot h.closed helement (h.grows.hasList _ hcontent)
    case fresh =>
      intro k hk hnew
      rw [node_appendSlot s₁ _ helement]
      rcases (hasNode_appendSlot s₁ _ helement k).1 hk with hk | rfl
      · rw [if_neg (hfresh k hk)]
        exact h.fresh k hk hnew
      · rw [if_pos rfl]
        rfl
    case held =>
      intro k hk hor
      rw [node_appendSlot s₁ _ helement]
      rcases (hasNode_appendSlot s₁ _ helement k).1 hk with hk | rfl
      · rw [if_neg (hfresh k hk)]
        exact h.held k hk hor
      · rw [if_pos rfl]
        exact Or.inr (Or.inr ⟨label, hchild, hmarked, rfl⟩)
    case members =>
      intro l hl hnew k hk
      rw [hasList_appendSlot s₁ _ helement] at hl
      rw [list_appendSlot s₁ _ helement] at hk
      by_cases hlist : l = (s₁.node element).children ∧ s₁.HasList l
      · rw [if_pos hlist] at hk
        rcases List.mem_append.1 hk with hk | hk
        · exact h.members l hl hnew k hk
        · rw [List.mem_singleton.1 hk]
          exact Or.inr fun hold => hfresh _ (h.grows.hasNode _ hold) rfl
      · rw [if_neg hlist] at hk
        exact h.members l hl hnew k hk

theorem hasList_label {slotted : Bool} {content : ListId} (h : s.HasNode element) (l : ListId) :
    (s.label slotted element content).HasList l ↔ s.HasList l := by
  cases slotted with
  | false => exact Iff.rfl
  | true => exact hasList_appendSlot s content h l

/-! ## What a visit leaves -/

variable {slots : Bool → Prop} {outcome : Outcome}

theorem treats_scraps (hclosed : s.Closed) (hn : s.HasNode n) (h : s.Scraps slots n s') :
    s.Treats n s' := by
  cases h with
  | nothing => exact Treats.refl hclosed n
  | list => exact treats_addList hclosed hn
  | element hlabel _ hadd =>
    have hgains := gains_addTree hadd
    exact (hgains.treats hclosed hn rfl).appended hgains hclosed hn hlabel

/-- A visit that fails overwrites nothing. -/
theorem grows_scraps (h : s.Scraps slots n s') : s.Grows s' fun _ => False := by
  cases h with
  | nothing => exact Grows.refl s _
  | list => exact grows_addList s _ _
  | @element label element slotted tag records s₁ hlabel hslot hadd =>
    have hgains := gains_addTree hadd
    cases slotted with
    | false => exact hgains.grows
    | true => exact grows_appendSlot hgains.grows hgains.hasNode hgains.newList _

theorem settle_lowered (hn : s.HasNode n) :
    s.Grows (s.settle n (.lowered g)) (· = n) ∧
      (s.settle n (.lowered g)).node n = (s.node n).overwrite (g.over (s.node n).children) := by
  have hgrows := grows_addNode s (g.over (s.node n).children) (· = n)
  refine ⟨hgrows.trans (grows_setNode _ n _) fun _ _ hne => hne, ?_⟩
  rw [settle, node_setNode, if_pos ⟨rfl, hgrows.hasNode n hn⟩]

theorem treats_settle (hclosed : s.Closed) (hn : s.HasNode n) (h : s.Suits slots n outcome) :
    s.Treats n (s.settle n outcome) := by
  cases h with
  | leftAlone => exact Treats.refl hclosed n
  | @lowered kind tag records hkind hlabel =>
    have hnew : s.Treats n (s.addNode ((elementFields kind.elementType tag records).over
        (s.node n).children)).2 := treats_addNode hclosed hn (by cases kind <;> rfl)
    exact hnew.setNode hn (hclosed.children n hn) (Or.inr rfl)
  | @opened label slotted tag records hkind hlabel hslot =>
    obtain ⟨element, s₁, hadd, hgains⟩ := exists_gains s
      (elementFields NodeType.flowElement tag records) (s.withoutLabels (s.children n))
    have hnew : s.Treats n (s₁.label slotted element (s.node label).children) :=
      (hgains.treats hclosed hn rfl).appended hgains hclosed hn hlabel
    rw [settle, hadd]
    refine hnew.setNode hn ?_ (Or.inl hgains.newList)
    rw [hasList_label hgains.hasNode]
    exact hgains.hasList

/-! ## Lists with one owner -/

/-- A node that is left over: it is new, no directive, and in no list. -/
structure Loose (s₀ s : Store) (k : NodeId) : Prop where
  fresh : ¬ s₀.HasNode k
  plain : (s.node k).isDirective = false
  out : ∀ l, s.HasList l → k ∉ s.list l

/-- No other node holds the list of the node, but for nodes that are left over. -/
def Owned (s₀ s : Store) (n : NodeId) : Prop :=
  ∀ k, s.HasNode k → (s.node k).children = (s.node n).children → k = n ∨ Loose s₀ s k

variable {s₀ : Store} {d : NodeId}

theorem Loose.of_treats (h : Loose s₀ s n) (ht : s.Treats d s') (hn : s.HasNode n)
    (hd : s.HasNode d) (hdirective : (s.node d).isDirective = true) (hclosed : s.Closed) :
    Loose s₀ s' n where
  fresh := h.fresh
  plain := by
    have hne : n ≠ d := by
      rintro rfl
      exact absurd h.plain (by simp [hdirective])
    rw [ht.grows.node n hn hne]
    exact h.plain
  out l hl hin := by
    by_cases hold : s.HasList l
    · rw [ht.grows.list l hold] at hin
      exact h.out l hold hin
    · rcases ht.members l hl hold n hin with hchild | hnew
      · exact h.out _ (hclosed.children d hd) hchild
      · exact hnew hn

/-- A list with one owner keeps it while another node, a directive, is visited: the directive does not
hold the list, and neither does its label. -/
theorem Owned.of_treats (h : Owned s₀ s n) (ht : s.Treats d s') (hclosed : s.Closed)
    (hn : s.HasNode n) (hplain : (s.node n).isDirective = false) (hlabel : s.isLabel n = false)
    (hd : s.HasNode d) (hdirective : (s.node d).isDirective = true) : Owned s₀ s' n := by
  have hne : n ≠ d := by
    rintro rfl
    exact absurd hplain (by simp [hdirective])
  have hnode : s'.node n = s.node n := ht.grows.node n hn hne
  intro k hk heq
  rw [hnode] at heq
  by_cases hkept : s.HasNode k ∧ k ≠ d
  · rw [ht.grows.node k hkept.1 hkept.2] at heq
    exact (h k hkept.1 heq).imp_right fun hloose =>
      hloose.of_treats ht hkept.1 hd hdirective hclosed
  · exfalso
    have hor : ¬ s.HasNode k ∨ k = d := by
      by_cases hold : s.HasNode k
      · exact Or.inr (Classical.not_not.1 fun hkd => hkept ⟨hold, hkd⟩)
      · exact Or.inl hold
    rcases ht.held k hk hor with hnew | hown | ⟨r, hr, hmarked, hcontent⟩
    · rw [heq] at hnew
      exact hnew (hclosed.children n hn)
    · rcases h d hd (hown.symm.trans heq) with rfl | hloose
      · exact hne rfl
      · exact absurd hloose.plain (by simp [hdirective])
    · rcases h r (hclosed.child hd hr) (hcontent.symm.trans heq) with rfl | hloose
      · exact absurd hlabel (by simp [hmarked])
      · exact hloose.out _ (hclosed.children d hd) hr

/-! ## Lowered directives -/

/-- The label of a node: its first marked child, if it is a container directive. -/
def ownLabel (s : Store) (n : NodeId) : Option NodeId :=
  if (s.node n).type = NodeType.containerDirective then s.findLabel (s.children n) else none

theorem findLabel_of_ownLabel (h : s.ownLabel n = some label) :
    s.findLabel (s.children n) = some label := by
  rw [ownLabel] at h
  split at h
  · exact h
  · cases h

theorem ownLabel_mem (h : s.ownLabel n = some label) : label ∈ s.children n :=
  List.mem_of_find?_eq_some (findLabel_of_ownLabel h)

/-- Only container directives have labels. -/
theorem type_of_ownLabel (h : s.ownLabel n = some label) :
    (s.node n).type = NodeType.containerDirective := by
  rw [ownLabel] at h
  split at h
  · assumption
  · cases h

theorem isDirective_of_ownLabel (h : s.ownLabel n = some label) : (s.node n).isDirective = true := by
  rw [Fields.isDirective, type_of_ownLabel h]
  decide

theorem type_of_ofType? {type : String} {kind : DirectiveKind}
    (h : DirectiveKind.ofType? type = some kind) : kind.type = type := by
  simpa using List.find?_some h

theorem ownLabel_eq_labelOf {kind : DirectiveKind}
    (h : DirectiveKind.ofType? (s.node n).type = some kind) : s.ownLabel n = s.labelOf n kind := by
  rw [ownLabel, ← type_of_ofType? h]
  cases kind <;> rfl

/-- What a directive is after it has been lowered: an element with the value and the position of the
directive, over the same list if the directive had no label, and else over a list of its own. -/
structure Rewritten (s₀ s : Store) (n : NodeId) (s' : Store) : Prop where
  plain : (s'.node n).isDirective = false
  unmarked : s'.isLabel n = false
  value : (s'.node n).value = (s.node n).value
  position : (s'.node n).position = (s.node n).position
  sameList : s.ownLabel n = none → (s'.node n).children = (s.node n).children
  newList : s.ownLabel n ≠ none → ¬ s.HasList (s'.node n).children ∧ Owned s₀ s' n

/-- It stays so while other directives are visited. -/
theorem Rewritten.of_treats (h : Rewritten s₀ s n s₁) (ht : s₁.Treats d s') (hclosed : s₁.Closed)
    (hn : s₁.HasNode n) (hd : s₁.HasNode d) (hdirective : (s₁.node d).isDirective = true) :
    Rewritten s₀ s n s' := by
  have hne : n ≠ d := by
    rintro rfl
    exact absurd h.plain (by simp [hdirective])
  have hnode : s'.node n = s₁.node n := ht.grows.node n hn hne
  refine ⟨?_, ?_, ?_, ?_, fun hnone => ?_, fun hlabelled => ?_⟩
  · rw [hnode]
    exact h.plain
  · rw [isLabel, hnode]
    exact h.unmarked
  · rw [hnode, h.value]
  · rw [hnode, h.position]
  · rw [hnode, h.sameList hnone]
  · obtain ⟨hnew, howned⟩ := h.newList hlabelled
    rw [hnode]
    exact ⟨hnew, howned.of_treats ht hclosed hn h.plain h.unmarked hd hdirective⟩

/-- A label hook adds at most the fragment. -/
theorem hasNode_of_label {slotted : Bool} {content : ListId} {k : NodeId} (helement : s.HasNode element)
    (hk : (s.label slotted element content).HasNode k) :
    s.HasNode k ∨ ((s.label slotted element content).node k).children = content := by
  cases slotted with
  | false => exact Or.inl hk
  | true =>
    refine ((hasNode_appendSlot s content helement k).1 hk).imp_right ?_
    rintro rfl
    show ((s.appendSlot element content).node _).children = content
    rw [node_appendSlot s content helement, if_pos rfl, Fields.children_over]

/-- A container that has been opened owns its list: only the element that it was overwritten with holds
it as well, and that one is left over. -/
theorem owned_opened {slotted : Bool} (hclosed : s.Closed) (hn : s.HasNode n)
    (hgrown : ∀ k, s₀.HasNode k → s.HasNode k) (hlabel : s.findLabel (s.children n) = some label)
    (hgains : s.Gains g (s.withoutLabels (s.children n)) element s₁) (hg : g.isDirective = false)
    {x : Node} (hx : x.children = (s₁.node element).children) :
    Owned s₀ ((s₁.label slotted element (s.node label).children).setNode n x) n := by
  have helement := hgains.hasNode
  have hne : element ≠ n := by
    rintro rfl
    exact hgains.newNode hn
  have hkept : (s₁.label slotted element (s.node label).children).node element = s₁.node element :=
    node_label _ _ helement helement
  have hself : ((s₁.label slotted element (s.node label).children).setNode n x).node n = x := by
    rw [node_setNode, if_pos ⟨rfl, hasNode_label _ _ helement (hgains.grows.hasNode n hn)⟩]
  have hcontent : s.HasList (s.node label).children :=
    hclosed.children _ (hclosed.child hn (List.mem_of_find?_eq_some hlabel))
  have hgrows : s.Treats n (s₁.label slotted element (s.node label).children) :=
    (hgains.treats hclosed hn hg).appended hgains hclosed hn hlabel
  have hloose : Loose s₀ ((s₁.label slotted element (s.node label).children).setNode n x) element := by
    constructor
    case fresh => exact fun hold => hgains.newNode (hgrown _ hold)
    case plain =>
      rw [node_setNode, if_neg fun hc => hne hc.1, hkept, hgains.fields]
      exact hg
    case out =>
      intro l hl hin
      rw [list_setNode] at hin
      rcases hgains.onlyList l ((hasList_label helement l).1 hl) with hold | rfl
      · rw [hgrows.grows.list l hold] at hin
        exact hgains.newNode (hclosed.members l hold _ hin)
      · have hchild : element ∈ (s₁.label slotted element (s.node label).children).children element := by
          rw [Store.children, hkept]
          exact hin
        rw [children_label _ _ helement hgains.hasList, hgains.children] at hchild
        rcases List.mem_append.1 hchild with hitem | hslot
        · exact hgains.newNode (hclosed.child hn (List.mem_filter.1 hitem).1)
        · cases slotted with
          | false => cases hslot
          | true => exact not_hasNode_nextNode s₁ (List.mem_singleton.1 hslot ▸ helement)
  intro k hk heq
  by_cases hkn : k = n
  · exact Or.inl hkn
  · refine Or.inr ?_
    rw [hself, hx, node_setNode, if_neg fun hc => hkn hc.1] at heq
    rcases hasNode_of_label helement ((hasNode_setNode _ n k x).1 hk) with hmid | hslot
    · rcases hgains.only k hmid with hold | rfl
      · rw [hgrows.grows.node k hold hkn] at heq
        exact absurd (heq ▸ hclosed.children k hold) hgains.newList
      · exact hloose
    · rw [hslot] at heq
      exact absurd (heq ▸ hcontent) hgains.newList

theorem rewritten_settle (hclosed : s.Closed) (hn : s.HasNode n)
    (hgrown : ∀ k, s₀.HasNode k → s.HasNode k) (h : s.Suits slots n outcome)
    (hlowered : outcome ≠ .leftAlone) : Rewritten s₀ s n (s.settle n outcome) := by
  cases h with
  | leftAlone => exact absurd rfl hlowered
  | @lowered kind tag records hkind hlabel =>
    have hnode := (settle_lowered (g := elementFields kind.elementType tag records) hn).2
    constructor
    case plain =>
      rw [hnode]
      cases kind <;> rfl
    case unmarked =>
      rw [isLabel, hnode]
      rfl
    case value => rw [hnode]; rfl
    case position => rw [hnode]; rfl
    case sameList => exact fun _ => by rw [hnode]; rfl
    case newList => exact fun hlabelled => absurd (ownLabel_eq_labelOf hkind ▸ hlabel) hlabelled
  | @opened label slotted tag records hkind hlabel hslot =>
    obtain ⟨element, s₁, hadd, hgains⟩ := exists_gains s
      (elementFields NodeType.flowElement tag records) (s.withoutLabels (s.children n))
    have hmid : (s₁.label slotted element (s.node label).children).HasNode n :=
      hasNode_label _ _ hgains.hasNode (hgains.grows.hasNode n hn)
    rw [settle, hadd]
    have hnode : ((s₁.label slotted element (s.node label).children).setNode n
        ((s.node n).overwrite (s₁.node element))).node n =
        (s.node n).overwrite (s₁.node element) := by
      rw [node_setNode, if_pos ⟨rfl, hmid⟩]
    constructor
    case plain =>
      rw [hnode, hgains.fields]
      rfl
    case unmarked =>
      rw [isLabel, hnode, hgains.fields]
      rfl
    case value => rw [hnode]; rfl
    case position => rw [hnode]; rfl
    case sameList =>
      intro hnone
      rw [ownLabel_eq_labelOf hkind, labelOf, hlabel] at hnone
      cases hnone
    case newList =>
      intro _
      refine ⟨?_, owned_opened hclosed hn hgrown hlabel hgains rfl rfl⟩
      rw [hnode]
      exact hgains.newList

end Store

end DirectiveLowering
