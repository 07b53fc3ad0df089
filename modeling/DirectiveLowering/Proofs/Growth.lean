import DirectiveLowering.Document.Label

/-!
# Growing stores

Lowering a document adds nodes and lists to its store, overwrites some nodes, and never touches a list
that was there before. A store that grows in this way keeps its old part, but for the overwritten nodes.

Results:
* `Grows.refl`, `Grows.trans`: growth is a preorder.
* `grows_addNode`, `grows_addList`, `grows_setNode`: growth by the operations of a store.
* `gains_addTree`: a new node over a new list.
* `node_appendSlot`, `list_appendSlot`: what appending a label as a fragment does.
-/

namespace DirectiveLowering

/-- A node with these fields and a list of children. -/
def Fields.over (f : Fields) (children : ListId) : Node :=
  { f with children := children }

@[simp] theorem Fields.toFields_over (f : Fields) (l : ListId) : (f.over l).toFields = f := rfl

@[simp] theorem Fields.children_over (f : Fields) (l : ListId) : (f.over l).children = l := rfl

namespace Store

/-- The second store holds everything that the first holds: lists are the same, and so are nodes other
than those that may have been changed. -/
structure Grows (s s' : Store) (changed : NodeId → Prop) : Prop where
  hasNode : ∀ n, s.HasNode n → s'.HasNode n
  hasList : ∀ l, s.HasList l → s'.HasList l
  node : ∀ n, s.HasNode n → ¬ changed n → s'.node n = s.node n
  list : ∀ l, s.HasList l → s'.list l = s.list l

variable {s s' s'' : Store} {changed changed' : NodeId → Prop}

/-! ## A preorder -/

theorem Grows.refl (s : Store) (changed : NodeId → Prop) : s.Grows s changed where
  hasNode _ h := h
  hasList _ h := h
  node _ _ _ := rfl
  list _ _ := rfl

/-- The second growth may change no more old nodes than the first. -/
theorem Grows.trans (h₁ : s.Grows s' changed) (h₂ : s'.Grows s'' changed')
    (h : ∀ n, s.HasNode n → ¬ changed n → ¬ changed' n) : s.Grows s'' changed where
  hasNode n hn := h₂.hasNode n (h₁.hasNode n hn)
  hasList l hl := h₂.hasList l (h₁.hasList l hl)
  node n hn hc := by rw [h₂.node n (h₁.hasNode n hn) (h n hn hc), h₁.node n hn hc]
  list l hl := by rw [h₂.list l (h₁.hasList l hl), h₁.list l hl]

theorem Grows.mono (h : s.Grows s' changed) (hc : ∀ n, s.HasNode n → changed n → changed' n) :
    s.Grows s' changed' where
  hasNode := h.hasNode
  hasList := h.hasList
  node n hn hc' := h.node n hn fun hch => hc' (hc n hn hch)
  list := h.list

/-! ## Growth by operations -/

theorem not_hasNode_addNode (s : Store) (x : Node) : ¬ s.HasNode (s.addNode x).1 :=
  Nat.lt_irrefl _

theorem not_hasList_addList (s : Store) (items : List NodeId) : ¬ s.HasList (s.addList items).1 :=
  Nat.lt_irrefl _

theorem node_addNode_of_hasNode {x : Node} {n : NodeId} (h : s.HasNode n) :
    (s.addNode x).2.node n = s.node n := by
  have hfresh : n ≠ (s.addNode x).1 := by
    rintro rfl
    exact not_hasNode_addNode s x h
  rw [node_addNode, if_neg hfresh]

theorem list_addList_of_hasList {items : List NodeId} {l : ListId} (h : s.HasList l) :
    (s.addList items).2.list l = s.list l := by
  have hfresh : l ≠ (s.addList items).1 := by
    rintro rfl
    exact not_hasList_addList s items h
  rw [list_addList, if_neg hfresh]

theorem grows_addNode (s : Store) (x : Node) (changed : NodeId → Prop) :
    s.Grows (s.addNode x).2 changed where
  hasNode n hn := (hasNode_addNode s x n).2 (Or.inl hn)
  hasList _ hl := hl
  node _ hn _ := node_addNode_of_hasNode hn
  list _ _ := rfl

theorem grows_addList (s : Store) (items : List NodeId) (changed : NodeId → Prop) :
    s.Grows (s.addList items).2 changed where
  hasNode _ hn := hn
  hasList l hl := (hasList_addList s items l).2 (Or.inl hl)
  node _ _ _ := rfl
  list _ hl := list_addList_of_hasList hl

theorem grows_setNode (s : Store) (n : NodeId) (x : Node) : s.Grows (s.setNode n x) (· = n) where
  hasNode m hm := (hasNode_setNode s n m x).2 hm
  hasList _ hl := hl
  node m _ hne := by rw [node_setNode, if_neg fun h => hne h.1]
  list _ _ := rfl

/-! ## A new node over a new list -/

/-- The store has got a node with these fields over a list of its own. -/
structure Gains (s : Store) (f : Fields) (items : List NodeId) (element : NodeId) (s' : Store) :
    Prop where
  grows : s.Grows s' fun _ => False
  hasNode : s'.HasNode element
  newNode : ¬ s.HasNode element
  hasList : s'.HasList (s'.node element).children
  newList : ¬ s.HasList (s'.node element).children
  fields : s'.node element = f.over (s'.node element).children
  children : s'.children element = items
  only : ∀ n, s'.HasNode n → s.HasNode n ∨ n = element
  onlyList : ∀ l, s'.HasList l → s.HasList l ∨ l = (s'.node element).children

theorem gains_addTree {f : Fields} {items : List NodeId} {element : NodeId}
    (h : s.addTree f items = (element, s')) : s.Gains f items element s' := by
  have hadd : s.addTree f items = (s.addList items).2.addNode (f.over (s.addList items).1) := rfl
  obtain rfl : element = ((s.addList items).2.addNode (f.over (s.addList items).1)).1 := by
    rw [← hadd, h]
  obtain rfl : s' = ((s.addList items).2.addNode (f.over (s.addList items).1)).2 := by
    rw [← hadd, h]
  have hnode : ((s.addList items).2.addNode (f.over (s.addList items).1)).2.node
      ((s.addList items).2.addNode (f.over (s.addList items).1)).1 =
      f.over (s.addList items).1 := by
    rw [node_addNode, if_pos rfl]
  have hl : (s.addList items).2.HasList (s.addList items).1 :=
    (hasList_addList s items _).2 (Or.inr rfl)
  constructor
  case grows => exact (grows_addList s items _).trans (grows_addNode _ _ _) fun _ _ => id
  case hasNode => exact (hasNode_addNode _ _ _).2 (Or.inr rfl)
  case newNode => exact not_hasNode_addNode (s.addList items).2 _
  case hasList =>
    rw [hnode]
    exact hl
  case newList =>
    rw [hnode]
    exact not_hasList_addList s items
  case fields =>
    rw [hnode]
    rfl
  case children =>
    rw [Store.children, hnode, list_addNode]
    show (s.addList items).2.list (s.addList items).1 = items
    rw [list_addList, if_pos rfl]
  case only =>
    intro n hn
    exact (hasNode_addNode _ _ n).1 hn
  case onlyList =>
    intro k hk
    rw [hnode]
    exact (hasList_addList s items k).1 hk

theorem exists_gains (s : Store) (f : Fields) (items : List NodeId) :
    ∃ element s', s.addTree f items = (element, s') ∧ s.Gains f items element s' :=
  ⟨_, _, rfl, gains_addTree rfl⟩

/-! ## Appending a fragment -/

/-- Fields of the fragment that a label becomes. -/
def slotFields : Fields :=
  elementFields NodeType.flowElement (some "Fragment") [⟨some "slot", some "label"⟩]

/-- The identity that the next new node gets. -/
def nextNode (s : Store) : NodeId :=
  ⟨s.nodes.size⟩

section AppendSlot

variable (s : Store) {element : NodeId} (content : ListId)

theorem not_hasNode_nextNode : ¬ s.HasNode s.nextNode :=
  Nat.lt_irrefl _

theorem appendSlot_eq (h : s.HasNode element) :
    s.appendSlot element content = (s.addNode (slotFields.over content)).2.append
      (s.node element).children s.nextNode := by
  have hnode := node_addNode_of_hasNode (x := slotFields.over content) h
  show ((s.addNode (slotFields.over content)).2).append
    ((s.addNode (slotFields.over content)).2.node element).children s.nextNode = _
  rw [hnode]

theorem node_appendSlot (h : s.HasNode element) (n : NodeId) :
    (s.appendSlot element content).node n =
      if n = s.nextNode then slotFields.over content else s.node n := by
  rw [appendSlot_eq s content h, append, node_setList, node_addNode]
  rfl

theorem list_appendSlot (h : s.HasNode element) (l : ListId) :
    (s.appendSlot element content).list l =
      if l = (s.node element).children ∧ s.HasList l then s.list l ++ [s.nextNode]
      else s.list l := by
  rw [appendSlot_eq s content h, append, list_setList]
  by_cases hl : l = (s.node element).children
  · subst hl
    rfl
  · rw [if_neg fun hc => hl hc.1, if_neg fun hc => hl hc.1]
    rfl

theorem hasNode_appendSlot (h : s.HasNode element) (n : NodeId) :
    (s.appendSlot element content).HasNode n ↔ s.HasNode n ∨ n = s.nextNode := by
  rw [appendSlot_eq s content h, append, hasNode_setList, hasNode_addNode]
  rfl

theorem hasList_appendSlot (h : s.HasNode element) (l : ListId) :
    (s.appendSlot element content).HasList l ↔ s.HasList l := by
  rw [appendSlot_eq s content h, append, hasList_setList]
  rfl

end AppendSlot

end Store

end DirectiveLowering
