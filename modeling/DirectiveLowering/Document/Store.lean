import DirectiveLowering.Document.Node

/-!
# Stores

A store holds the nodes and the lists of children of all documents by their identity. Nodes and lists
are changed in place and never given up, so an identity stays good for ever.

Results:
* `node_addNode`, `node_setNode`, `node_addList`, `node_setList`: what each operation does to nodes.
* `list_addNode`, `list_setNode`, `list_addList`, `list_setList`: what each does to lists.
-/

namespace DirectiveLowering

/-- Nodes and lists of children by identity. -/
structure Store where
  nodes : Array Node := #[]
  lists : Array (List NodeId) := #[]

namespace Store

/-! ## Reading -/

/-- Whether the node is in the store. -/
def HasNode (s : Store) (n : NodeId) : Prop :=
  n.index < s.nodes.size

/-- Whether the list is in the store. -/
def HasList (s : Store) (l : ListId) : Prop :=
  l.index < s.lists.size

instance (s : Store) (n : NodeId) : Decidable (s.HasNode n) :=
  inferInstanceAs (Decidable (n.index < s.nodes.size))

instance (s : Store) (l : ListId) : Decidable (s.HasList l) :=
  inferInstanceAs (Decidable (l.index < s.lists.size))

/-- The node of an identity; an identity that is not in the store stands for a blank node. -/
def node (s : Store) (n : NodeId) : Node :=
  s.nodes.getD n.index default

/-- The list of an identity; an identity that is not in the store stands for the empty list. -/
def list (s : Store) (l : ListId) : List NodeId :=
  s.lists.getD l.index []

/-- The children of a node. -/
def children (s : Store) (n : NodeId) : List NodeId :=
  s.list (s.node n).children

/-! ## Writing -/

/-- Puts a new node into the store. -/
def addNode (s : Store) (node : Node) : NodeId × Store :=
  (⟨s.nodes.size⟩, { s with nodes := s.nodes.push node })

/-- Puts a new list into the store. -/
def addList (s : Store) (items : List NodeId) : ListId × Store :=
  (⟨s.lists.size⟩, { s with lists := s.lists.push items })

/-- Changes a node in place. -/
def setNode (s : Store) (n : NodeId) (node : Node) : Store :=
  { s with nodes := s.nodes.setIfInBounds n.index node }

/-- Changes a list in place. -/
def setList (s : Store) (l : ListId) (items : List NodeId) : Store :=
  { s with lists := s.lists.setIfInBounds l.index items }

/-- Puts a new node with a new list of children into the store. -/
def addTree (s : Store) (fields : Fields) (children : List NodeId) : NodeId × Store :=
  let (l, s) := s.addList children
  s.addNode { fields with children := l }

/-- Adds a child at the end of a list, in place. -/
def append (s : Store) (l : ListId) (child : NodeId) : Store :=
  s.setList l (s.list l ++ [child])

/-! ## What the operations do to nodes -/

theorem node_addNode (s : Store) (x : Node) (n : NodeId) :
    (s.addNode x).2.node n = if n = (s.addNode x).1 then x else s.node n := by
  cases n with
  | mk i =>
    simp only [node, addNode, Array.getD_eq_getD_getElem?, Array.getElem?_push, NodeId.mk.injEq]
    split <;> simp

theorem node_setNode (s : Store) (n m : NodeId) (x : Node) :
    (s.setNode n x).node m = if m = n ∧ s.HasNode n then x else s.node m := by
  cases n with
  | mk i =>
    cases m with
    | mk j =>
      simp only [node, setNode, HasNode, Array.getD_eq_getD_getElem?,
        Array.getElem?_setIfInBounds, NodeId.mk.injEq]
      by_cases hij : i = j
      · subst hij
        by_cases hi : i < s.nodes.size <;> simp [hi]
      · simp [hij, Ne.symm hij]

@[simp] theorem node_addList (s : Store) (items : List NodeId) (n : NodeId) :
    (s.addList items).2.node n = s.node n := rfl

@[simp] theorem node_setList (s : Store) (l : ListId) (items : List NodeId) (n : NodeId) :
    (s.setList l items).node n = s.node n := rfl

/-! ## What the operations do to lists -/

theorem list_addList (s : Store) (items : List NodeId) (l : ListId) :
    (s.addList items).2.list l = if l = (s.addList items).1 then items else s.list l := by
  cases l with
  | mk i =>
    simp only [list, addList, Array.getD_eq_getD_getElem?, Array.getElem?_push, ListId.mk.injEq]
    split <;> simp

theorem list_setList (s : Store) (l k : ListId) (items : List NodeId) :
    (s.setList l items).list k = if k = l ∧ s.HasList l then items else s.list k := by
  cases l with
  | mk i =>
    cases k with
    | mk j =>
      simp only [list, setList, HasList, Array.getD_eq_getD_getElem?,
        Array.getElem?_setIfInBounds, ListId.mk.injEq]
      by_cases hij : i = j
      · subst hij
        by_cases hi : i < s.lists.size <;> simp [hi]
      · simp [hij, Ne.symm hij]

@[simp] theorem list_addNode (s : Store) (x : Node) (l : ListId) :
    (s.addNode x).2.list l = s.list l := rfl

@[simp] theorem list_setNode (s : Store) (n : NodeId) (x : Node) (l : ListId) :
    (s.setNode n x).list l = s.list l := rfl

/-! ## What the operations do to membership -/

theorem hasNode_addNode (s : Store) (x : Node) (n : NodeId) :
    (s.addNode x).2.HasNode n ↔ s.HasNode n ∨ n = (s.addNode x).1 := by
  cases n with
  | mk i =>
    simp only [HasNode, addNode, Array.size_push, NodeId.mk.injEq]
    omega

theorem hasList_addList (s : Store) (items : List NodeId) (l : ListId) :
    (s.addList items).2.HasList l ↔ s.HasList l ∨ l = (s.addList items).1 := by
  cases l with
  | mk i =>
    simp only [HasList, addList, Array.size_push, ListId.mk.injEq]
    omega

@[simp] theorem hasNode_setNode (s : Store) (n m : NodeId) (x : Node) :
    (s.setNode n x).HasNode m ↔ s.HasNode m := by
  simp [HasNode, setNode]

@[simp] theorem hasList_setList (s : Store) (l k : ListId) (items : List NodeId) :
    (s.setList l items).HasList k ↔ s.HasList k := by
  simp [HasList, setList]

@[simp] theorem hasList_setNode (s : Store) (n : NodeId) (x : Node) (l : ListId) :
    (s.setNode n x).HasList l ↔ s.HasList l := Iff.rfl

@[simp] theorem hasNode_setList (s : Store) (l : ListId) (items : List NodeId) (n : NodeId) :
    (s.setList l items).HasNode n ↔ s.HasNode n := Iff.rfl

end Store

end DirectiveLowering
