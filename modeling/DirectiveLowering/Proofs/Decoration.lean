import DirectiveLowering.Lowering.Options
import DirectiveLowering.Proofs.Growth

/-!
# What label hooks may do

A label hook is handed a new element with a list of its own, and the list of the label's children. It
decorates the element when it changes nothing else: it may give the element other names, attributes and
children, taken from what it was handed, or put the label's list into new elements.

Results:
* `decorating_discard`, `decorating_slot`: dropping a label and appending it as a fragment decorate.
* `Below.of_grows`: what is below a node stays there as long as nothing on the way is changed.
-/

namespace DirectiveLowering

namespace Store

/-! ## Documents with sharing -/

/-- The node is the root or below it, by way of any parents and lists. -/
inductive Below (s : Store) (root : NodeId) : NodeId → Prop
  | root : Below s root root
  | child {n k : NodeId} : Below s root n → k ∈ s.children n → Below s root k

/-- Whatever a node or a list refers to is in the store. -/
structure Closed (s : Store) : Prop where
  children : ∀ n, s.HasNode n → s.HasList (s.node n).children
  members : ∀ l, s.HasList l → ∀ k ∈ s.list l, s.HasNode k

variable {s s' : Store} {changed : NodeId → Prop}

theorem Closed.child (h : s.Closed) {n k : NodeId} (hn : s.HasNode n) (hk : k ∈ s.children n) :
    s.HasNode k :=
  h.members _ (h.children n hn) k hk

theorem Closed.below (h : s.Closed) {root n : NodeId} (hroot : s.HasNode root)
    (hn : s.Below root n) : s.HasNode n := by
  induction hn with
  | root => exact hroot
  | child _ hk ih => exact h.child ih hk

theorem Grows.children (h : s.Grows s' changed) (hclosed : s.Closed) {n : NodeId}
    (hn : s.HasNode n) (hkept : ¬ changed n) : s'.children n = s.children n := by
  rw [Store.children, h.node n hn hkept, h.list _ (hclosed.children n hn), Store.children]

/-- A growing store has no more below a node than it had, if nothing below it was changed. -/
theorem Below.of_grows (h : s.Grows s' changed) (hclosed : s.Closed) {root : NodeId}
    (hroot : s.HasNode root) (hkept : ∀ n, s.Below root n → ¬ changed n) {n : NodeId}
    (hn : s'.Below root n) : s.Below root n := by
  induction hn with
  | root => exact .root
  | child _ hk ih =>
    rw [h.children hclosed (hclosed.below hroot ih) (hkept _ ih)] at hk
    exact .child ih hk

/-- Anything below a node is the node or below one of its children. -/
theorem Below.eq_or_child {root n : NodeId} (h : s.Below root n) :
    n = root ∨ ∃ k ∈ s.children root, s.Below k n := by
  induction h with
  | root => exact Or.inl rfl
  | @child n k _ hk ih =>
    rcases ih with rfl | ⟨r, hr, hn⟩
    · exact Or.inr ⟨k, hk, .root⟩
    · exact Or.inr ⟨r, hr, .child hn hk⟩

theorem Below.trans {n k r : NodeId} (h₁ : s.Below n k) (h₂ : s.Below k r) : s.Below n r := by
  induction h₂ with
  | root => exact h₁
  | child _ hk ih => exact .child ih hk

theorem closed_addNode (h : s.Closed) {x : Node} (hx : s.HasList x.children) :
    (s.addNode x).2.Closed where
  children n hn := by
    rw [node_addNode]
    by_cases hnew : n = (s.addNode x).1
    · rw [if_pos hnew]
      exact hx
    · rw [if_neg hnew]
      exact h.children n (((hasNode_addNode s x n).1 hn).resolve_right hnew)
  members l hl k hk := (hasNode_addNode s x k).2 (Or.inl (h.members l hl k hk))

theorem closed_setNode (h : s.Closed) {n : NodeId} {x : Node} (hx : s.HasList x.children) :
    (s.setNode n x).Closed where
  children m hm := by
    rw [node_setNode]
    by_cases hc : m = n ∧ s.HasNode n
    · rw [if_pos hc]
      exact hx
    · rw [if_neg hc]
      exact h.children m ((hasNode_setNode s n m x).1 hm)
  members l hl k hk := (hasNode_setNode s n k x).2 (h.members l hl k hk)

theorem closed_appendSlot {element : NodeId} {content : ListId} (h : s.Closed)
    (helement : s.HasNode element) (hcontent : s.HasList content) :
    (s.appendSlot element content).Closed where
  children n hn := by
    rw [hasList_appendSlot s content helement, node_appendSlot s content helement]
    by_cases hnew : n = s.nextNode
    · rw [if_pos hnew]
      exact hcontent
    · rw [if_neg hnew]
      have hold := (hasNode_appendSlot s content helement n).1 hn
      exact h.children n (hold.resolve_right hnew)
  members l hl k hk := by
    rw [hasNode_appendSlot s content helement]
    rw [hasList_appendSlot s content helement] at hl
    rw [list_appendSlot s content helement] at hk
    by_cases hlist : l = (s.node element).children ∧ s.HasList l
    · rw [if_pos hlist] at hk
      rcases List.mem_append.1 hk with hk | hk
      · exact Or.inl (h.members l hl k hk)
      · exact Or.inr (List.mem_singleton.1 hk)
    · rw [if_neg hlist] at hk
      exact Or.inl (h.members l hl k hk)

/-- A node of an old store is overwritten after the store has grown. -/
theorem setNode_of_grows {n : NodeId} {x : Node} (hg : s.Grows s' fun _ => False)
    (hclosed : s'.Closed) (hn : s.HasNode n) (hx : s'.HasList x.children) :
    s.Grows (s'.setNode n x) (· = n) ∧ (s'.setNode n x).Closed ∧ (s'.setNode n x).node n = x := by
  have hfirst : s.Grows s' (· = n) := hg.mono fun _ _ => False.elim
  refine ⟨hfirst.trans (grows_setNode s' n x) fun _ _ hne => hne, closed_setNode hclosed hx, ?_⟩
  rw [node_setNode, if_pos ⟨rfl, hg.hasNode n hn⟩]

theorem Gains.closed {f : Fields} {items : List NodeId} {element : NodeId}
    (h : s.Gains f items element s') (hclosed : s.Closed) (hitems : ∀ k ∈ items, s.HasNode k) :
    s'.Closed where
  children n hn := by
    rcases h.only n hn with hold | rfl
    · rw [h.grows.node n hold id]
      exact h.grows.hasList _ (hclosed.children n hold)
    · exact h.hasList
  members l hl k hk := by
    rcases h.onlyList l hl with hold | rfl
    · rw [h.grows.list l hold] at hk
      exact h.grows.hasNode k (hclosed.members l hold k hk)
    · have hitem : k ∈ s'.children element := hk
      rw [h.children] at hitem
      exact h.grows.hasNode k (hitems k hitem)

/-! ## Decorating an element -/

/-- A label hook is handed an element that nothing else shares its list with, and a list that another
node holds. -/
structure Offered (s : Store) (element : NodeId) (content : ListId) : Prop where
  closed : s.Closed
  hasNode : s.HasNode element
  type : (s.node element).type = NodeType.flowElement
  own : ∀ n, s.HasNode n → n ≠ element → (s.node n).children ≠ (s.node element).children
  held : ∃ n, s.HasNode n ∧ n ≠ element ∧ (s.node n).children = content

/-- Nothing but the element and its list has changed, the type of the element is the same, and its
children were its children, come from the content, or are new elements over the content. -/
structure Decorates (s : Store) (element : NodeId) (content : ListId) (s' : Store) : Prop where
  closed : s'.Closed
  hasNode : ∀ n, s.HasNode n → s'.HasNode n
  hasList : ∀ l, s.HasList l → s'.HasList l
  node : ∀ n, s.HasNode n → n ≠ element → s'.node n = s.node n
  list : ∀ l, s.HasList l → l ≠ (s.node element).children → s'.list l = s.list l
  type : (s'.node element).type = (s.node element).type
  children : ∀ k ∈ s'.children element, k ∈ s.children element ∨
    (∃ r ∈ s.list content, s.Below r k) ∨
    (¬ s.HasNode k ∧ (s'.node k).isDirective = false ∧ (s'.node k).children = content)

variable {f : Fields} {items : List NodeId} {element label : NodeId} {content : ListId} {s₁ : Store}

/-- The element that a pass makes of a container is offered with the list of any old node. -/
theorem Gains.offered (h : s.Gains f items element s₁) (hclosed : s.Closed)
    (hitems : ∀ k ∈ items, s.HasNode k) (htype : f.type = NodeType.flowElement)
    (hlabel : s.HasNode label) : s₁.Offered element (s₁.node label).children where
  closed := h.closed hclosed hitems
  hasNode := h.hasNode
  type := by
    rw [h.fields]
    exact htype
  own n hn hne heq := by
    have hold := (h.only n hn).resolve_right hne
    rw [h.grows.node n hold id] at heq
    exact h.newList (heq ▸ hclosed.children n hold)
  held := by
    refine ⟨label, h.grows.hasNode label hlabel, ?_, rfl⟩
    rintro rfl
    exact h.newNode hlabel

/-- An old store only grows while a new element is decorated. -/
theorem Decorates.grows (h : s₁.Decorates element content s') (hgains : s.Gains f items element s₁) :
    s.Grows s' fun _ => False where
  hasNode n hn := h.hasNode n (hgains.grows.hasNode n hn)
  hasList l hl := h.hasList l (hgains.grows.hasList l hl)
  node n hn hc := by
    have hne : n ≠ element := by
      rintro rfl
      exact hgains.newNode hn
    rw [h.node n (hgains.grows.hasNode n hn) hne, hgains.grows.node n hn hc]
  list l hl := by
    have hne : l ≠ (s₁.node element).children := by
      rintro rfl
      exact hgains.newList hl
    rw [h.list l (hgains.grows.hasList l hl) hne, hgains.grows.list l hl]

end Store

variable {σ : Type}

/-- The hook never fails, and decorates whatever element it is handed. -/
def Decorating (handleLabel : LabelHook σ) : Prop :=
  ∀ element content (s : Store) (m : σ), s.Offered element content →
    ∃ s' m', handleLabel element content ⟨s, m⟩ = .ok () ⟨s', m'⟩ ∧
      s.Decorates element content s'

theorem decorating_discard : Decorating (discardLabel : LabelHook σ) := by
  intro element content s m h
  exact ⟨s, m, rfl, h.closed, fun _ => id, fun _ => id, fun _ _ _ => rfl, fun _ _ _ => rfl, rfl,
    fun _ => Or.inl⟩

theorem decorating_slot : Decorating (slotLabel : LabelHook σ) := by
  intro element content s m h
  refine ⟨s.appendSlot element content, m, rfl, ?_⟩
  have hl : s.HasList (s.node element).children := h.closed.children element h.hasNode
  have hcontent : s.HasList content := by
    obtain ⟨n, hn, -, rfl⟩ := h.held
    exact h.closed.children n hn
  have hnode := Store.node_appendSlot s content h.hasNode
  have hlist := Store.list_appendSlot s content h.hasNode
  have hold : ∀ n, s.HasNode n → n ≠ s.nextNode := by
    rintro n hn rfl
    exact Store.not_hasNode_nextNode s hn
  have helement : (s.appendSlot element content).node element = s.node element := by
    rw [hnode, if_neg (hold element h.hasNode)]
  constructor
  case closed => exact Store.closed_appendSlot h.closed h.hasNode hcontent
  case hasNode =>
    intro n hn
    exact (Store.hasNode_appendSlot s content h.hasNode n).2 (Or.inl hn)
  case hasList =>
    intro l hl
    exact (Store.hasList_appendSlot s content h.hasNode l).2 hl
  case node =>
    intro n hn _
    rw [hnode, if_neg (hold n hn)]
  case list =>
    intro l _ hne
    rw [hlist, if_neg fun hc => hne hc.1]
  case type => rw [helement]
  case children =>
    intro k hk
    rw [Store.children, helement, hlist, if_pos ⟨rfl, hl⟩] at hk
    rcases List.mem_append.1 hk with hk | hk
    · exact Or.inl hk
    · rw [List.mem_singleton.1 hk, hnode, if_pos rfl]
      exact Or.inr (Or.inr ⟨Store.not_hasNode_nextNode s, rfl, rfl⟩)

end DirectiveLowering
