import DirectiveLowering.Proofs.Decoration

/-!
# Overwriting a directive

A directive is lowered in two steps: an element is made for it, and the directive is overwritten with the
element. Whether the element takes over the list of the directive, or gets a list of its own and is
decorated with the label, the children that the directive has in the end come from below it, or are new
nodes over the list of one of its children.

Results:
* `builds_addNode`, `builds_decorated`: the two ways in which an element is made.
* `lowers_setNode`, `Builds.lowers`: the directive is overwritten.
-/

namespace DirectiveLowering.Store

variable {s s₁ s' : Store} {n k label element : NodeId} {f : Fields}

/-- What may become a child of a directive when it is lowered: what was below one of its children, or a
new node over the list of one of them. -/
inductive Inherited (s s' : Store) (n k : NodeId) : Prop
  | below {child : NodeId} (isChild : child ∈ s.children n) (under : s.Below child k)
  | fresh {child : NodeId} (isChild : child ∈ s.children n) (new : ¬ s.HasNode k)
      (plain : (s'.node k).isDirective = false) (list : s'.children k = s.children child)

/-! ## The element -/

/-- An element has been made for a directive: the store has only grown, and what the element holds may
become what the directive holds. -/
structure Builds (s : Store) (n element : NodeId) (s' : Store) : Prop where
  grows : s.Grows s' fun _ => False
  closed : s'.Closed
  hasNode : s'.HasNode element
  plain : (s'.node element).isDirective = false
  children : ∀ k ∈ s'.children element, Inherited s s' n k

/-- An element over the list of the directive. -/
theorem builds_addNode (hclosed : s.Closed) (hn : s.HasNode n) (hplain : f.isDirective = false) :
    s.Builds n (s.addNode (f.over (s.node n).children)).1
      (s.addNode (f.over (s.node n).children)).2 := by
  have hnode : (s.addNode (f.over (s.node n).children)).2.node
      (s.addNode (f.over (s.node n).children)).1 = f.over (s.node n).children := by
    rw [node_addNode, if_pos rfl]
  constructor
  case grows => exact grows_addNode s _ _
  case closed => exact closed_addNode hclosed (hclosed.children n hn)
  case hasNode => exact (hasNode_addNode s _ _).2 (Or.inr rfl)
  case plain =>
    rw [hnode]
    exact hplain
  case children =>
    intro k hk
    rw [Store.children, hnode] at hk
    exact .below hk .root

/-- A child of a decorated element was a child of the directive or below its label, or holds the list of
the label. -/
theorem Decorates.inherited (hclosed : s.Closed) (hn : s.HasNode n) (hlabel : label ∈ s.children n)
    (hgains : s.Gains f (s.withoutLabels (s.children n)) element s₁)
    (h : s₁.Decorates element (s₁.node label).children s') (hk : k ∈ s'.children element) :
    Inherited s s' n k := by
  have hlabelNode := hclosed.child hn hlabel
  have hlabelList := hclosed.children label hlabelNode
  have hsame : s₁.node label = s.node label := hgains.grows.node label hlabelNode id
  rcases h.children k hk with hbody | ⟨r, hr, hbelow⟩ | ⟨hnew, hplain, hover⟩
  · rw [hgains.children] at hbody
    exact .below (List.mem_filter.1 hbody).1 .root
  · rw [hsame, hgains.grows.list _ hlabelList] at hr
    have hold := hbelow.of_grows hgains.grows hclosed (hclosed.child hlabelNode hr) fun _ _ => id
    exact .below hlabel ((Below.child .root hr).trans hold)
  · refine .fresh hlabel (fun hold => hnew (hgains.grows.hasNode k hold)) hplain ?_
    rw [Store.children, hover, hsame, (h.grows hgains).list _ hlabelList]
    rfl

/-- A decorated element over what remains of the children of the directive. -/
theorem builds_decorated (hclosed : s.Closed) (hn : s.HasNode n) (hlabel : label ∈ s.children n)
    (htype : f.type = NodeType.flowElement)
    (hgains : s.Gains f (s.withoutLabels (s.children n)) element s₁)
    (h : s₁.Decorates element (s₁.node label).children s') : s.Builds n element s' where
  grows := h.grows hgains
  closed := h.closed
  hasNode := h.hasNode element hgains.hasNode
  plain := by
    rw [Fields.isDirective, h.type, hgains.fields, Fields.toFields_over, htype]
    rfl
  children _ hk := h.inherited hclosed hn hlabel hgains hk

/-! ## The directive -/

/-- The second store is the first with a directive lowered. -/
structure Lowers (s : Store) (n : NodeId) (s' : Store) : Prop where
  grows : s.Grows s' (· = n)
  closed : s'.Closed
  plain : (s'.node n).isDirective = false
  children : ∀ k ∈ s'.children n, Inherited s s' n k

/-- The directive is overwritten with something that holds the children of the element. -/
theorem Builds.lowers_setNode (h : s.Builds n element s') (hn : s.HasNode n) {x : Node}
    (hplain : x.isDirective = false) (hchildren : x.children = (s'.node element).children) :
    s.Lowers n (s'.setNode n x) := by
  have hlist : s'.HasList x.children := hchildren ▸ h.closed.children element h.hasNode
  obtain ⟨hgrows, hclosed, hnode⟩ := setNode_of_grows h.grows h.closed hn hlist
  refine ⟨hgrows, hclosed, ?_, fun k hk => ?_⟩
  · rw [hnode]
    exact hplain
  · rw [Store.children, hnode, hchildren] at hk
    cases h.children k hk with
    | below hchild hunder => exact .below hchild hunder
    | fresh hchild hnew hplain hlist =>
      have hne : k ≠ n := fun heq => hnew (heq ▸ hn)
      have hsame : (s'.setNode n x).node k = s'.node k := by
        rw [node_setNode, if_neg fun hc => hne hc.1]
      refine .fresh hchild hnew ?_ ?_
      · rw [hsame]
        exact hplain
      · rw [Store.children, hsame]
        exact hlist

/-- The directive is overwritten with the element. -/
theorem Builds.lowers (h : s.Builds n element s') (hn : s.HasNode n) :
    s.Lowers n (s'.setNode n ((s'.node n).overwrite (s'.node element))) :=
  h.lowers_setNode hn h.plain rfl

end DirectiveLowering.Store
