import DirectiveLowering.Lowering.Policy
import DirectiveLowering.Proofs.Memory
import DirectiveLowering.Proofs.Subsiding

/-!
# Endowing an element

The label hook of a pass is handed a new element and the list of a label. The hooks of this module drop
the label, put its content in front of the element's children, empty its list in place, or append one or
two fragments over its list. Each of them may make the element higher, and the element alone: its list is
the only one that gets new members.

The element is not in the document yet. It gets there when the directive is overwritten with it, and the
directive is higher than its label, so it does not get higher then.

Results:
* `LabelPolicy.carryOut_endows`, `Places.endows`: what these hooks do to an element.
* `Endows.prepares`: an element that has been endowed has what the directive can take over.
* `Prepares.settles`: the directive is overwritten with the element.
-/

namespace DirectiveLowering

namespace Store

variable {s s' s'' : Store} {element n k : NodeId} {content l : ListId} {d : Nat}

/-! ## What may become of an element -/

/-- A label hook is entrusted with an element and a list that is not the element's own. -/
structure Entrusted (s : Store) (element : NodeId) (content : ListId) : Prop where
  closed : s.Closed
  hasNode : s.HasNode element
  hasList : s.HasList content
  apart : content ≠ (s.node element).children

/-- Every node holds the list that it held, and no list but the element's has got new members. The element
has got members of the content or new nodes, and whatever is new holds the content. -/
structure Endows (s : Store) (element : NodeId) (content : ListId) (s' : Store) : Prop where
  closed : s'.Closed
  hasNode : ∀ n, s.HasNode n → s'.HasNode n
  hasList : ∀ l, s.HasList l → s'.HasList l
  node : ∀ n, s.HasNode n → (s'.node n).children = (s.node n).children
  list : ∀ l, s.HasList l → l ≠ (s.node element).children → (s'.list l).Sublist (s.list l)
  children : ∀ k ∈ s'.children element,
    k ∈ s.children element ∨ k ∈ s.list content ∨ ¬ s.HasNode k
  fresh : ∀ n, s'.HasNode n → ¬ s.HasNode n → (s'.node n).children = content

theorem Entrusted.refl (h : s.Entrusted element content) : s.Endows element content s where
  closed := h.closed
  hasNode _ hn := hn
  hasList _ hl := hl
  node _ _ := rfl
  list _ _ _ := List.Sublist.refl _
  children _ hk := Or.inl hk
  fresh _ hn hnew := absurd hn hnew

theorem Entrusted.of_endows (h : s.Entrusted element content) (he : s.Endows element content s') :
    s'.Entrusted element content where
  closed := he.closed
  hasNode := he.hasNode element h.hasNode
  hasList := he.hasList content h.hasList
  apart := by
    rw [he.node element h.hasNode]
    exact h.apart

theorem Endows.trans (h : s.Entrusted element content) (h₁ : s.Endows element content s')
    (h₂ : s'.Endows element content s'') : s.Endows element content s'' where
  closed := h₂.closed
  hasNode n hn := h₂.hasNode n (h₁.hasNode n hn)
  hasList l hl := h₂.hasList l (h₁.hasList l hl)
  node n hn := by rw [h₂.node n (h₁.hasNode n hn), h₁.node n hn]
  list l hl hne := by
    have hne' : l ≠ (s'.node element).children := by
      rw [h₁.node element h.hasNode]
      exact hne
    exact (h₂.list l (h₁.hasList l hl) hne').trans (h₁.list l hl hne)
  children k hk := by
    rcases h₂.children k hk with hbody | hcontent | hnew
    · exact h₁.children k hbody
    · exact Or.inr (Or.inl ((h₁.list content h.hasList h.apart).subset hcontent))
    · exact Or.inr (Or.inr fun hold => hnew (h₁.hasNode k hold))
  fresh n hn hnew := by
    by_cases hn' : s'.HasNode n
    · rw [h₂.node n hn']
      exact h₁.fresh n hn' hnew
    · exact h₂.fresh n hn hn'

theorem closed_setList (h : s.Closed) {items : List NodeId} (hitems : ∀ k ∈ items, s.HasNode k) :
    (s.setList l items).Closed where
  children n hn := (hasList_setList s l _ items).2 (h.children n hn)
  members j hj k hk := by
    rw [list_setList] at hk
    rw [hasList_setList] at hj
    split at hk
    · exact hitems k hk
    · exact h.members j hj k hk

/-- A list is changed in place: the element's own gets members of the content, or another one loses
members. -/
theorem Entrusted.setList (h : s.Entrusted element content) (hl : s.HasList l) {items : List NodeId}
    (hitems : ∀ k ∈ items, k ∈ s.list l ∨ k ∈ s.list content)
    (hshrinks : l ≠ (s.node element).children → items.Sublist (s.list l)) :
    s.Endows element content (s.setList l items) := by
  have hlist : ∀ j, (s.setList l items).list j = if j = l then items else s.list j := by
    intro j
    simp [list_setList, hl]
  constructor
  case closed =>
    refine closed_setList h.closed fun k hk => ?_
    rcases hitems k hk with hk | hk
    · exact h.closed.members l hl k hk
    · exact h.closed.members content h.hasList k hk
  case hasNode => simp
  case hasList => simp
  case node => simp
  case list =>
    intro j _ hne
    rw [hlist]
    by_cases hjl : j = l
    · rw [if_pos hjl, hjl]
      exact hshrinks (hjl ▸ hne)
    · rw [if_neg hjl]
  case children =>
    intro k hk
    rw [Store.children, hlist] at hk
    by_cases hel : (s.node element).children = l
    · rw [node_setList, if_pos hel] at hk
      unfold Store.children
      rw [hel]
      exact (hitems k hk).imp_right Or.inl
    · rw [node_setList, if_neg hel] at hk
      exact Or.inl hk
  case fresh =>
    intro n hn hnew
    exact absurd hn hnew

/-- A fragment over the content is appended. -/
theorem Entrusted.appendSlot (h : s.Entrusted element content) :
    s.Endows element content (s.appendSlot element content) := by
  have hnode := node_appendSlot s content h.hasNode
  have hlist := list_appendSlot s content h.hasNode
  have hold : ∀ n, s.HasNode n → (s.appendSlot element content).node n = s.node n := by
    intro n hn
    rw [hnode, if_neg]
    rintro rfl
    exact not_hasNode_nextNode s hn
  constructor
  case closed => exact closed_appendSlot h.closed h.hasNode h.hasList
  case hasNode =>
    intro n hn
    simp [hasNode_appendSlot s content h.hasNode, hn]
  case hasList =>
    intro l hl
    simp [hasList_appendSlot s content h.hasNode, hl]
  case node =>
    intro n hn
    rw [hold n hn]
  case list =>
    intro l _ hne
    rw [hlist, if_neg (by simp [hne])]
  case children =>
    intro k hk
    have hown := h.closed.children element h.hasNode
    rw [Store.children, hold element h.hasNode, hlist, if_pos ⟨rfl, hown⟩] at hk
    rcases List.mem_append.1 hk with hk | hk
    · exact Or.inl hk
    · obtain rfl := List.mem_singleton.1 hk
      exact Or.inr (Or.inr (not_hasNode_nextNode s))
  case fresh =>
    intro n hn hnew
    have hlast := ((hasNode_appendSlot s content h.hasNode n).1 hn).resolve_left hnew
    rw [hnode, if_pos hlast]
    rfl

end Store

/-! ## Hooks that place the content of a label -/

/-- The policies that only place or drop the content of a label. -/
def LabelPolicy.placing : List LabelPolicy :=
  [discard, slot, prepend, clear, slotTwice]

variable {σ : Type}

/-- At each call the hook does to the documents what one of these policies does. It may fail after that. -/
def Places (handleLabel : LabelHook σ) : Prop :=
  ∀ element content (w : World σ), ∃ p ∈ LabelPolicy.placing,
    (left (handleLabel element content w)).store =
      (left (p.carryOut element content ⟨w.store, #[]⟩)).store

theorem places_discard : Places (discardLabel : LabelHook σ) := by
  intro element content w
  exact ⟨.discard, by simp [LabelPolicy.placing], rfl⟩

theorem places_slot : Places (slotLabel : LabelHook σ) := by
  intro element content w
  exact ⟨.slot, by simp [LabelPolicy.placing], rfl⟩

/-- The hooks of these policies do that, and record their calls beside. -/
theorem places_hook {p : LabelPolicy} (hp : p ∈ LabelPolicy.placing) : Places p.hook := by
  have hmem := hp
  simp only [LabelPolicy.placing, List.mem_cons, List.not_mem_nil, or_false] at hmem
  rcases hmem with rfl | rfl | rfl | rfl | rfl
  · exact places_discard
  · exact places_slot
  all_goals
    intro element content w
    exact ⟨_, hp, rfl⟩

section Entrusted

variable {s : Store} {element : NodeId} {content : ListId}

theorem LabelPolicy.carryOut_endows {p : LabelPolicy} (hp : p ∈ LabelPolicy.placing)
    (h : s.Entrusted element content) (m : Trace) :
    s.Endows element content (left (p.carryOut element content ⟨s, m⟩)).store := by
  have hown := h.closed.children element h.hasNode
  simp only [LabelPolicy.placing, List.mem_cons, List.not_mem_nil, or_false] at hp
  rcases hp with rfl | rfl | rfl | rfl | rfl
  case inl => exact h.refl
  case inr.inl => exact h.appendSlot
  case inr.inr.inl =>
    refine h.setList hown ?_ ?_
    · intro k hk
      exact (List.mem_append.1 hk).symm
    · intro hne
      exact absurd rfl hne
  case inr.inr.inr.inl => exact h.setList h.hasList (by simp) (by simp)
  case inr.inr.inr.inr =>
    have hfirst := h.appendSlot
    exact hfirst.trans h (h.of_endows hfirst).appendSlot

theorem Places.endows {handleLabel : LabelHook σ} (hplaces : Places handleLabel)
    (h : s.Entrusted element content) (m : σ) :
    s.Endows element content (left (handleLabel element content ⟨s, m⟩)).store := by
  obtain ⟨p, hp, hhook⟩ := hplaces element content ⟨s, m⟩
  rw [hhook]
  exact LabelPolicy.carryOut_endows hp h #[]

end Entrusted

namespace Store

variable {s s₁ s' : Store} {element n k label : NodeId} {content : ListId} {d : Nat}

/-! ## An element that a directive can be overwritten with -/

/-- Since the first store, in which the directive is as it was, an element has been made for it. What the
element holds was below a child of the directive, or is new and holds what a child of the directive held. -/
structure Prepares (s : Store) (n element : NodeId) (s' : Store) : Prop where
  retains : s.Retains s'
  sound : s'.Sound
  hasNode : s'.HasNode element
  children : ∀ k ∈ s'.children element, (∃ child ∈ s.children n, s.Below child k) ∨
    ¬ s.HasNode k ∧ ∃ child ∈ s.children n, s'.children k ⊆ s.children child

theorem Prepares.settled (h : s.Prepares n element s') (hs : s.Sound) : s.Settles s' :=
  ⟨h.sound, h.retains.subsides hs.closed⟩

/-- The element has not been endowed: it holds children of the directive. -/
theorem Retains.prepares (h : s.Retains s') (hsound : s'.Sound) (helement : s'.HasNode element)
    (hbody : s'.children element ⊆ s.children n) : s.Prepares n element s' where
  retains := h
  sound := hsound
  hasNode := helement
  children k hk := Or.inl ⟨k, hbody hk, .root⟩

/-- Old lists have at most lost members, if that of the element is new. -/
theorem Endows.retains (h : s₁.Endows element content s') (hretains : s.Retains s₁)
    (hown : ¬ s.HasList (s₁.node element).children) : s.Retains s' where
  hasNode k hk := h.hasNode k (hretains.hasNode k hk)
  hasList l hl := h.hasList l (hretains.hasList l hl)
  node k hk := by rw [h.node k (hretains.hasNode k hk), hretains.node k hk]
  list l hl := by
    have hne : l ≠ (s₁.node element).children := by
      rintro rfl
      exact hown hl
    exact (h.list l (hretains.hasList l hl) hne).trans (hretains.list l hl)

/-- A new node holds members of the content. -/
theorem Endows.children_fresh (h : s₁.Endows element content s')
    (he : s₁.Entrusted element content) (hk : s'.HasNode k) (hnew : ¬ s₁.HasNode k) :
    s'.children k ⊆ s₁.list content := by
  unfold Store.children
  rw [h.fresh k hk hnew]
  exact (h.list content he.hasList he.apart).subset

/-- Nodes are grounded if those are that the element was handed. -/
theorem Endows.grounded (h : s₁.Endows element content s') (he : s₁.Entrusted element content)
    (hs : s₁.Sound) (hbody : ∀ k ∈ s₁.children element, s'.Grounded k)
    (hcontent : ∀ k ∈ s₁.list content, s'.Grounded k) : ∀ k, s'.HasNode k → s'.Grounded k := by
  have hfresh : ∀ k, s'.HasNode k → ¬ s₁.HasNode k → s'.Grounded k := fun k hk hnew =>
    grounded_of_children fun r hr => hcontent r (h.children_fresh he hk hnew hr)
  have helement : s'.Grounded element := by
    refine grounded_of_children fun k hk => ?_
    rcases h.children k hk with hk' | hk' | hnew
    · exact hbody k hk'
    · exact hcontent k hk'
    · exact hfresh k (h.closed.child (h.hasNode element he.hasNode) hk) hnew
  refine grounded_of_steps hs.grounded h.closed fun k hk => ?_
  by_cases hold : s₁.HasNode k
  · have hnode := h.node k hold
    by_cases hover : (s₁.node k).children = (s₁.node element).children
    · -- the node shares the list of the element
      have hsame : s'.children k = s'.children element := by
        rw [Store.children, Store.children, hnode, hover, h.node element he.hasNode]
      refine Or.inl (grounded_of_children fun r hr => ?_)
      rw [hsame] at hr
      exact helement.child hr
    · refine Or.inr ⟨hold, ?_⟩
      unfold Store.children
      rw [hnode]
      exact (h.list _ (hs.closed.children k hold) hover).subset
  · exact Or.inl (hfresh k hk hold)

/-- The element has been endowed with what a child of the directive holds. -/
theorem Endows.prepares (h : s₁.Endows element content s') (he : s₁.Entrusted element content)
    (hs : s.Sound) (hn : s.HasNode n) (hretains : s.Retains s₁) (hsound : s₁.Sound)
    (hown : ¬ s.HasList (s₁.node element).children)
    (hbody : s₁.children element ⊆ s.children n) (hlabel : label ∈ s.children n)
    (hcontent : (s.node label).children = content) : s.Prepares n element s' := by
  have hlabelNode := hs.closed.child hn hlabel
  have hretains' := h.retains hretains hown
  have hold : ∀ k, s.HasNode k → s'.Grounded k := fun _ =>
    (hretains'.subsides hs.closed).grounded hs
  have hmember : ∀ k ∈ s₁.list content, k ∈ s.children label := by
    intro k hk
    subst hcontent
    exact (hretains.list _ (hs.closed.children label hlabelNode)).subset hk
  constructor
  case retains => exact hretains'
  case hasNode => exact h.hasNode element he.hasNode
  case sound =>
    refine ⟨h.closed, h.grounded he hsound ?_ ?_⟩
    · exact fun k hk => hold k (hs.closed.child hn (hbody hk))
    · exact fun k hk => hold k (hs.closed.child hlabelNode (hmember k hk))
  case children =>
    intro k hk
    rcases h.children k hk with hk' | hk' | hnew
    · exact Or.inl ⟨k, hbody hk', .root⟩
    · exact Or.inl ⟨label, hlabel, .child .root (hmember k hk')⟩
    · have hk' := h.closed.child (h.hasNode element he.hasNode) hk
      refine Or.inr ⟨fun hold => hnew (hretains.hasNode k hold), label, hlabel, fun r hr => ?_⟩
      exact hmember r (h.children_fresh he hk' hnew hr)

/-! ## Overwriting the directive -/

theorem children_setNode (s : Store) (n m : NodeId) (x : Node) :
    (s.setNode n x).children m = if m = n ∧ s.HasNode n then s.list x.children else s.children m := by
  rw [Store.children, node_setNode, list_setNode]
  split <;> rfl

section Overwrite

variable {x : Node} (h : s.Prepares n element s') (hs : s.Sound) (hn : s.HasNode n)
  (hx : x.children = (s'.node element).children)
include h hs hn hx

/-- No old node has longer paths below it when the directive is overwritten with the element. -/
theorem Prepares.descends {m : NodeId} (hm : s.HasNode m)
    (hdown : (s'.setNode n x).Descends d m) : s.Descends d m := by
  have hchildren := fun m => children_setNode s' n m x
  have hn' := h.retains.hasNode n hn
  induction d using Nat.strong_induction_on generalizing m with
  | _ d ih =>
    cases d with
    | zero => simp
    | succ d =>
      obtain ⟨k, hk, hdown⟩ := hdown
      rw [hchildren] at hk
      by_cases hmn : m = n
      · subst hmn
        rw [if_pos ⟨rfl, hn'⟩, hx] at hk
        rcases h.children k hk with ⟨child, hchild, hbelow⟩ | ⟨hnew, child, hchild, hsub⟩
        · have hk' := hs.closed.below (hs.closed.child hm hchild) hbelow
          exact ⟨child, hchild, (ih d (by omega) hk' hdown).of_below hbelow⟩
        · -- a new child is as high as the child whose list it holds
          refine ⟨child, hchild, ?_⟩
          cases d with
          | zero => simp
          | succ d =>
            obtain ⟨r, hr, hdown⟩ := hdown
            have hne : k ≠ m := fun heq => hnew (heq ▸ hm)
            rw [hchildren, if_neg (by simp [hne])] at hr
            have hr' := hs.closed.child (hs.closed.child hm hchild) (hsub hr)
            exact ⟨r, hsub hr, ih d (by omega) hr' hdown⟩
      · rw [if_neg (by simp [hmn])] at hk
        have hk' := (h.retains.children hs.closed hm).subset hk
        exact ⟨k, hk', ih d (by omega) (hs.closed.child hm hk') hdown⟩

theorem Prepares.subsides : s.Subsides (s'.setNode n x) where
  hasNode m hm := by simpa using h.retains.hasNode m hm
  hasList l hl := h.retains.hasList l hl
  list l hl := h.retains.list l hl
  height _ hm := height_le_height_iff.2 fun _ => h.descends hs hn hx hm

/-- **A store settles when the directive is overwritten with the element.** -/
theorem Prepares.settles : s.Settles (s'.setNode n x) where
  subsides := h.subsides hs hn hx
  sound := by
    have hlist : s'.HasList x.children := hx ▸ h.sound.closed.children element h.hasNode
    have hclosed : (s'.setNode n x).Closed := closed_setNode h.sound.closed hlist
    refine ⟨hclosed, grounded_of_steps h.sound.grounded hclosed fun m hm => ?_⟩
    by_cases hold : s.HasNode m
    · exact Or.inl ((h.subsides hs hn hx).grounded hs hold)
    · have hne : m ≠ n := by
        rintro rfl
        exact hold hn
      refine Or.inr ⟨by simpa using hm, ?_⟩
      rw [children_setNode, if_neg (by simp [hne])]
      exact fun _ hk => hk

end Overwrite

end Store

end DirectiveLowering
