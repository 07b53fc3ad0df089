import DirectiveLowering.Proofs.Heights
import DirectiveLowering.Proofs.Treatment

/-!
# Subsiding stores

A store subsides when no list in it gets a new member and no node gets higher. This is what a lowering
leaves of the documents: it may take members out of a list and give a node another list, and it may add
nodes and lists of its own.

A change that lets every node hold the list that it held is simpler, and all that is done before a
directive is overwritten is of this kind. Changes that touch no children at all are simpler still: they
change the fields of nodes, and make new lists and nodes out of what is there.

Results:
* `Subsides.refl`, `Subsides.trans`: subsiding is a preorder.
* `Retains.subsides`: a store subsides while its nodes hold the lists that they held.
* `KeepsChildren.settles`: a store settles under changes that touch no children.
-/

namespace DirectiveLowering.Store

variable {s s' s'' : Store} {n k : NodeId} {d : Nat}

/-- A closed store in which every node has a finite height, which is to say, without cycles. -/
structure Sound (s : Store) : Prop where
  closed : s.Closed
  grounded : ∀ n, s.HasNode n → s.Grounded n

theorem sound_iff : s.Sound ↔ s.Closed ∧ s.Acyclic := by
  constructor
  · intro h
    exact ⟨h.closed, (acyclic_iff_grounded h.closed).2 h.grounded⟩
  · rintro ⟨hclosed, hacyclic⟩
    exact ⟨hclosed, (acyclic_iff_grounded hclosed).1 hacyclic⟩

/-! ## Subsiding -/

/-- Whatever was there is there, its lists have at most lost members, and none of its nodes is higher than
it was. -/
structure Subsides (s s' : Store) : Prop where
  hasNode : ∀ n, s.HasNode n → s'.HasNode n
  hasList : ∀ l, s.HasList l → s'.HasList l
  list : ∀ l, s.HasList l → (s'.list l).Sublist (s.list l)
  height : ∀ n, s.HasNode n → s'.height n ≤ s.height n

theorem Subsides.refl (s : Store) : s.Subsides s where
  hasNode _ hn := hn
  hasList _ hl := hl
  list _ _ := List.Sublist.refl _
  height _ _ := le_refl _

theorem Subsides.trans (h₁ : s.Subsides s') (h₂ : s'.Subsides s'') : s.Subsides s'' where
  hasNode n hn := h₂.hasNode n (h₁.hasNode n hn)
  hasList l hl := h₂.hasList l (h₁.hasList l hl)
  list l hl := (h₂.list l (h₁.hasList l hl)).trans (h₁.list l hl)
  height n hn := (h₂.height n (h₁.hasNode n hn)).trans (h₁.height n hn)

theorem Subsides.descends (h : s.Subsides s') (hn : s.HasNode n) (hdown : s'.Descends d n) :
    s.Descends d n :=
  height_le_height_iff.1 (h.height n hn) d hdown

/-- The store has subsided, and there are no cycles in it. -/
structure Settles (s s' : Store) : Prop where
  sound : s'.Sound
  subsides : s.Subsides s'

theorem Sound.settles (h : s.Sound) : s.Settles s :=
  ⟨h, .refl s⟩

theorem Settles.trans (h₁ : s.Settles s') (h₂ : s'.Settles s'') : s.Settles s'' :=
  ⟨h₂.sound, h₁.subsides.trans h₂.subsides⟩

/-! ## Nodes that hold the lists that they held -/

/-- Whatever was there is there, its nodes hold the lists that they held, and its lists have at most lost
members. -/
structure Retains (s s' : Store) : Prop where
  hasNode : ∀ n, s.HasNode n → s'.HasNode n
  hasList : ∀ l, s.HasList l → s'.HasList l
  node : ∀ n, s.HasNode n → (s'.node n).children = (s.node n).children
  list : ∀ l, s.HasList l → (s'.list l).Sublist (s.list l)

theorem Retains.refl (s : Store) : s.Retains s where
  hasNode _ hn := hn
  hasList _ hl := hl
  node _ _ := rfl
  list _ _ := List.Sublist.refl _

theorem Retains.trans (h₁ : s.Retains s') (h₂ : s'.Retains s'') : s.Retains s'' where
  hasNode n hn := h₂.hasNode n (h₁.hasNode n hn)
  hasList l hl := h₂.hasList l (h₁.hasList l hl)
  node n hn := by rw [h₂.node n (h₁.hasNode n hn), h₁.node n hn]
  list l hl := (h₂.list l (h₁.hasList l hl)).trans (h₁.list l hl)

theorem Grows.retains (h : s.Grows s' fun _ => False) : s.Retains s' where
  hasNode := h.hasNode
  hasList := h.hasList
  node n hn := by rw [h.node n hn id]
  list l hl := by rw [h.list l hl]

theorem Retains.children (h : s.Retains s') (hclosed : s.Closed) (hn : s.HasNode n) :
    (s'.children n).Sublist (s.children n) := by
  unfold Store.children
  rw [h.node n hn]
  exact h.list _ (hclosed.children n hn)

/-- No old node has got longer paths below it. -/
theorem Retains.descends (h : s.Retains s') (hclosed : s.Closed) (hn : s.HasNode n)
    (hdown : s'.Descends d n) : s.Descends d n := by
  induction d generalizing n with
  | zero => simp
  | succ d ih =>
    obtain ⟨k, hk, hdown⟩ := hdown
    have hmem : k ∈ s.children n := (h.children hclosed hn).subset hk
    exact ⟨k, hmem, ih (hclosed.child hn hmem) hdown⟩

theorem Retains.subsides (h : s.Retains s') (hclosed : s.Closed) : s.Subsides s' where
  hasNode := h.hasNode
  hasList := h.hasList
  list := h.list
  height _ hn := height_le_height_iff.2 fun _ => h.descends hclosed hn

theorem Subsides.grounded (h : s.Subsides s') (hs : s.Sound) (hn : s.HasNode n) : s'.Grounded n :=
  (hs.grounded n hn).of_height_le (h.height n hn)

/-- New nodes make no cycles if their children are old ones. -/
theorem Retains.sound (h : s.Retains s') (hs : s.Sound) (hclosed : s'.Closed)
    (hnew : ∀ n, s'.HasNode n → ¬ s.HasNode n → ∀ k ∈ s'.children n, s.HasNode k) : s'.Sound where
  closed := hclosed
  grounded n hn := by
    have hold : ∀ k, s.HasNode k → s'.Grounded k := fun _ => (h.subsides hs.closed).grounded hs
    by_cases hn' : s.HasNode n
    · exact hold n hn'
    · exact grounded_of_children fun k hk => hold k (hnew n hn hn' k hk)

/-! ## Changes that touch no children -/

/-- The second store comes from the first by changes that touch no children: the fields of nodes are
changed, lists are made of nodes that are there, and nodes are made over lists that are there. -/
inductive KeepsChildren (s : Store) : Store → Prop
  | refl : KeepsChildren s s
  | setFields {s' : Store} (n : NodeId) (f : Fields) (before : KeepsChildren s s') :
      KeepsChildren s (s'.setNode n (f.over (s'.node n).children))
  | addList {s' : Store} (items : List NodeId) (before : KeepsChildren s s')
      (present : ∀ k ∈ items, s'.HasNode k) : KeepsChildren s (s'.addList items).2
  | addNode {s' : Store} (f : Fields) (l : ListId) (before : KeepsChildren s s')
      (present : s'.HasList l) : KeepsChildren s (s'.addNode (f.over l)).2

theorem KeepsChildren.trans (h₁ : s.KeepsChildren s') (h₂ : s'.KeepsChildren s'') :
    s.KeepsChildren s'' := by
  induction h₂ with
  | refl => exact h₁
  | setFields n f _ ih => exact .setFields n f ih
  | addList items _ hitems ih => exact .addList items ih hitems
  | addNode f l _ hl ih => exact .addNode f l ih hl

/-- Every node holds the list that it held when the fields of one are changed. -/
theorem children_setFields (s : Store) (n m : NodeId) (f : Fields) :
    ((s.setNode n (f.over (s.node n).children)).node m).children = (s.node m).children := by
  rw [node_setNode]
  by_cases hm : m = n ∧ s.HasNode n
  · rw [if_pos hm, hm.1]
    rfl
  · rw [if_neg hm]

theorem KeepsChildren.retains (h : s.KeepsChildren s') : s.Retains s' := by
  induction h with
  | refl => exact Retains.refl s
  | @setFields s' n f _ ih =>
    apply ih.trans
    constructor
    case hasNode => simp
    case hasList => simp
    case node =>
      intro m _
      exact children_setFields s' n m f
    case list => simp
  | addList items _ _ ih => exact ih.trans (grows_addList _ items _).retains
  | addNode f l _ _ ih => exact ih.trans (grows_addNode _ _ _).retains

/-- Changes that touch no children make no cycles. -/
theorem KeepsChildren.sound (h : s.KeepsChildren s') (hs : s.Sound) : s'.Sound := by
  induction h with
  | refl => exact hs
  | @setFields s' n f _ ih =>
    have hretains := (KeepsChildren.refl.setFields n f : s'.KeepsChildren _).retains
    refine hretains.sound ih ?_ fun m hm hnew => ?_
    · constructor
      case children =>
        intro m hm
        rw [children_setFields]
        exact ih.closed.children m (by simpa using hm)
      case members =>
        intro l hl k hk
        simpa using ih.closed.members l hl k hk
    · simp [hnew] at hm
  | @addList s' items _ hitems ih =>
    refine (grows_addList s' items _).retains.sound ih (closed_addList ih.closed hitems) ?_
    intro m hm hnew
    exact absurd hm hnew
  | @addNode s' f l _ hl ih =>
    refine (grows_addNode s' _ _).retains.sound ih (closed_addNode ih.closed hl) ?_
    intro m hm hnew k hk
    have hlast := ((hasNode_addNode s' (f.over l) m).1 hm).resolve_left hnew
    rw [Store.children, node_addNode, if_pos hlast] at hk
    exact ih.closed.members l hl k hk

theorem KeepsChildren.settles (h : s.KeepsChildren s') (hs : s.Sound) : s.Settles s' :=
  ⟨h.sound hs, h.retains.subsides hs.closed⟩

end DirectiveLowering.Store
