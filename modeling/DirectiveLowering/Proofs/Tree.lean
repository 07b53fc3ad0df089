import DirectiveLowering.Proofs.Growth

/-!
# Trees in a store

A node of a store with everything below it is a tree when it is finite and nothing in it is met twice.
A store holds a tree at a node; the cells it takes up for that, nodes and lists, are listed in document
order, and nothing is shared as long as no cell is listed twice.

Results:
* `Holds.of_grows`: a store goes on holding a tree whose nodes are not changed.
* `HoldsAll.partition`: labels and other children of a node take up cells of their own.
* `Turns.trans`, `Turns.append`: changes of a tree one after the other, and of trees side by side.
-/

namespace DirectiveLowering

/-- A tree of nodes without identities. -/
inductive Tree
  | node (fields : Fields) (children : List Tree)

namespace Tree

/-- Fields of the root. -/
def fields : Tree → Fields
  | node f _ => f

/-- Trees below the root. -/
def children : Tree → List Tree
  | node _ ts => ts

/-- Whether the root is marked as a label. -/
def isLabel (t : Tree) : Bool :=
  t.fields.isLabel

/-- The fields of every node have a property. -/
inductive Everywhere (p : Fields → Prop) : Tree → Prop
  | node {f : Fields} {ts : List Tree} :
      p f → (∀ t ∈ ts, Everywhere p t) → Everywhere p (.node f ts)

theorem everywhere_node {p : Fields → Prop} {f : Fields} {ts : List Tree} :
    (node f ts).Everywhere p ↔ p f ∧ ∀ t ∈ ts, t.Everywhere p :=
  ⟨fun | .node hf hts => ⟨hf, hts⟩, fun ⟨hf, hts⟩ => .node hf hts⟩

theorem Everywhere.imp {p q : Fields → Prop} (hpq : ∀ f, p f → q f) :
    ∀ {t : Tree}, t.Everywhere p → t.Everywhere q
  | _, .node hf hts => .node (hpq _ hf) fun t ht => (hts t ht).imp hpq

/-- Induction on a tree by way of its children and grandchildren: the content of a label moves up one
level when the label's container is lowered. -/
theorem induct {p : Tree → Prop}
    (node : ∀ f ts, (∀ t ∈ ts, p t ∧ ∀ u ∈ t.children, p u) → p (.node f ts)) :
    ∀ t, p t
  | .node f ts => node f ts fun t _ht => ⟨induct node t, fun u _hu => induct node u⟩
termination_by t => sizeOf t
decreasing_by
  all_goals
    have hchild := List.sizeOf_lt_of_mem _ht
    simp only [Tree.node.sizeOf_spec]
  · omega
  · obtain ⟨g, us⟩ := t
    have hgrandchild : sizeOf u < sizeOf us := List.sizeOf_lt_of_mem _hu
    simp only [Tree.node.sizeOf_spec] at hchild
    omega

end Tree

/-- A place in a store. -/
inductive Cell
  | node (n : NodeId)
  | list (l : ListId)
deriving DecidableEq, Repr

namespace Store

/-! ## Holding a tree -/

/-- Whether the place is there. -/
def Has (s : Store) : Cell → Prop
  | .node n => s.HasNode n
  | .list l => s.HasList l

mutual

/-- The store holds a tree at a node, in these cells. -/
inductive Holds (s : Store) : NodeId → Tree → List Cell → Prop
  | node {n : NodeId} {l : ListId} {f : Fields} {ts : List Tree} {cells : List Cell} :
      s.HasNode n → s.node n = f.over l → s.HasList l → HoldsAll s (s.list l) ts cells →
      Holds s n (.node f ts) (.node n :: .list l :: cells)

/-- The store holds trees at nodes, one by one, in these cells. -/
inductive HoldsAll (s : Store) : List NodeId → List Tree → List Cell → Prop
  | nil : HoldsAll s [] [] []
  | cons {n : NodeId} {ns : List NodeId} {t : Tree} {ts : List Tree} {cells rest : List Cell} :
      Holds s n t cells → HoldsAll s ns ts rest →
      HoldsAll s (n :: ns) (t :: ts) (cells ++ rest)

end

/-- The store holds a tree at a node, and nothing in it is shared. -/
def HoldsTree (s : Store) (n : NodeId) (t : Tree) : Prop :=
  ∃ cells, s.Holds n t cells ∧ cells.Nodup

variable {s s' s'' : Store} {changed : NodeId → Prop}

mutual

theorem Holds.of_grows {n : NodeId} {t : Tree} {cells : List Cell} (hg : s.Grows s' changed) :
    s.Holds n t cells → (∀ m, .node m ∈ cells → ¬ changed m) → s'.Holds n t cells
  | .node hn hf hl hts, hkept => by
    have hts' := hts.of_grows hg fun m hm => hkept m (by simp [hm])
    rw [← hg.list _ hl] at hts'
    refine .node (hg.hasNode _ hn) ?_ (hg.hasList _ hl) hts'
    rw [hg.node _ hn (hkept _ (by simp)), hf]

theorem HoldsAll.of_grows {ns : List NodeId} {ts : List Tree} {cells : List Cell}
    (hg : s.Grows s' changed) :
    s.HoldsAll ns ts cells → (∀ m, .node m ∈ cells → ¬ changed m) → s'.HoldsAll ns ts cells
  | .nil, _ => .nil
  | .cons ht hts, hkept => by
    refine .cons (ht.of_grows hg fun m hm => ?_) (hts.of_grows hg fun m hm => ?_)
    · exact hkept m (List.mem_append_left _ hm)
    · exact hkept m (List.mem_append_right _ hm)

end

mutual

theorem Holds.has {n : NodeId} {t : Tree} {cells : List Cell} :
    s.Holds n t cells → ∀ cell ∈ cells, s.Has cell
  | .node hn _ hl hts => by
    intro cell hcell
    rcases List.mem_cons.1 hcell with rfl | hcell
    · exact hn
    rcases List.mem_cons.1 hcell with rfl | hcell
    · exact hl
    · exact hts.has cell hcell

theorem HoldsAll.has {ns : List NodeId} {ts : List Tree} {cells : List Cell} :
    s.HoldsAll ns ts cells → ∀ cell ∈ cells, s.Has cell
  | .nil => by simp
  | .cons ht hts => by
    intro cell hcell
    rcases List.mem_append.1 hcell with hcell | hcell
    · exact ht.has cell hcell
    · exact hts.has cell hcell

end

theorem Holds.isLabel {n : NodeId} {t : Tree} {cells : List Cell} (h : s.Holds n t cells) :
    s.isLabel n = t.isLabel := by
  cases h with
  | node _ hf _ _ => rw [Store.isLabel, hf, Tree.isLabel, Tree.fields, Fields.over]

theorem HoldsAll.mem_cells {ns : List NodeId} {ts : List Tree} {cells : List Cell}
    (h : s.HoldsAll ns ts cells) : ∀ n ∈ ns, .node n ∈ cells := by
  induction ts generalizing ns cells with
  | nil =>
    cases h
    simp
  | cons t ts ih =>
    cases h with
    | cons ht hts =>
      intro n hn
      rcases List.mem_cons.1 hn with rfl | hn
      · cases ht with
        | node => exact List.mem_cons_self
      · exact List.mem_append_right _ (ih hts n hn)

mutual

/-- The children of a node in a tree are in that tree. -/
theorem Holds.family {n k : NodeId} {t : Tree} {cells : List Cell} :
    s.Holds n t cells → .node k ∈ cells →
    s.HasList (s.node k).children ∧ ∀ m ∈ s.children k, .node m ∈ cells
  | .node hn hf hl hts, hk => by
    rcases List.mem_cons.1 hk with hk | hk
    · cases hk
      rw [Store.children, hf, Fields.children_over]
      exact ⟨hl, fun m hm => by simp [hts.mem_cells m hm]⟩
    · rcases List.mem_cons.1 hk with hk | hk
      · cases hk
      · obtain ⟨hlist, hmembers⟩ := hts.family hk
        exact ⟨hlist, fun m hm => by simp [hmembers m hm]⟩

theorem HoldsAll.family {ns : List NodeId} {k : NodeId} {ts : List Tree} {cells : List Cell} :
    s.HoldsAll ns ts cells → .node k ∈ cells →
    s.HasList (s.node k).children ∧ ∀ m ∈ s.children k, .node m ∈ cells
  | .nil, hk => nomatch hk
  | .cons ht hts, hk => by
    rcases List.mem_append.1 hk with hk | hk
    · exact (ht.family hk).imp_right fun h m hm => List.mem_append_left _ (h m hm)
    · exact (hts.family hk).imp_right fun h m hm => List.mem_append_right _ (h m hm)

end

theorem HoldsAll.append {ns ns' : List NodeId} {ts ts' : List Tree} {cells cells' : List Cell}
    (h : s.HoldsAll ns ts cells) (h' : s.HoldsAll ns' ts' cells') :
    s.HoldsAll (ns ++ ns') (ts ++ ts') (cells ++ cells') := by
  induction ts generalizing ns cells with
  | nil =>
    cases h
    exact h'
  | cons t ts ih =>
    cases h with
    | cons ht hts =>
      rw [List.append_assoc]
      exact .cons ht (ih hts)

theorem HoldsAll.singleton {n : NodeId} {t : Tree} {cells : List Cell} (h : s.Holds n t cells) :
    s.HoldsAll [n] [t] cells := by
  have hall := HoldsAll.cons h .nil
  rwa [List.append_nil] at hall

theorem HoldsAll.of_singleton {n : NodeId} {t : Tree} {cells : List Cell}
    (h : s.HoldsAll [n] [t] cells) : s.Holds n t cells := by
  cases h with
  | cons ht hnil =>
    cases hnil
    rwa [List.append_nil]

/-- Labels and other children take up cells of their own. -/
theorem HoldsAll.partition {ns : List NodeId} {ts : List Tree} {cells : List Cell}
    (h : s.HoldsAll ns ts cells) : ∃ body labels,
      s.HoldsAll (s.withoutLabels ns) (ts.filter fun t => !t.isLabel) body ∧
      s.HoldsAll (ns.filter s.isLabel) (ts.filter Tree.isLabel) labels ∧
      (body ++ labels).Perm cells := by
  induction ts generalizing ns cells with
  | nil =>
    cases h
    exact ⟨[], [], .nil, .nil, List.Perm.refl _⟩
  | cons t ts ih =>
    cases h with
    | @cons n ns _ _ own rest ht hts =>
      obtain ⟨body, labels, hbody, hlabels, hperm⟩ := ih hts
      have hlabel := ht.isLabel
      rw [withoutLabels] at hbody ⊢
      cases hmark : t.isLabel with
      | true =>
        rw [hmark] at hlabel
        refine ⟨body, own ++ labels, ?_, ?_, ?_⟩
        · simpa [hlabel, hmark] using hbody
        · simpa [hlabel, hmark] using HoldsAll.cons ht hlabels
        · -- the label's cells move to the front of the labels'
          rw [← List.append_assoc]
          refine (List.perm_append_comm.append_right labels).trans ?_
          rw [List.append_assoc]
          exact hperm.append_left own
      | false =>
        rw [hmark] at hlabel
        refine ⟨own ++ body, labels, ?_, ?_, ?_⟩
        · simpa [hlabel, hmark] using HoldsAll.cons ht hbody
        · simpa [hlabel, hmark] using hlabels
        · rw [List.append_assoc]
          exact hperm.append_left own

/-! ## Changing a tree -/

/-- What was held in some cells is held in others: the store has grown, nodes outside the cells are as
they were, and the cells taken up now are old ones or new to the store, each of them once. -/
structure Turns (s : Store) (cells : List Cell) (s' : Store) (cells' : List Cell) : Prop where
  grows : s.Grows s' (.node · ∈ cells)
  nodup : cells'.Nodup
  fresh : ∀ cell ∈ cells', cell ∈ cells ∨ ¬ s.Has cell

variable {a a' a'' b b' : List Cell}

theorem Grows.has (h : s.Grows s' changed) {cell : Cell} (hc : s.Has cell) : s'.Has cell := by
  cases cell with
  | node n => exact h.hasNode n hc
  | list l => exact h.hasList l hc

theorem Turns.refl (s : Store) (h : a.Nodup) : s.Turns a s a where
  grows := Grows.refl s _
  nodup := h
  fresh _ hcell := Or.inl hcell

theorem Turns.trans (h₁ : s.Turns a s' a') (h₂ : s'.Turns a' s'' a'') : s.Turns a s'' a'' where
  grows := by
    refine h₁.grows.trans h₂.grows fun n hn hout hin => ?_
    rcases h₁.fresh _ hin with hold | hnew
    · exact hout hold
    · exact hnew hn
  nodup := h₂.nodup
  fresh cell hcell := by
    rcases h₂.fresh cell hcell with hcell | hnew
    · exact h₁.fresh cell hcell
    · exact Or.inr fun hold => hnew (h₁.grows.has hold)

/-- Trees side by side: the second one stays as it is while the first one changes. -/
theorem Turns.append (h₁ : s.Turns a s' a') (h₂ : s'.Turns b s'' b') (hnodup : (a ++ b).Nodup)
    (hb : ∀ cell ∈ b, s.Has cell) (ha' : ∀ cell ∈ a', s'.Has cell) :
    s.Turns (a ++ b) s'' (a' ++ b') where
  grows := by
    have h₁' := h₁.grows.mono fun n _ (hn : .node n ∈ a) => List.mem_append_left b hn
    exact h₁'.trans h₂.grows fun n _ hout hin => hout (List.mem_append_right a hin)
  nodup := by
    refine List.nodup_append.2 ⟨h₁.nodup, h₂.nodup, ?_⟩
    rintro x hx₁ _ hx₂ rfl
    rcases h₂.fresh x hx₂ with hxb | hnew
    · rcases h₁.fresh x hx₁ with hxa | hnew
      · exact (List.nodup_append.1 hnodup).2.2 x hxa x hxb rfl
      · exact hnew (hb x hxb)
    · exact hnew (ha' x hx₁)
  fresh cell hcell := by
    rcases List.mem_append.1 hcell with hcell | hcell
    · exact (h₁.fresh cell hcell).imp_left (List.mem_append_left b)
    · rcases h₂.fresh cell hcell with hcell | hnew
      · exact Or.inl (List.mem_append_right a hcell)
      · exact Or.inr fun hold => hnew (h₁.grows.has hold)

end Store

end DirectiveLowering
