import DirectiveLowering.Proofs.Lowered

/-!
# The root of a tree

What the visitor of a pass does at the root of a tree. It turns that one node into what it will be and
leaves everything below as it is, so that the trees below are still to be lowered. What it leaves takes
up no more cells than what it found: its own or new ones, each of them once.

Results:
* `lower_plainTree`, `lower_labelledTree`: how the directive at the root is lowered, without and with a
  label.
* `opens_tree`: what the visitor does at the root of any tree.
-/

namespace DirectiveLowering

namespace Store

variable {s s' : Store} {n : NodeId} {l : ListId} {f : Fields} {ts : List Tree} {cells : List Cell}

/-! ## Overwriting the root of a tree -/

theorem holds_setNode (hn : s.HasNode n) (hl : s.HasList l) (hts : s.HoldsAll (s.list l) ts cells)
    (hout : .node n ∉ cells) :
    (s.setNode n (f.over l)).Holds n (.node f ts) (.node n :: .list l :: cells) := by
  have hts' := hts.of_grows (grows_setNode s n (f.over l)) fun m hm hmn => hout (hmn ▸ hm)
  refine .node ((hasNode_setNode s n n _).2 hn) ?_ ((hasList_setNode s n _ l).2 hl) hts'
  rw [node_setNode, if_pos ⟨rfl, hn⟩]

theorem turns_setNode {cells' : List Cell} {l' : ListId} {x : Node}
    (hg : s.Grows s' fun _ => False) (hnodup : (.node n :: .list l' :: cells').Nodup)
    (hl : .list l' ∈ Cell.node n :: .list l :: cells ∨ ¬ s.HasList l')
    (hfresh : ∀ cell ∈ cells', cell ∈ cells ∨ ¬ s.Has cell) :
    s.Turns (.node n :: .list l :: cells) (s'.setNode n x) (.node n :: .list l' :: cells') where
  grows := by
    have hfirst : s.Grows s' (.node · ∈ Cell.node n :: .list l :: cells) :=
      hg.mono fun _ _ => False.elim
    apply hfirst.trans (grows_setNode s' n x)
    intro m _ hout hm
    rw [hm] at hout
    exact hout List.mem_cons_self
  nodup := hnodup
  fresh cell hcell := by
    rcases List.mem_cons.1 hcell with rfl | hcell
    · exact Or.inl List.mem_cons_self
    rcases List.mem_cons.1 hcell with rfl | hcell
    · exact hl
    · exact (hfresh cell hcell).imp_left fun h =>
        List.mem_cons_of_mem _ (List.mem_cons_of_mem _ h)

/-! ## Handing on a label -/

/-- A store after the label of a container was handed on: some trees have been added to the element's
list, in cells of the label or new ones. -/
structure Handed (s s₂ : Store) (element : NodeId) (labels : List Cell) (added : List Tree)
    (s' : Store) : Prop where
  grows : s.Grows s' fun _ => False
  sameElement : s'.node element = s₂.node element
  hasList : s'.HasList (s₂.node element).children
  appended : ∃ extra cells, s'.list (s₂.node element).children = s₂.children element ++ extra ∧
    s'.HoldsAll extra added cells ∧ cells.Nodup ∧ cells.length ≤ labels.length ∧
    ∀ cell ∈ cells, cell ∈ labels ∨ (¬ s.Has cell ∧ cell ≠ .list (s₂.node element).children)

variable {s₂ : Store} {element : NodeId} {labels : List Cell}

theorem handed_discard (hg : s.Grows s₂ fun _ => False) (hl : s₂.HasList (s₂.node element).children) :
    s.Handed s₂ element labels [] s₂ where
  grows := hg
  sameElement := rfl
  hasList := hl
  appended := ⟨[], [], (List.append_nil _).symm, .nil, List.nodup_nil, Nat.zero_le _, by simp⟩

/-- An old store only grows when a fragment is appended to a new list. -/
theorem grows_appendSlot (hg : s.Grows s₂ fun _ => False) (helement : s₂.HasNode element)
    (hnew : ¬ s.HasList (s₂.node element).children) (k : ListId) :
    s.Grows (s₂.appendSlot element k) fun _ => False where
  hasNode n hn := (hasNode_appendSlot s₂ k helement n).2 (Or.inl (hg.hasNode n hn))
  hasList l hl := (hasList_appendSlot s₂ k helement l).2 (hg.hasList l hl)
  node n hn hc := by
    have hold : n ≠ s₂.nextNode := by
      rintro rfl
      exact not_hasNode_nextNode s₂ (hg.hasNode _ hn)
    rw [node_appendSlot s₂ k helement, if_neg hold, hg.node n hn hc]
  list l hl := by
    have hold : l ≠ (s₂.node element).children := by
      rintro rfl
      exact hnew hl
    rw [list_appendSlot s₂ k helement, if_neg fun h => hold h.1, hg.list l hl]

theorem handed_slot {label : NodeId} {content : List Tree} {more : List Cell} {k : ListId}
    (hg : s.Grows s₂ fun _ => False) (helement : s₂.HasNode element)
    (hl : s₂.HasList (s₂.node element).children) (hnew : ¬ s.HasList (s₂.node element).children)
    (hk : s.HasList k) (hcontent : s.HoldsAll (s.list k) content cells)
    (hnodup : (Cell.node label :: .list k :: cells).Nodup)
    (hlabels : labels = Cell.node label :: .list k :: cells ++ more) :
    s.Handed s₂ element labels [.node slotFields content] (s₂.appendSlot element k) := by
  have hfresh : ∀ n, s₂.HasNode n → n ≠ s₂.nextNode := by
    rintro n hn rfl
    exact not_hasNode_nextNode s₂ hn
  have hgrows := grows_appendSlot hg helement hnew k
  have hheld : (s₂.appendSlot element k).Holds s₂.nextNode (.node slotFields content)
      (.node s₂.nextNode :: .list k :: cells) := by
    refine .node ((hasNode_appendSlot s₂ k helement _).2 (Or.inr rfl)) ?_
      (hgrows.hasList k hk) ?_
    · rw [node_appendSlot s₂ k helement, if_pos rfl]
    · rw [hgrows.list k hk]
      exact hcontent.of_grows hgrows fun _ _ => id
  have hnext : ¬ s.Has (.node s₂.nextNode) := fun h => hfresh _ (hg.hasNode _ h) rfl
  refine ⟨hgrows, ?_, (hasList_appendSlot s₂ k helement _).2 hl, [s₂.nextNode],
    .node s₂.nextNode :: .list k :: cells, ?_, .singleton hheld, ?_, ?_, ?_⟩
  · rw [node_appendSlot s₂ k helement, if_neg (hfresh element helement)]
  · rw [list_appendSlot s₂ k helement, if_pos ⟨rfl, hl⟩]
    rfl
  · refine List.nodup_cons.2 ⟨fun hin => ?_, (List.nodup_cons.1 hnodup).2⟩
    rcases List.mem_cons.1 hin with h | h
    · cases h
    · exact hnext (hcontent.has _ h)
  · rw [hlabels]
    simp only [List.length_append, List.length_cons]
    omega
  · intro cell hcell
    rcases List.mem_cons.1 hcell with rfl | hcell
    · exact Or.inr ⟨hnext, fun h => by cases h⟩
    · rw [hlabels]
      exact Or.inl (List.mem_append_left _ (List.mem_cons_of_mem _ hcell))

/-- What becomes of a label: a fragment at the end of an element's children, or nothing. -/
def label (slot : Bool) (element : NodeId) (content : ListId) (s : Store) : Store :=
  if slot then s.appendSlot element content else s

end Store

/-- The label hook appends every label as a fragment, or drops every label, and does nothing else to
the documents. -/
def Options.Labels {σ : Type} (o : Options σ) (slot : Bool) : Prop :=
  ∀ element content w,
    ∃ m, o.handleLabel element content w = .ok () ⟨w.store.label slot element content, m⟩

theorem Options.labels_of_eq {σ : Type} {o : Options σ} {slot : Bool}
    (h : o.handleLabel = if slot then slotLabel else discardLabel) : o.Labels slot := by
  intro element content w
  refine ⟨w.memory, ?_⟩
  rw [h]
  cases slot <;> rfl

/-! ## What the root becomes -/

section Open

open Store

/-- The root of a tree is what it will be, and the trees below it are still to be lowered. -/
def Choices.Opens (c : Choices) (slot : Bool) (s : Store) (n : NodeId) (t : Tree)
    (cells : List Cell) (s' : Store) : Prop :=
  ∃ f ts cells', s'.Holds n (.node f ts) cells' ∧ s.Turns cells s' cells' ∧
    cells'.length ≤ cells.length ∧
    c.lowerTree slot t = .node f (ts.map (c.lowerTree slot)) ∧
    ∀ u ∈ ts, u.Everywhere Fields.PlainAttributes

variable {c : Choices} {slot : Bool} {s : Store} {n : NodeId} {l : ListId} {f : Fields}
  {ts : List Tree} {cells : List Cell}

theorem opens_of_none (hfate : c.fate f = none) (h : s.Holds n (.node f ts) cells)
    (hnodup : cells.Nodup) (hplain : ∀ u ∈ ts, u.Everywhere Fields.PlainAttributes) :
    c.Opens slot s n (.node f ts) cells s := by
  refine ⟨f, ts, cells, h, Turns.refl s hnodup, Nat.le_refl _, ?_, hplain⟩
  rw [Choices.lowerTree_of_none hfate, Choices.lowerAll_eq_map]

theorem opens_plain {kind : DirectiveKind} {e : Node} (hfate : c.fate f = some kind)
    (hlabel : kind = .container → ts.filter Tree.isLabel = []) (hn : s.HasNode n)
    (hl : s.HasList l) (hts : s.HoldsAll (s.list l) ts cells)
    (hnodup : (Cell.node n :: .list l :: cells).Nodup)
    (hplain : ∀ u ∈ ts, u.Everywhere Fields.PlainAttributes) :
    c.Opens slot s n (.node f ts) (.node n :: .list l :: cells)
      ((s.addNode e).2.setNode n ((c.lowered kind f).over l)) := by
  have hg := grows_addNode s e fun _ => False
  have hout : Cell.node n ∉ cells := fun hin =>
    (List.nodup_cons.1 hnodup).1 (List.mem_cons_of_mem _ hin)
  have hts' := hts.of_grows hg fun _ _ => id
  refine ⟨c.lowered kind f, ts, _, holds_setNode (hg.hasNode n hn) hl hts' hout,
    turns_setNode hg hnodup (Or.inl ?_) fun _ => Or.inl, Nat.le_refl _, ?_, hplain⟩
  · exact List.mem_cons_of_mem _ List.mem_cons_self
  · exact Choices.lowerTree_plain hfate hlabel

/-- A label's content satisfies what the tree that it comes from satisfies. -/
theorem everywhere_slotTrees {g : Fields} {content : List Tree}
    (h : (Tree.node g content).Everywhere Fields.PlainAttributes) :
    ∀ u ∈ Choices.slotTrees slot content, u.Everywhere Fields.PlainAttributes := by
  intro u hu
  cases h with
  | node _ hcontent =>
    rw [Choices.slotTrees] at hu
    cases slot with
    | false => cases hu
    | true =>
      rw [if_pos rfl, List.mem_singleton] at hu
      rw [hu]
      exact .node (fun hdirective => absurd hdirective (by decide)) hcontent

/-- Cells of the body of a container and cells of what its label becomes are apart, and apart from the
container itself and its new list. -/
theorem nodup_opened {body labels added : List Cell} {k : ListId}
    (hcells : ∀ cell ∈ cells, s.Has cell) (hperm : (body ++ labels).Perm cells)
    (hnodup : (Cell.node n :: .list l :: cells).Nodup) (hn : s.HasNode n) (hnew : ¬ s.HasList k)
    (hadded : added.Nodup)
    (hfrom : ∀ cell ∈ added, cell ∈ labels ∨ (¬ s.Has cell ∧ cell ≠ .list k)) :
    (Cell.node n :: .list k :: (body ++ added)).Nodup := by
  have hin : ∀ cell, cell ∈ body ∨ cell ∈ labels → cell ∈ cells :=
    fun cell h => hperm.subset (List.mem_append.2 h)
  have hparts := List.nodup_append.1 ((hperm.nodup_iff).2
    (List.nodup_cons.1 (List.nodup_cons.1 hnodup).2).2)
  have hout : Cell.node n ∉ cells := fun h =>
    (List.nodup_cons.1 hnodup).1 (List.mem_cons_of_mem _ h)
  have hnode : Cell.node n ∉ body ++ added := by
    intro h
    rcases List.mem_append.1 h with h | h
    · exact hout (hin _ (Or.inl h))
    · rcases hfrom _ h with h | ⟨h, -⟩
      · exact hout (hin _ (Or.inr h))
      · exact h hn
  have hlist : Cell.list k ∉ body ++ added := by
    intro h
    rcases List.mem_append.1 h with h | h
    · exact hnew (hcells _ (hin _ (Or.inl h)))
    · rcases hfrom _ h with h | ⟨-, h⟩
      · exact hnew (hcells _ (hin _ (Or.inr h)))
      · exact h rfl
  have happart : (body ++ added).Nodup := by
    refine List.nodup_append.2 ⟨hparts.1, hadded, ?_⟩
    rintro x hx _ hx' rfl
    rcases hfrom x hx' with h | ⟨h, -⟩
    · exact hparts.2.2 x hx x h rfl
    · exact h (hcells x (hin x (Or.inl hx)))
  refine List.nodup_cons.2 ⟨?_, List.nodup_cons.2 ⟨hlist, happart⟩⟩
  intro h
  rcases List.mem_cons.1 h with h | h
  · cases h
  · exact hnode h

theorem opens_labelled {g : Fields} {content more : List Tree} {body labels : List Cell}
    {element : NodeId} {s₂ s' : Store} (hfate : c.fate f = some .container)
    (hlabel : ts.filter Tree.isLabel = .node g content :: more) (hn : s.HasNode n)
    (hbody : s.HoldsAll (s₂.children element) (ts.filter fun t => !t.isLabel) body)
    (hperm : (body ++ labels).Perm cells) (hcells : ∀ cell ∈ cells, s.Has cell)
    (hnodup : (Cell.node n :: .list l :: cells).Nodup)
    (hnew : ¬ s.HasList (s₂.node element).children)
    (hhanded : s.Handed s₂ element labels (Choices.slotTrees slot content) s')
    (hplain : ∀ u ∈ ts, u.Everywhere Fields.PlainAttributes) :
    c.Opens slot s n (.node f ts) (.node n :: .list l :: cells)
      (s'.setNode n ((c.lowered .container f).over (s₂.node element).children)) := by
  obtain ⟨hg, -, hl', extra, added, hlist, hextra, hadded, hlength, hfrom⟩ := hhanded
  have hnodup' := nodup_opened hcells hperm hnodup hn hnew hadded hfrom
  have hout : Cell.node n ∉ body ++ added := fun h =>
    (List.nodup_cons.1 hnodup').1 (List.mem_cons_of_mem _ h)
  have hall := (hbody.of_grows hg fun _ _ => id).append hextra
  rw [← hlist] at hall
  refine ⟨c.lowered .container f, _, _, holds_setNode (hg.hasNode n hn) hl' hall hout,
    turns_setNode hg hnodup' (Or.inr hnew) ?_, ?_, Choices.lowerTree_labelled hfate hlabel, ?_⟩
  · intro cell hcell
    rcases List.mem_append.1 hcell with h | h
    · exact Or.inl (hperm.subset (List.mem_append_left labels h))
    · rcases hfrom cell h with h | ⟨h, -⟩
      · exact Or.inl (hperm.subset (List.mem_append_right body h))
      · exact Or.inr h
  · have hsize := hperm.length_eq
    simp only [List.length_cons, List.length_append] at hsize ⊢
    omega
  · intro u hu
    rcases List.mem_append.1 hu with hu | hu
    · exact hplain u (List.mem_filter.1 hu).1
    · refine everywhere_slotTrees (hplain (.node g content) ?_) u hu
      have hmem : Tree.node g content ∈ ts.filter Tree.isLabel := by
        rw [hlabel]
        exact List.mem_cons_self
      exact (List.mem_filter.1 hmem).1

/-! ## The visitor at the root -/

theorem findLabel_eq_none {ns : List NodeId} {labels : List Cell}
    (h : s.HoldsAll (ns.filter s.isLabel) [] labels) : s.findLabel ns = none := by
  rw [Store.findLabel, ← List.head?_filter]
  generalize ns.filter s.isLabel = marked at h
  cases h
  rfl

/-- The label that is found is the first one of the trees. -/
theorem exists_findLabel {ns : List NodeId} {labels : List Cell} {g : Fields}
    {content more : List Tree}
    (h : s.HoldsAll (ns.filter s.isLabel) (.node g content :: more) labels) :
    ∃ label k own rest, s.findLabel ns = some label ∧ s.HasNode label ∧
      s.node label = g.over k ∧ s.HasList k ∧ s.HoldsAll (s.list k) content own ∧
      labels = Cell.node label :: .list k :: own ++ rest := by
  rw [Store.findLabel, ← List.head?_filter]
  generalize ns.filter s.isLabel = marked at h
  cases h with
  | @cons label ids _ _ cells rest hfirst hothers =>
    cases hfirst with
    | @node _ k _ _ own hlabel hfields hk hcontent =>
      exact ⟨label, k, own, rest, rfl, hlabel, hfields, hk, hcontent, rfl⟩

theorem attributeEntries_of_plain (h : f.PlainAttributes) (hdirective : f.isDirective = true) :
    attributeEntries f.attributes = .ok f.entries := by
  rcases h hdirective with ha | ⟨entries, ha⟩
  · rw [Fields.entries, ha]
    rfl
  · rw [Fields.entries, ha]
    rfl

/-- What the hook of a label leaves behind, whether it drops the label or appends it. -/
theorem handed_label {element label : NodeId} {k : ListId} {s₁ : Store} {content : List Tree}
    {own : List Cell} {items : List NodeId} (hgains : s.Gains f items element s₁) (hk : s.HasList k)
    (hcontent : s.HoldsAll (s.list k) content own)
    (hnodup : (Cell.node label :: .list k :: own).Nodup) (more : List Cell) :
    s.Handed s₁ element (Cell.node label :: .list k :: own ++ more)
      (Choices.slotTrees slot content) (s₁.label slot element k) := by
  cases slot with
  | false => exact handed_discard hgains.grows hgains.hasList
  | true =>
    exact handed_slot hgains.grows hgains.hasNode hgains.hasList hgains.newList hk hcontent hnodup rfl

end Open

namespace Pass

open Store

variable {σ : Type} {o : Options σ} {c : Choices} {slot : Bool}

section Lower

variable (h : o.Follows c) {s : Store} {n : NodeId} {l : ListId} {f : Fields} {ts : List Tree}
  {cells : List Cell} (hattributes : attributeEntries f.attributes = .ok f.entries)
  (hn : s.HasNode n) (hf : s.node n = f.over l) (hl : s.HasList l)
  (hts : s.HoldsAll (s.list l) ts cells) (hnodup : (Cell.node n :: .list l :: cells).Nodup)
  (hplain : ∀ u ∈ ts, u.Everywhere Fields.PlainAttributes) (m : σ) (events : List HookEvent)
  (books : Books)
include h hattributes hn hf hl hts hnodup hplain

theorem lower_plainTree {kind : DirectiveKind} (hfate : c.fate f = some kind)
    (hlabel : kind = .container → ts.filter Tree.isLabel = []) :
    ∃ s' m' events' books', lower o.recorded n ⟨s, (m, events), books⟩ =
        .ok () ⟨s', (m', events'), books'⟩ ∧
      c.Opens slot s n (.node f ts) (.node n :: .list l :: cells) s' := by
  have hfields : (s.node n).toFields = f := by rw [hf, Fields.toFields_over]
  have hchildren : (s.node n).children = l := by rw [hf, Fields.children_over]
  have hkind : DirectiveKind.ofType? (s.node n).type = some kind := by
    rw [hfields]
    exact (Choices.fate_eq_some hfate).2
  rw [← hfields] at hattributes
  have hnone : kind = .container → s.findLabel (s.children n) = none := by
    intro hk
    obtain ⟨body, labels, -, hlabels, -⟩ := hts.partition
    rw [hlabel hk] at hlabels
    rw [Store.children, hchildren]
    exact findLabel_eq_none hlabels
  obtain ⟨m', notices, hlower⟩ := lower_plain h m events books hn hkind hattributes hnone rfl
  rw [hfields, hchildren] at hlower
  exact ⟨_, m', _, _, hlower, opens_plain hfate hlabel hn hl hts hnodup hplain⟩

omit hl in
theorem lower_labelledTree (hhook : o.Labels slot)
    {g : Fields} {content more : List Tree} (hfate : c.fate f = some .container)
    (hmarked : ts.filter Tree.isLabel = .node g content :: more) :
    ∃ s' m' events' books', lower o.recorded n ⟨s, (m, events), books⟩ =
        .ok () ⟨s', (m', events'), books'⟩ ∧
      c.Opens slot s n (.node f ts) (.node n :: .list l :: cells) s' := by
  have hfields : (s.node n).toFields = f := by rw [hf, Fields.toFields_over]
  have hchildren : (s.node n).children = l := by rw [hf, Fields.children_over]
  have hkind : DirectiveKind.ofType? (s.node n).type = some .container := by
    rw [hfields]
    exact (Choices.fate_eq_some hfate).2
  rw [← hfields] at hattributes
  obtain ⟨body, labels, hbody, hlabels, hperm⟩ := hts.partition
  rw [hmarked] at hlabels
  obtain ⟨label, k, own, rest, hfind, hlabelNode, hlabelFields, hk, hcontent, rfl⟩ :=
    exists_findLabel hlabels
  have hlabelCells : (Cell.node label :: .list k :: own).Nodup := by
    have hall := (hperm.nodup_iff).2 (List.nodup_cons.1 (List.nodup_cons.1 hnodup).2).2
    exact (List.nodup_append.1 (List.nodup_append.1 hall).2.1).1
  rw [← hchildren, ← Store.children] at hfind
  -- the new element, and what the hook does with the label
  obtain ⟨element, s₁, hadd, hgains⟩ :=
    exists_gains s (c.element .container (s.node n).toFields) (s.withoutLabels (s.children n))
  have hcontentList : k = (s₁.node label).children := by
    rw [hgains.grows.node label hlabelNode id, hlabelFields]
    rfl
  obtain ⟨s', m', notices, hhanded, hlower⟩ := lower_labelled h m events books hkind
    hattributes hfind hadd hcontentList fun m => by
      obtain ⟨m', hm⟩ := hhook element k ⟨s₁, m⟩
      exact ⟨_, m', hm, handed_label hgains hk hcontent hlabelCells rest⟩
  have hnode : s'.node n = f.over l := by
    rw [hhanded.grows.node n hn id, hf]
  have hover : (s'.node n).overwrite (s'.node element) =
      (c.lowered .container f).over (s₁.node element).children := by
    rw [hnode, hhanded.sameElement, hgains.fields, hfields]
    rfl
  rw [hover] at hlower
  refine ⟨_, m', _, _, hlower, opens_labelled hfate hmarked hn ?_ hperm hts.has hnodup
    hgains.newList hhanded hplain⟩
  rw [hgains.children, Store.children, hchildren]
  exact hbody

/-- The directive at the root of a tree is lowered. -/
theorem lower_tree (hhook : o.Labels slot)
    {kind : DirectiveKind} (hfate : c.fate f = some kind) :
    ∃ s' m' events' books', lower o.recorded n ⟨s, (m, events), books⟩ =
        .ok () ⟨s', (m', events'), books'⟩ ∧
      c.Opens slot s n (.node f ts) (.node n :: .list l :: cells) s' := by
  by_cases hlabel : kind = .container → ts.filter Tree.isLabel = []
  · exact lower_plainTree h hattributes hn hf hl hts hnodup hplain m events books hfate hlabel
  · obtain ⟨rfl, hsome⟩ := Classical.not_imp.1 hlabel
    obtain ⟨⟨g, content⟩, more, hmarked⟩ := List.exists_cons_of_ne_nil hsome
    exact lower_labelledTree h hattributes hn hf hts hnodup hplain m events books hhook hfate
      hmarked

end Lower

/-- The visitor goes on with the children of what it leaves at the root. -/
theorem opens_tree (h : o.Follows c) (hhook : o.Labels slot) {s : Store} {n : NodeId}
    {t : Tree} {cells : List Cell} (hheld : s.Holds n t cells) (hnodup : cells.Nodup)
    (hplain : t.Everywhere Fields.PlainAttributes) (i : Option Nat) (p : Option NodeId) (m : σ)
    (events : List HookEvent) (books : Books) :
    ∃ s' m' events' books', Walk.enter (.oneOf directiveTypes) (visitor o.recorded) n i p
        ⟨s, (m, events), books⟩ = .ok .proceed ⟨s', (m', events'), books'⟩ ∧
      c.Opens slot s n t cells s' := by
  have hheld' := hheld
  cases hheld with
  | @node _ l f ts cells hn hf hl hts =>
    have hfields : (s.node n).toFields = f := by rw [hf, Fields.toFields_over]
    cases hplain with
    | node hattributes hplain =>
      by_cases hdirective : f.isDirective = true
      · have hvisit := enter_directive i p (o := o.recorded) (n := n) (w := ⟨s, (m, events), books⟩)
          (by rw [hfields]; exact hdirective)
        by_cases hleft : c.leavesAlone f = true
        · obtain ⟨m', events', books', hleave, -, -⟩ :=
            visit_left_alone h m events books (by rw [hfields]; exact hleft)
          rw [hleave] at hvisit
          exact ⟨s, m', events', books', hvisit,
            opens_of_none (by rw [Choices.fate, if_pos hleft]) hheld' hnodup hplain⟩
        · obtain ⟨kind, hfate⟩ := Choices.fate_of_directive hdirective hleft
          obtain ⟨m₁, htaken⟩ := visit_taken h m events books
            (by rw [hfields]; simpa using hleft)
          obtain ⟨s', m', events', books', hlower, hopens⟩ := lower_tree h
            (attributeEntries_of_plain hattributes hdirective) hn hf hl hts hnodup hplain m₁
            (events ++ [.filter n (s.node n)]) { books with stats := books.stats.visit } hhook hfate
          rw [htaken, hlower] at hvisit
          exact ⟨s', m', events', books', hvisit, hopens⟩
      · have hother : (s.node n).isDirective = false := by
          rw [hfields]
          simpa using hdirective
        have hfate : c.fate f = none := Choices.fate_of_other (by simpa using hdirective)
        exact ⟨s, m, events, books, enter_other i p hother,
          opens_of_none hfate hheld' hnodup hplain⟩

end Pass

end DirectiveLowering
