import DirectiveLowering.Proofs.Conversing
import DirectiveLowering.Proofs.Relocation

/-!
# Where nodes are after a pass

A pass that appends labels moves the content of a label behind the siblings of the label, below a new
fragment. Over a document without sharing, whose containers have one label at most, it loses no other
node than the labels of the containers that it rewrites, duplicates none, and keeps the order of the rest
except where it moves a label past its later siblings.

The store after the pass spells the skeleton in which the labels are moved. It is found from the inside
out: the body of a container, and the content of its label, are documents of their own by then.

Results:
* `slotted_or_kept`: what the fate of a node says about its children.
* `exists_moves`: the skeleton after a pass.
* `run_relocates`: where nodes are after a pass.
-/

namespace DirectiveLowering

open Skeleton

namespace Store

variable {s s' : Store} {n c k label fragment : NodeId} {sk sk' : Skeleton} {ks : List Skeleton}

/-! ## Containers that have lost their label -/

/-- The label of a container and the fragment at the end of its children, once the container has been
rewritten. -/
def cut (s s' : Store) (c : NodeId) : Option (NodeId × NodeId) :=
  if (s'.node c).isDirective then none
  else do
    let label ← s.ownLabel c
    let fragment ← (s'.children c).getLast?
    return (label, fragment)

theorem cut_eq_some : s.cut s' c = some (label, fragment) ↔
    (s'.node c).isDirective = false ∧ s.ownLabel c = some label ∧
      (s'.children c).getLast? = some fragment := by
  cases hdirective : (s'.node c).isDirective <;>
    simp [cut, hdirective, Option.bind_eq_some_iff]

/-- A node that is a directive still, or had no label, has lost nothing. -/
theorem cut_eq_none (h : (s'.node n).isDirective = false → s.ownLabel n = none) :
    s.cut s' n = none := by
  rw [Option.eq_none_iff_forall_ne_some]
  rintro ⟨label, fragment⟩ hcut
  obtain ⟨hplain, hlabel, -⟩ := cut_eq_some.1 hcut
  rw [h hplain] at hlabel
  cases hlabel

/-- Only directives have labels, and a node that is as it was is a directive if it was one. -/
theorem unlabelled_of_same (h : s'.node n = s.node n) (hplain : (s'.node n).isDirective = false) :
    s.ownLabel n = none := by
  rw [Option.eq_none_iff_forall_ne_some]
  intro label hlabel
  rw [h, isDirective_of_ownLabel hlabel] at hplain
  cases hplain

/-- A container that has been rewritten: its children are those that are no labels, and behind them a new
fragment over the children of its label. -/
structure Slotted (s s' : Store) (c label fragment : NodeId) : Prop where
  ownLabel : s.ownLabel c = some label
  rewritten : (s'.node c).isDirective = false
  hasList : s'.HasList (s'.node c).children
  children : s'.children c = s.withoutLabels (s.children c) ++ [fragment]
  new : ¬ s.HasNode fragment
  hasNode : s'.HasNode fragment
  fields : s'.node fragment = slotFields.over (s.node label).children
  kept : s'.node label = s.node label

theorem Slotted.cut_eq (h : Slotted s s' c label fragment) : s.cut s' c = some (label, fragment) := by
  refine cut_eq_some.2 ⟨h.rewritten, h.ownLabel, ?_⟩
  rw [h.children, List.getLast?_concat]

/-- A node that has its children still. If it has been rewritten, then it had no label. -/
structure Kept (s s' : Store) (n : NodeId) : Prop where
  unlabelled : (s'.node n).isDirective = false → s.ownLabel n = none
  sameList : (s'.node n).children = (s.node n).children
  children : s'.children n = s.children n

theorem slotted_or_kept {changed : NodeId → Prop} (h : Fate (· = true) s s' n) (hg : s.Grows s' changed)
    (hl : s.HasList (s.node n).children) :
    (∃ label fragment, Slotted s s' n label fragment) ∨ Kept s s' n := by
  cases h with
  | same hnode =>
    refine Or.inr ⟨unlabelled_of_same hnode, by rw [hnode], ?_⟩
    rw [Store.children, hnode, hg.list _ hl, Store.children]
  | lowered hdirective hlabel hplain hunmarked hnode =>
    refine Or.inr ⟨fun _ => hlabel, by rw [hnode]; rfl, ?_⟩
    rw [Store.children, hnode, Fields.children_over, hg.list _ hl, Store.children]
  | opened hdirective hlabel hslot hplain hunmarked hnode hlist hchildren hadded hkept =>
    subst hslot
    obtain ⟨fragment, rfl, hnew, hfragment, hfields⟩ := hadded
    refine Or.inl ⟨_, fragment, hlabel, ?_, ?_, ?_, hnew, hfragment, hfields, hkept⟩
    · rw [hnode]
      exact hplain
    · rw [hnode]
      exact hlist
    · rw [Store.children, hnode]
      exact hchildren

/-- Nothing becomes a label. -/
theorem Fate.unmarked (h : Fate (· = true) s s' n) (hn : s.isLabel n = false) :
    s'.isLabel n = false := by
  cases h with
  | same hnode =>
    rw [isLabel, hnode]
    exact hn
  | lowered _ _ _ hunmarked hnode | opened _ _ _ _ hunmarked hnode =>
    rw [isLabel, hnode]
    exact hunmarked

/-! ## The skeleton after a pass -/

/-- A container has one label at most. -/
def OneLabel (s : Store) (c : NodeId) : Prop :=
  (s.node c).type = NodeType.containerDirective → ((s.children c).filter s.isLabel).length ≤ 1

theorem filter_of_one {α : Type} {p : α → Bool} {before behind : List α} {x : α} (hx : p x = true)
    (hone : ((before ++ x :: behind).filter p).length ≤ 1) :
    (before ++ x :: behind).filter (fun y => !p y) = before ++ behind := by
  rw [List.filter_append, List.filter_cons_of_pos hx, List.length_append, List.length_cons] at hone
  have hkept : ∀ l : List α, (l.filter p).length = 0 → l.filter (fun y => !p y) = l := fun l hl =>
    List.filter_eq_self.2 fun y hy => by
      simpa using List.filter_eq_nil_iff.1 (List.length_eq_zero_iff.1 hl) y hy
  rw [List.filter_append, List.filter_cons_of_neg (by simp [hx]), hkept before (by omega),
    hkept behind (by omega)]

instance (s : Store) (c : NodeId) : Decidable (s.OneLabel c) :=
  inferInstanceAs (Decidable (_ → _))

/-- The children of a container with one label, around the label. -/
theorem exists_split (h : s.Spells (.node c ks)) (hone : s.OneLabel c)
    (hlabel : s.ownLabel c = some label) :
    ∃ before content behind, ks = before ++ .node label content :: behind ∧
      s.withoutLabels (s.children c) = (before ++ behind).map Skeleton.root := by
  obtain ⟨content, hfind⟩ := find?_of_ownLabel h hlabel
  obtain ⟨hmarked, before, behind, rfl, -⟩ := List.find?_eq_some_iff_append.1 hfind
  have hfew := hone (type_of_ownLabel hlabel)
  rw [(spells_node.1 h).2.2.1, List.filter_map, List.length_map] at hfew
  have hbody : s.bodyOf (before ++ .node label content :: behind) = before ++ behind :=
    filter_of_one hmarked hfew
  exact ⟨before, content, behind, rfl, by rw [withoutLabels_children h, hbody]⟩

/-- Documents that have been found one by one. -/
theorem exists_moves_all (h : ∀ k ∈ ks, ∃ u, u.root = k.root ∧ Moves (s.cut s') [k] [u] ∧ s'.Spells u) :
    ∃ us, us.map Skeleton.root = ks.map Skeleton.root ∧ Moves (s.cut s') ks us ∧
      ∀ u ∈ us, s'.Spells u := by
  induction ks with
  | nil => exact ⟨[], rfl, .nil, fun _ hu => absurd hu List.not_mem_nil⟩
  | cons k ks ih =>
    obtain ⟨u, hroot, hmoves, hspells⟩ := h k List.mem_cons_self
    obtain ⟨us, hroots, hrest, hall⟩ := ih fun k hk => h k (List.mem_cons_of_mem _ hk)
    refine ⟨u :: us, ?_, hmoves.cons hrest, List.forall_mem_cons.2 ⟨hspells, hall⟩⟩
    rw [List.map_cons, List.map_cons, hroot, hroots]

section Node

variable {changed : NodeId → Prop} {us vs : List Skeleton} (hg : s.Grows s' changed)
  (hn : s.HasNode n) (hus : ∀ u ∈ us, s'.Spells u)
include hg hn hus

theorem Kept.spells (h : Kept s s' n) (hl : s.HasList (s.node n).children)
    (hroots : s.children n = us.map Skeleton.root) : s'.Spells (.node n us) := by
  refine .node (hg.hasNode n hn) ?_ ?_ hus
  · rw [h.sameList]
    exact hg.hasList _ hl
  · rw [h.children, hroots]

/-- The body of a container, and the content of its label below the fragment. -/
theorem Slotted.spells (h : Slotted s s' n label fragment)
    (hroots : s.withoutLabels (s.children n) = us.map Skeleton.root)
    (hl : s.HasList (s.node label).children) (hcontent : s.children label = vs.map Skeleton.root)
    (hvs : ∀ v ∈ vs, s'.Spells v) : s'.Spells (.node n (us ++ [.node fragment vs])) := by
  refine .node (hg.hasNode n hn) h.hasList ?_ fun u hu => ?_
  · rw [h.children, hroots, List.map_append]
    rfl
  · rcases List.mem_append.1 hu with hu | hu
    · exact hus u hu
    · rw [List.mem_singleton.1 hu]
      exact spells_fragment h.hasNode h.fields (hg.hasList _ hl) ((hg.list _ hl).trans hcontent) hvs

end Node

/-- **The skeleton after a pass**: the labels of the containers that have been rewritten are moved. -/
theorem exists_moves {changed : NodeId → Prop} (hg : s.Grows s' changed) (sk : Skeleton)
    (hspells : s.Spells sk) (hfate : ∀ x ∈ sk.nodes, Fate (· = true) s s' x)
    (hone : ∀ x ∈ sk.nodes, s.OneLabel x) :
    ∃ sk', sk'.root = sk.root ∧ Moves (s.cut s') [sk] [sk'] ∧ s'.Spells sk' := by
  induction sk using Skeleton.induct with
  | node n ks ih =>
    obtain ⟨hn, hl, hroots, hbelow⟩ := spells_node.1 hspells
    have hin : ∀ k ∈ ks, ∀ x ∈ k.nodes, x ∈ (Skeleton.node n ks).nodes := fun k hk x hx =>
      List.mem_cons_of_mem _ (mem_nodesOf.2 ⟨k, hk, hx⟩)
    have hchild : ∀ k ∈ ks, ∃ u, u.root = k.root ∧ Moves (s.cut s') [k] [u] ∧ s'.Spells u :=
      fun k hk => (ih k hk).1 (hbelow k hk) (fun x hx => hfate x (hin k hk x hx))
        fun x hx => hone x (hin k hk x hx)
    rcases slotted_or_kept (hfate n List.mem_cons_self) hg hl with
      ⟨label, fragment, hslotted⟩ | hkept
    · obtain ⟨before, content, behind, rfl, hbody⟩ :=
        exists_split hspells (hone n List.mem_cons_self) hslotted.ownLabel
      have hk : Skeleton.node label content ∈ before ++ .node label content :: behind := by simp
      obtain ⟨hlabel, hlabelList, hcontentRoots, hcontent⟩ := spells_node.1 (hbelow _ hk)
      have hbodies : ∀ k ∈ before ++ behind, ∃ u, u.root = k.root ∧ Moves (s.cut s') [k] [u] ∧
          s'.Spells u := fun k hk => hchild k (Skeleton.body_sublist.subset hk)
      have hcontents : ∀ u ∈ content, ∃ v, v.root = u.root ∧ Moves (s.cut s') [u] [v] ∧
          s'.Spells v := fun u hu => by
        have hinner : ∀ x ∈ u.nodes, x ∈ (Skeleton.node n (before ++ .node label content :: behind)).nodes :=
          fun x hx => hin _ hk x (List.mem_cons_of_mem _ (mem_nodesOf.2 ⟨u, hu, hx⟩))
        exact (ih _ hk).2 u hu (hcontent u hu) (fun x hx => hfate x (hinner x hx))
          fun x hx => hone x (hinner x hx)
      obtain ⟨us, husRoots, husMoves, hus⟩ := exists_moves_all hbodies
      obtain ⟨vs, hvsRoots, hvsMoves, hvs⟩ := exists_moves_all hcontents
      refine ⟨.node n (us ++ [.node fragment vs]), rfl, .moved hslotted.cut_eq
        (cut_eq_none (unlabelled_of_same hslotted.kept)) husMoves hvsMoves .nil, ?_⟩
      exact hslotted.spells hg hn hus (hbody.trans husRoots.symm) hlabelList
        (hcontentRoots.trans hvsRoots.symm) hvs
    · obtain ⟨us, husRoots, husMoves, hus⟩ := exists_moves_all hchild
      exact ⟨.node n us, rfl, .kept (cut_eq_none hkept.unlabelled) husMoves .nil,
        hkept.spells hg hn hus hl (hroots.trans husRoots.symm)⟩

/-! ## Where nodes are -/

section Fates

variable {label' : NodeId} {c' : NodeId} (hfates : Fates (· = true) s sk.nodes s')
  (hspells : s.Spells sk)
include hfates hspells

theorem slotted_of_cut (hc : c ∈ sk.nodes) (hcut : s.cut s' c = some (label, fragment)) :
    Slotted s s' c label fragment := by
  rcases slotted_or_kept (hfates.fate c hc) hfates.grows (hspells.hasList hc) with
    ⟨_, _, hslotted⟩ | hkept
  · cases hslotted.cut_eq.symm.trans hcut
    exact hslotted
  · cases (cut_eq_none hkept.unlabelled).symm.trans hcut

/-- Each container has a fragment of its own: the fragment has the list of the label, lists are not
shared, and a label has one parent. -/
theorem container_unique (hlists : (sk.nodes.map fun n => (s.node n).children).Nodup)
    (hc : c ∈ sk.nodes) (hc' : c' ∈ sk.nodes) (hcut : s.cut s' c = some (label, fragment))
    (hcut' : s.cut s' c' = some (label', fragment)) : c = c' := by
  have h := slotted_of_cut hfates hspells hc hcut
  have h' := slotted_of_cut hfates hspells hc' hcut'
  have hchild := ownLabel_mem h.ownLabel
  have hchild' := ownLabel_mem h'.ownLabel
  have hlist := congrArg Node.children (h.fields.symm.trans h'.fields)
  rw [Fields.children_over, Fields.children_over] at hlist
  have hsame : label = label' := List.inj_on_of_nodup_map hlists
    (hspells.children_subset hc hchild) (hspells.children_subset hc' hchild') hlist
  exact hspells.parent_unique hlists.of_map hc hc' hchild (hsame ▸ hchild')

theorem nodup_with_fragments (hlists : (sk.nodes.map fun n => (s.node n).children).Nodup) :
    (sk.nodes ++ fragmentsOf (s.cut s') sk.nodes).Nodup := by
  refine List.nodup_append.2 ⟨hlists.of_map, ?_, ?_⟩
  · refine List.pairwise_filterMap.2 (hlists.of_map.imp_of_mem ?_)
    intro c c' hc hc' hne fragment hfragment fragment' hfragment' heq
    obtain ⟨⟨label, _⟩, hcut, rfl⟩ := Option.map_eq_some_iff.1 hfragment
    obtain ⟨⟨label', _⟩, hcut', rfl⟩ := Option.map_eq_some_iff.1 hfragment'
    obtain rfl := heq
    exact hne (container_unique hfates hspells hlists hc hc' hcut hcut')
  · rintro x hx y hy rfl
    obtain ⟨c, hc, label, hcut⟩ := mem_fragmentsOf.1 hy
    exact (slotted_of_cut hfates hspells hc hcut).new (hspells.hasNode hx)

/-- A container that has been rewritten has no label. -/
theorem unmarked_of_rewritten (hc : c ∈ sk.nodes)
    (htype : (s.node c).type = NodeType.containerDirective)
    (hrewritten : (s'.node c).isDirective = false) : ∀ k ∈ s'.children c, s'.isLabel k = false := by
  have hkept : ∀ k ∈ s.children c, s.isLabel k = false → s'.isLabel k = false := fun k hk =>
    (hfates.fate k (hspells.children_subset hc hk)).unmarked
  rcases slotted_or_kept (hfates.fate c hc) hfates.grows (hspells.hasList hc) with
    ⟨label, fragment, hslotted⟩ | hsame
  · intro k hk
    rw [hslotted.children] at hk
    rcases List.mem_append.1 hk with hk | hk
    · obtain ⟨hchild, hplain⟩ := List.mem_filter.1 hk
      exact hkept k hchild (by simpa using hplain)
    · rw [List.mem_singleton.1 hk, isLabel, hslotted.fields]
      rfl
  · intro k hk
    rw [hsame.children] at hk
    have hnone := hsame.unlabelled hrewritten
    rw [ownLabel, if_pos htype] at hnone
    exact hkept k hk (findLabel_eq_none_iff.1 hnone k hk)

end Fates

/-- Where the nodes of a document are after a pass that has appended labels. -/
structure Relocated (s s' : Store) (sk sk' : Skeleton) : Prop where
  /-- The document is a tree still: each of its nodes is reached in one way only. -/
  spells : s'.Spells sk'
  root : sk'.root = sk.root
  nodup : sk'.nodes.Nodup
  /-- The nodes are those that were there, less the labels, and the fragments. -/
  below : ∀ x, s'.Below sk.root x ↔
    s.Below sk.root x ∧ Survives (s.cut s') sk.nodes x ∨
      ∃ c ∈ sk.nodes, ∃ label, s.cut s' c = some (label, x)
  /-- Each container that had a label and has been rewritten has a new fragment behind its other
  children, over the children of the label. -/
  slotted : ∀ c ∈ sk.nodes, (s'.node c).isDirective = false → ∀ label, s.ownLabel c = some label →
    ∃ fragment, s.cut s' c = some (label, fragment) ∧ Slotted s s' c label fragment
  /-- Any other node has its children still. -/
  kept : ∀ n ∈ sk.nodes, s.cut s' n = none → s'.children n = s.children n
  /-- Each fragment is that of one container. -/
  container : ∀ c ∈ sk.nodes, ∀ c' ∈ sk.nodes, ∀ label label' fragment,
    s.cut s' c = some (label, fragment) → s.cut s' c' = some (label', fragment) → c = c'
  /-- No container that has been rewritten has a label. -/
  unmarked : ∀ c ∈ sk.nodes, (s.node c).type = NodeType.containerDirective →
    (s'.node c).isDirective = false → ∀ k ∈ s'.children c, s'.isLabel k = false
  /-- Two nodes that are still there keep their order, unless one is in a label and the other below a
  later sibling of the label; then the one in the label comes last. -/
  order : ∀ a b, Survives (s.cut s') sk.nodes a → Survives (s.cut s') sk.nodes b →
    List.Sublist [a, b] sk.nodes →
    (¬ Crosses (s.cut s') a b [sk] → List.Sublist [a, b] sk'.nodes) ∧
      (Crosses (s.cut s') a b [sk] → List.Sublist [b, a] sk'.nodes)

theorem exists_relocated (hfates : Fates (· = true) s sk.nodes s') (hspells : s.Spells sk)
    (hlists : (sk.nodes.map fun n => (s.node n).children).Nodup)
    (hone : ∀ c ∈ sk.nodes, s.OneLabel c) : ∃ sk', Relocated s s' sk sk' := by
  obtain ⟨sk', hroot, hmoves, hspells'⟩ := exists_moves hfates.grows sk hspells hfates.fate hone
  have hnodup := nodup_with_fragments hfates hspells hlists
  have hnodes : nodesOf [sk] = sk.nodes := nodesOf_singleton sk
  have hnodes' : nodesOf [sk'] = sk'.nodes := nodesOf_singleton sk'
  have hmem := fun x => hmoves.mem_iff (x := x) (by rwa [hnodes])
  rw [hnodes, hnodes'] at hmem
  refine ⟨sk', ?_⟩
  constructor
  case spells => exact hspells'
  case root => exact hroot
  case nodup =>
    rw [← hnodes']
    exact hmoves.nodup (by rwa [hnodes])
  case below =>
    intro x
    rw [← hroot, hspells'.below_iff, hroot, hspells.below_iff, hmem x, mem_fragmentsOf, ← survives_iff,
      or_and_right]
    refine or_congr Iff.rfl (and_iff_left_of_imp ?_)
    -- a fragment is new, so it is no label
    rintro ⟨c, hc, label, hcut⟩ c' hc' fragment hcut'
    have hchild := ownLabel_mem (slotted_of_cut hfates hspells hc' hcut').ownLabel
    exact (slotted_of_cut hfates hspells hc hcut).new
      (hspells.hasNode (hspells.children_subset hc' hchild))
  case slotted =>
    intro c hc hrewritten label hlabel
    rcases slotted_or_kept (hfates.fate c hc) hfates.grows (hspells.hasList hc) with
      ⟨_, fragment, hslotted⟩ | hkept
    · cases hslotted.ownLabel.symm.trans hlabel
      exact ⟨fragment, hslotted.cut_eq, hslotted⟩
    · cases (hkept.unlabelled hrewritten).symm.trans hlabel
  case kept =>
    intro n hn hcut
    rcases slotted_or_kept (hfates.fate n hn) hfates.grows (hspells.hasList hn) with
      ⟨label, fragment, hslotted⟩ | hkept
    · cases hslotted.cut_eq.symm.trans hcut
    · exact hkept.children
  case container =>
    exact fun c hc c' hc' _ _ _ => container_unique hfates hspells hlists hc hc'
  case unmarked =>
    exact fun c hc => unmarked_of_rewritten hfates hspells hc
  case order =>
    intro a b ha hb hab
    rw [← hnodes] at ha hb hab
    rw [← hnodes']
    refine ⟨(hmoves.order_kept ha hb hab).resolve_right, hmoves.order_changed ha hb ?_⟩
    rw [hnodes]
    exact hlists.of_map

end Store

namespace Pass

open Store

variable {σ : Type} {o : Options σ} {s : Store} {sk : Skeleton}

/-- **Where nodes are after a pass** that appends labels, over a document without shared nodes or lists
whose containers have one label at most. If a hook fails, this holds of the store that the pass leaves;
if none does and no directive carries attribute records, the pass comes to its end. -/
theorem run_relocates (h : o.Quiet (· = true)) (hspells : s.Spells sk)
    (hlists : (sk.nodes.map fun n => (s.node n).children).Nodup)
    (hone : ∀ c ∈ sk.nodes, s.OneLabel c) (m : σ) (books : Books) :
    ∃ budget v sk',
      (∀ b, budget ≤ b → left (run o b sk.root ⟨s, m, books⟩) = v) ∧
      ((∀ e, ¬ o.Raises e) → (∀ x ∈ sk.nodes, (s.node x).PlainAttributes) →
        ∀ b, budget ≤ b → run o b sk.root ⟨s, m, books⟩ = .ok () v) ∧
      Relocated s v.store sk sk' := by
  obtain ⟨budget, exchanges, v, hfates, hruns⟩ := run_performs h hspells hlists.of_map m books
  obtain ⟨sk', hrelocated⟩ := exists_relocated hfates hspells hlists hone
  refine ⟨budget, v, sk', fun b hb => ?_, fun hraises hplain b hb => ?_, hrelocated⟩
  · rcases (hruns b hb).2 with ⟨hok, -⟩ | ⟨e, herror, -⟩
    · rw [hok]
      rfl
    · rw [herror]
      rfl
  · rcases (hruns b hb).2 with ⟨hok, -⟩ | ⟨e, -, -, hraised | ⟨x, hx, hdirective, hentries⟩⟩
    · exact hok
    · exact absurd hraised (hraises e)
    · rw [attributeEntries_of_plain (hplain x hx) hdirective] at hentries
      cases hentries

/-- The directive of the label comes behind the directive beside the label, below a fragment. -/
theorem run_relocates_labelledNote :
    (∃ budget v sk',
      (∀ b, budget ≤ b →
        run (Choices.options {} slotLabel) b ⟨0⟩ ⟨labelledNoteStore, (), {}⟩ = .ok () v) ∧
      Relocated labelledNoteStore v.store labelledNoteSkeleton sk') ∧
    (left (run (Choices.options {} slotLabel) 20 ⟨0⟩ ⟨labelledNoteStore, (), {}⟩)).store.Spells
      (.node ⟨0⟩ [.node ⟨3⟩ [], .node ⟨5⟩ [.node ⟨2⟩ []]]) := by
  have hfollows : (Choices.options {} slotLabel : Options Unit).Follows {} :=
    Choices.follows_options {} slotLabel
  have hlabels : (Choices.options {} slotLabel : Options Unit).Labels true :=
    Options.labels_of_eq rfl
  have hspells : labelledNoteStore.Spells labelledNoteSkeleton := by decide
  have hlists : (labelledNoteSkeleton.nodes.map fun n => (labelledNoteStore.node n).children).Nodup := by
    decide
  have hone : ∀ c ∈ labelledNoteSkeleton.nodes, labelledNoteStore.OneLabel c := by decide
  have hnone : ∀ x ∈ labelledNoteSkeleton.nodes, (labelledNoteStore.node x).attributes = none := by
    decide
  obtain ⟨budget, v, sk', -, hok, hrelocated⟩ :=
    run_relocates (hfollows.quiet hlabels) hspells hlists hone () {}
  refine ⟨⟨budget, v, sk', ?_, hrelocated⟩, by decide +kernel⟩
  exact hok (fun e => hfollows.not_raises hlabels) fun x hx _ => Or.inl (hnone x hx)

end Pass

end DirectiveLowering
