import DirectiveLowering.Proofs.Calls
import DirectiveLowering.Proofs.Decoration
import Mathlib.Data.List.Flatten
import Mathlib.Data.List.Nodup
import Mathlib.Data.List.Pairwise

/-!
# Skeletons

The skeleton of a document is the tree of the identities of its nodes, without their fields. A store
spells a skeleton when its lists of children say the same; nothing in the document is shared as long as
the skeleton names no node twice.

The calls that a walk in document order makes can be read off a skeleton: each node with its position
and its parent, before the nodes below it.

Results:
* `Spells.below_iff`: the nodes of a skeleton are those below its root.
* `Spells.congr`: a store goes on spelling a skeleton while its nodes keep their children.
* `Spells.unique`: a root has one skeleton.
* `map_node_preorder`, `nodes_preorder_sublist`: the calls in document order name the nodes in that
  order.
-/

namespace DirectiveLowering

open scoped List

/-- A tree of identities of nodes. -/
inductive Skeleton
  | node (root : NodeId) (children : List Skeleton)

namespace Skeleton

/-- The node at the root. -/
def root : Skeleton → NodeId
  | node n _ => n

/-- The skeletons right below the root. -/
def children : Skeleton → List Skeleton
  | node _ ks => ks

mutual

/-- The nodes in document order. -/
def nodes : Skeleton → List NodeId
  | node n ks => n :: nodesOf ks

/-- The nodes of some skeletons, one after another. -/
def nodesOf : List Skeleton → List NodeId
  | [] => []
  | k :: ks => k.nodes ++ nodesOf ks

end

@[simp] theorem root_node (n : NodeId) (ks : List Skeleton) : (node n ks).root = n := rfl

@[simp] theorem children_node (n : NodeId) (ks : List Skeleton) : (node n ks).children = ks := rfl

@[simp] theorem nodes_node (n : NodeId) (ks : List Skeleton) :
    (node n ks).nodes = n :: nodesOf ks := rfl

@[simp] theorem nodesOf_nil : nodesOf [] = [] := rfl

@[simp] theorem nodesOf_cons (k : Skeleton) (ks : List Skeleton) :
    nodesOf (k :: ks) = k.nodes ++ nodesOf ks := rfl

theorem nodesOf_singleton (k : Skeleton) : nodesOf [k] = k.nodes :=
  List.append_nil _

theorem nodesOf_eq_flatMap (ks : List Skeleton) : nodesOf ks = ks.flatMap nodes := by
  induction ks with
  | nil => rfl
  | cons k ks ih => rw [nodesOf_cons, ih, List.flatMap_cons]

theorem nodesOf_append (ks us : List Skeleton) :
    nodesOf (ks ++ us) = nodesOf ks ++ nodesOf us := by
  simp only [nodesOf_eq_flatMap, List.flatMap_append]

theorem mem_nodesOf {ks : List Skeleton} {x : NodeId} :
    x ∈ nodesOf ks ↔ ∃ k ∈ ks, x ∈ k.nodes := by
  rw [nodesOf_eq_flatMap, List.mem_flatMap]

theorem root_mem_nodes (sk : Skeleton) : sk.root ∈ sk.nodes := by
  cases sk
  exact List.mem_cons_self

theorem nodesOf_sublist {ks us : List Skeleton} (h : ks <+ us) : nodesOf ks <+ nodesOf us := by
  rw [nodesOf_eq_flatMap, nodesOf_eq_flatMap]
  exact h.flatMap nodes

theorem nodes_sublist_nodesOf {k : Skeleton} {ks : List Skeleton} (h : k ∈ ks) :
    k.nodes <+ nodesOf ks := by
  have hone := nodesOf_sublist (List.singleton_sublist.2 h)
  rwa [nodesOf_singleton] at hone

theorem eq_of_map_root {ks us : List Skeleton} (hroots : us.map root = ks.map root)
    (hsame : ∀ u ∈ us, ∀ k ∈ ks, u.root = k.root → u = k) : us = ks := by
  induction ks generalizing us with
  | nil => exact List.map_eq_nil_iff.1 hroots
  | cons k ks ih =>
    cases us with
    | nil => cases hroots
    | cons u us =>
      obtain ⟨hroot, hrest⟩ := List.cons.inj hroots
      rw [hsame u List.mem_cons_self k List.mem_cons_self hroot, ih hrest fun u hu k hk =>
        hsame u (List.mem_cons_of_mem _ hu) k (List.mem_cons_of_mem _ hk)]

/-- Induction on a skeleton by way of its children and grandchildren: the content of a label moves up
one level when the label's container is lowered. -/
theorem induct {p : Skeleton → Prop}
    (node : ∀ n ks, (∀ k ∈ ks, p k ∧ ∀ u ∈ k.children, p u) → p (.node n ks)) : ∀ sk, p sk
  | .node n ks => node n ks fun k _hk => ⟨induct node k, fun u _hu => induct node u⟩
termination_by sk => sizeOf sk
decreasing_by
  all_goals
    have hchild := List.sizeOf_lt_of_mem _hk
    simp only [Skeleton.node.sizeOf_spec]
  · omega
  · obtain ⟨m, us⟩ := k
    have hgrandchild : sizeOf u < sizeOf us := List.sizeOf_lt_of_mem _hu
    simp only [Skeleton.node.sizeOf_spec] at hchild
    omega

/-! ## Calls in document order -/

open Walk (Call)

mutual

/-- The calls of a walk in document order that leaves out what is below skipped nodes. -/
def preorder (skipped : NodeId → Bool) (index : Option Nat) (parent : Option NodeId) :
    Skeleton → List Call
  | node n ks => ⟨n, index, parent⟩ :: if skipped n then [] else preorderFrom skipped n 0 ks

/-- The calls for the children of a node from a position on. -/
def preorderFrom (skipped : NodeId → Bool) (parent : NodeId) (position : Nat) :
    List Skeleton → List Call
  | [] => []
  | k :: ks => k.preorder skipped (some position) (some parent) ++
      preorderFrom skipped parent (position + 1) ks

end

variable {skipped : NodeId → Bool}

mutual

/-- Without skipped nodes every node is called in document order. -/
theorem map_node_preorder (i : Option Nat) (p : Option NodeId) :
    ∀ sk : Skeleton, (sk.preorder (fun _ => false) i p).map Call.node = sk.nodes
  | node n ks => by
    rw [preorder, List.map_cons, if_neg (by simp), map_node_preorderFrom n 0 ks, nodes]

theorem map_node_preorderFrom (p : NodeId) (i : Nat) :
    ∀ ks : List Skeleton, (preorderFrom (fun _ => false) p i ks).map Call.node = nodesOf ks
  | [] => rfl
  | k :: ks => by
    rw [preorderFrom, List.map_append, map_node_preorder _ _ k, map_node_preorderFrom p (i + 1) ks,
      nodesOf]

end

mutual

/-- The calls name nodes of the skeleton, in document order. -/
theorem nodes_preorder_sublist (i : Option Nat) (p : Option NodeId) :
    ∀ sk : Skeleton, (sk.preorder skipped i p).map Call.node <+ sk.nodes
  | node n ks => by
    rw [preorder, nodes, List.map_cons]
    refine List.Sublist.cons_cons _ ?_
    by_cases h : skipped n = true
    · rw [if_pos h]
      exact List.nil_sublist _
    · rw [if_neg h]
      exact nodes_preorderFrom_sublist n 0 ks

theorem nodes_preorderFrom_sublist (p : NodeId) (i : Nat) :
    ∀ ks : List Skeleton, (preorderFrom skipped p i ks).map Call.node <+ nodesOf ks
  | [] => List.nil_sublist _
  | k :: ks => by
    rw [preorderFrom, nodesOf, List.map_append]
    exact (nodes_preorder_sublist _ _ k).append (nodes_preorderFrom_sublist p (i + 1) ks)

end

end Skeleton

namespace Store

/-! ## Spelling a skeleton -/

/-- The lists of children below a node are as the skeleton says. -/
inductive Spells (s : Store) : Skeleton → Prop
  | node {n : NodeId} {ks : List Skeleton} :
      s.HasNode n → s.HasList (s.node n).children → s.children n = ks.map Skeleton.root →
      (∀ k ∈ ks, Spells s k) → Spells s (.node n ks)

variable {s s' : Store} {sk : Skeleton} {n : NodeId} {ks : List Skeleton}

theorem spells_node : s.Spells (.node n ks) ↔
    s.HasNode n ∧ s.HasList (s.node n).children ∧ s.children n = ks.map Skeleton.root ∧
      ∀ k ∈ ks, s.Spells k :=
  ⟨fun | .node hn hl hks hbelow => ⟨hn, hl, hks, hbelow⟩,
    fun ⟨hn, hl, hks, hbelow⟩ => .node hn hl hks hbelow⟩

mutual

/-- Whether a store spells a skeleton can be computed. -/
def decideSpells (s : Store) : (sk : Skeleton) → Decidable (s.Spells sk)
  | .node n ks =>
    have := decideSpellsAll s ks
    decidable_of_iff (s.HasNode n ∧ s.HasList (s.node n).children ∧
      s.children n = ks.map Skeleton.root ∧ ∀ k ∈ ks, s.Spells k) spells_node.symm

/-- Whether a store spells some skeletons can be computed. -/
def decideSpellsAll (s : Store) : (ks : List Skeleton) → Decidable (∀ k ∈ ks, s.Spells k)
  | [] => isTrue fun _ hk => nomatch hk
  | k :: ks =>
    have := decideSpells s k
    have := decideSpellsAll s ks
    decidable_of_iff (s.Spells k ∧ ∀ k ∈ ks, s.Spells k) List.forall_mem_cons.symm

end

instance (s : Store) (sk : Skeleton) : Decidable (s.Spells sk) :=
  decideSpells s sk

/-- Any node of a skeleton has a skeleton of its own in it. -/
theorem Spells.at {x : NodeId} (h : s.Spells sk) (hx : x ∈ sk.nodes) :
    ∃ us, s.Spells (.node x us) ∧ (Skeleton.node x us).nodes <+ sk.nodes := by
  induction h with
  | @node n ks hn hl hks hbelow ih =>
    rcases List.mem_cons.1 hx with rfl | hx
    · exact ⟨ks, .node hn hl hks hbelow, List.Sublist.refl _⟩
    · obtain ⟨k, hk, hx⟩ := Skeleton.mem_nodesOf.1 hx
      obtain ⟨us, hus, hsub⟩ := ih k hk hx
      exact ⟨us, hus, (hsub.trans (Skeleton.nodes_sublist_nodesOf hk)).cons n⟩

theorem Spells.hasNode {x : NodeId} (h : s.Spells sk) (hx : x ∈ sk.nodes) : s.HasNode x := by
  obtain ⟨us, hus, -⟩ := h.at hx
  exact (spells_node.1 hus).1

theorem Spells.hasList {x : NodeId} (h : s.Spells sk) (hx : x ∈ sk.nodes) :
    s.HasList (s.node x).children := by
  obtain ⟨us, hus, -⟩ := h.at hx
  exact (spells_node.1 hus).2.1

theorem Spells.children_subset {x k : NodeId} (h : s.Spells sk) (hx : x ∈ sk.nodes)
    (hk : k ∈ s.children x) : k ∈ sk.nodes := by
  obtain ⟨us, hus, hsub⟩ := h.at hx
  obtain ⟨-, -, hchildren, -⟩ := spells_node.1 hus
  rw [hchildren] at hk
  obtain ⟨u, hu, rfl⟩ := List.mem_map.1 hk
  have hroot := (Skeleton.nodes_sublist_nodesOf hu).subset u.root_mem_nodes
  exact hsub.subset (List.mem_cons_of_mem _ hroot)

/-- Each node but the root is a child of a node, once. -/
theorem Spells.perm (h : s.Spells sk) : sk.nodes ~ sk.root :: sk.nodes.flatMap s.children := by
  induction h with
  | @node n ks hn hl hks hbelow ih =>
    have hforest : Skeleton.nodesOf ks ~
        ks.map Skeleton.root ++ (Skeleton.nodesOf ks).flatMap s.children := by
      clear hks hbelow
      induction ks with
      | nil => exact List.Perm.refl _
      | cons k ks ihks =>
        have hfirst := (ih k List.mem_cons_self).append
          (ihks fun u hu => ih u (List.mem_cons_of_mem _ hu))
        rw [Skeleton.nodesOf_cons, List.flatMap_append, List.map_cons, List.cons_append]
        refine hfirst.trans (List.Perm.cons _ ?_)
        exact List.perm_append_comm_assoc _ _ _
    rw [Skeleton.nodes_node, List.flatMap_cons, hks]
    exact hforest.cons n

/-- In a document without sharing a node has one parent. -/
theorem Spells.parent_unique {c c' k : NodeId} (h : s.Spells sk) (hnodup : sk.nodes.Nodup)
    (hc : c ∈ sk.nodes) (hc' : c' ∈ sk.nodes) (hk : k ∈ s.children c) (hk' : k ∈ s.children c') :
    c = c' := by
  have hchildren := (List.nodup_cons.1 (h.perm.nodup_iff.1 hnodup)).2
  have hapart := (List.nodup_flatMap.1 hchildren).2
  have hsymm : Std.Symm (List.Disjoint.onFun s.children) :=
    ⟨fun _ _ hd _ hk hk' => hd hk' hk⟩
  by_cases hsame : c = c'
  · exact hsame
  · exact absurd hk' (hapart.forall hc hc' hsame hk)

/-- The nodes of a skeleton are those below its root. -/
theorem Spells.below_iff {x : NodeId} (h : s.Spells sk) :
    s.Below sk.root x ↔ x ∈ sk.nodes := by
  constructor
  · intro hx
    induction hx with
    | root => exact sk.root_mem_nodes
    | child _ hk ih => exact h.children_subset ih hk
  · intro hx
    induction h with
    | @node n ks hn hl hks hbelow ih =>
      rcases List.mem_cons.1 hx with rfl | hx
      · exact .root
      · obtain ⟨k, hk, hx⟩ := Skeleton.mem_nodesOf.1 hx
        have hchild : k.root ∈ s.children n := by
          rw [hks]
          exact List.mem_map_of_mem hk
        have hlower : ∀ {r m : NodeId}, r ∈ s.children n → s.Below r m → s.Below n m := by
          intro r m hr hm
          induction hm with
          | root => exact .child .root hr
          | child _ hk ih => exact .child ih hk
        exact hlower hchild (ih k hk hx)

/-- Only the nodes of the skeleton matter, and of these only the children. -/
theorem Spells.congr (h : s.Spells sk) (hnode : ∀ x ∈ sk.nodes, s'.HasNode x)
    (hlist : ∀ x ∈ sk.nodes, s'.HasList (s'.node x).children)
    (hsame : ∀ x ∈ sk.nodes, s'.children x = s.children x) : s'.Spells sk := by
  induction h with
  | @node n ks hn hl hks hbelow ih =>
    have hin : ∀ k ∈ ks, ∀ x ∈ k.nodes, x ∈ (Skeleton.node n ks).nodes := fun k hk x hx =>
      List.mem_cons_of_mem _ (Skeleton.mem_nodesOf.2 ⟨k, hk, hx⟩)
    refine .node (hnode n List.mem_cons_self) (hlist n List.mem_cons_self) ?_ fun k hk => ?_
    · rw [hsame n List.mem_cons_self, hks]
    · exact ih k hk (fun x hx => hnode x (hin k hk x hx)) (fun x hx => hlist x (hin k hk x hx))
        fun x hx => hsame x (hin k hk x hx)

theorem Spells.of_grows {changed : NodeId → Prop} (h : s.Spells sk) (hg : s.Grows s' changed)
    (hkept : ∀ x ∈ sk.nodes, ¬ changed x) : s'.Spells sk := by
  have hnode : ∀ x ∈ sk.nodes, s'.node x = s.node x := fun x hx =>
    hg.node x (h.hasNode hx) (hkept x hx)
  refine h.congr (fun x hx => hg.hasNode x (h.hasNode hx)) (fun x hx => ?_) fun x hx => ?_
  · rw [hnode x hx]
    exact hg.hasList _ (h.hasList hx)
  · rw [Store.children, hnode x hx, hg.list _ (h.hasList hx), Store.children]

/-- A root has one skeleton. -/
theorem Spells.unique (h : s.Spells sk) {sk' : Skeleton} (h' : s.Spells sk')
    (hroot : sk'.root = sk.root) : sk' = sk := by
  induction h generalizing sk' with
  | @node n ks hn hl hks hbelow ih =>
    obtain ⟨m, us⟩ := sk'
    obtain rfl : m = n := hroot
    obtain ⟨-, -, hus, hbelow'⟩ := spells_node.1 h'
    rw [Skeleton.eq_of_map_root (hus.symm.trans hks) fun u hu k hk => ih k hk (hbelow' u hu)]

end Store

end DirectiveLowering
