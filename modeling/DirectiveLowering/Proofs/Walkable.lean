import Mathlib.Data.Fintype.EquivFin
import DirectiveLowering.Proofs.Overwriting
import DirectiveLowering.Proofs.Recursion

/-!
# Documents that can be walked

A finite document without cycles can be walked: there is nothing deeper below a node than some number.
When a directive is lowered, its children come from below it, or are new nodes over the list of one of
its children; so whatever could be walked can still be walked, and it has not become deeper. A walk whose
visitor does no more than that comes to its end.

A walk from a node also meets no other directives than those which are as they were at first. The two go
together, since both are about everything below a node.

Results:
* `exists_walkable`: every node of a closed store without cycles can be walked.
* `Walkable.of_lowers`: lowering a directive spares what could be walked.
* `walkFrom_returns`, `run_returns`: a walk over what can be walked comes to its end.
-/

namespace DirectiveLowering

namespace Store

/-! ## Depth -/

/-- No node is below one of its children. -/
def Acyclic (s : Store) : Prop :=
  ∀ n, s.HasNode n → ∀ k ∈ s.children n, ¬ s.Below k n

/-- There are no cycles where every child ranks lower than its parents. -/
theorem acyclic_of_rank {s : Store} (hclosed : s.Closed) (rank : NodeId → Nat)
    (hrank : ∀ n, s.HasNode n → ∀ k ∈ s.children n, rank k < rank n) : s.Acyclic := by
  have hbelow : ∀ n k, s.HasNode n → s.Below n k → rank k ≤ rank n := by
    intro n k hn hk
    induction hk with
    | root => exact Nat.le_refl _
    | child hr hk ih => exact Nat.le_trans (Nat.le_of_lt (hrank _ (hclosed.below hn hr) _ hk)) ih
  intro n hn k hk hunder
  exact Nat.lt_irrefl _ (Nat.lt_of_lt_of_le (hrank n hn k hk) (hbelow k n (hclosed.child hn hk) hunder))

/-- Nothing below the node is deeper than so much, and whatever is a directive there was in the first
store and is as it was then. -/
inductive Walkable (s₀ s : Store) : Nat → NodeId → Prop
  | node {depth : Nat} {n : NodeId} (hasNode : s.HasNode n)
      (same : (s.node n).isDirective = true → s₀.HasNode n ∧ s.node n = s₀.node n)
      (children : ∀ k ∈ s.children n, Walkable s₀ s depth k) : Walkable s₀ s (depth + 1) n

variable {s₀ s s' s'' : Store} {n k : NodeId} {depth : Nat}

theorem Walkable.mono (h : Walkable s₀ s depth n) {depth' : Nat} (hle : depth ≤ depth') :
    Walkable s₀ s depth' n := by
  induction h generalizing depth' with
  | node hn hsame _ ih =>
    cases depth' with
    | zero => exact absurd hle (Nat.not_succ_le_zero _)
    | succ depth' => exact .node hn hsame fun k hk => ih k hk (Nat.le_of_succ_le_succ hle)

theorem Walkable.hasNode (h : Walkable s₀ s depth n) : s.HasNode n := by
  cases h with
  | node hn _ _ => exact hn

theorem Walkable.same (h : Walkable s₀ s depth n) (hn : (s.node n).isDirective = true) :
    s₀.HasNode n ∧ s.node n = s₀.node n := by
  cases h with
  | node _ hsame _ => exact hsame hn

theorem Walkable.child (h : Walkable s₀ s depth n) (hk : k ∈ s.children n) :
    Walkable s₀ s (depth - 1) k := by
  cases h with
  | node _ _ hchildren => exact hchildren k hk

theorem Walkable.under (h : Walkable s₀ s depth n) (hk : s.Below n k) : Walkable s₀ s depth k := by
  induction hk with
  | root => exact h
  | child _ hk ih => exact (ih.child hk).mono (Nat.sub_le _ _)

/-! ## Depth of documents without cycles -/

/-- The nodes of a list can be walked to one depth if each of them can be walked. -/
theorem exists_walkable_of_forall {items : List NodeId}
    (h : ∀ k ∈ items, ∃ depth, Walkable s₀ s depth k) :
    ∃ depth, ∀ k ∈ items, Walkable s₀ s depth k := by
  induction items with
  | nil => exact ⟨0, fun _ hk => absurd hk List.not_mem_nil⟩
  | cons first rest ih =>
    obtain ⟨depth₁, hfirst⟩ := h first List.mem_cons_self
    obtain ⟨depth₂, hrest⟩ := ih fun k hk => h k (List.mem_cons_of_mem _ hk)
    refine ⟨max depth₁ depth₂, fun k hk => ?_⟩
    rcases List.mem_cons.1 hk with rfl | hk
    · exact hfirst.mono (Nat.le_max_left _ _)
    · exact (hrest k hk).mono (Nat.le_max_right _ _)

/-- The node of the one number is below a child of the node of the other. -/
def UnderChild (s : Store) (i j : Fin s.nodes.size) : Prop :=
  ∃ k ∈ s.children ⟨j⟩, s.Below k ⟨i⟩

theorem wellFounded_underChild (h : s.Acyclic) : WellFounded s.UnderChild := by
  have : IsTrans _ s.UnderChild := by
    refine ⟨fun i j _ ⟨k, hk, hi⟩ ⟨r, hr, hj⟩ => ⟨r, hr, hj.trans ((Below.child .root hk).trans hi)⟩⟩
  have : Std.Irrefl s.UnderChild := ⟨fun i ⟨k, hk, hi⟩ => h ⟨i⟩ i.isLt k hk hi⟩
  exact Finite.wellFounded_of_trans_of_irrefl _

/-- **Every node of a closed store without cycles can be walked.** -/
theorem exists_walkable (hclosed : s.Closed) (hacyclic : s.Acyclic) (hn : s.HasNode n) :
    ∃ depth, Walkable s s depth n := by
  have hall : ∀ i : Fin s.nodes.size, ∃ depth, Walkable s s depth ⟨i⟩ := by
    intro i
    induction i using (wellFounded_underChild hacyclic).induction with
    | _ i ih =>
      obtain ⟨depth, hchildren⟩ := exists_walkable_of_forall fun k hk =>
        ih ⟨k.index, hclosed.child (n := ⟨i⟩) i.isLt hk⟩ ⟨k, hk, .root⟩
      exact ⟨depth + 1, .node i.isLt (fun _ => ⟨i.isLt, rfl⟩) hchildren⟩
  exact hall ⟨n.index, hn⟩

/-! ## Lowering a directive -/

/-- What could be walked can be walked when a directive has been lowered, and is no deeper. -/
theorem Walkable.of_lowers {m : NodeId} (h : s.Lowers m s') (hclosed : s.Closed)
    (hn : Walkable s₀ s depth n) : Walkable s₀ s' depth n := by
  induction depth using Nat.strong_induction_on generalizing n with
  | _ depth ih =>
    cases hn with
    | @node depth _ hnode hsame hchildren =>
      by_cases hne : n = m
      · subst hne
        have hnode' := h.grows.hasNode n hnode
        refine .node hnode' (fun hdirective => ?_) fun k hk => ?_
        · rw [h.plain] at hdirective
          cases hdirective
        · cases h.children k hk with
          | below hchild hunder => exact ih depth (Nat.lt_succ_self _) ((hchildren _ hchild).under hunder)
          | fresh hchild _ hplain hlist =>
            -- the new node is as deep as the child whose list it holds
            cases hchildren _ hchild with
            | @node depth _ _ _ hitems =>
              refine .node (h.closed.child hnode' hk) (fun hdirective => ?_) fun r hr => ?_
              · rw [hplain] at hdirective
                cases hdirective
              · rw [hlist] at hr
                exact ih depth (Nat.lt_succ_of_lt (Nat.lt_succ_self _)) (hitems r hr)
      · refine .node (h.grows.hasNode n hnode) ?_ fun k hk => ?_
        · rw [h.grows.node n hnode hne]
          exact hsame
        · rw [h.grows.children hclosed hnode hne] at hk
          exact ih depth (Nat.lt_succ_self _) (hchildren k hk)

/-! ## What a walk spares -/

/-- What could be walked can be walked and is no deeper; the lists that were there are as they were. -/
structure Spares (s₀ s s' : Store) : Prop where
  walkable : ∀ depth n, Walkable s₀ s depth n → Walkable s₀ s' depth n
  hasList : ∀ l, s.HasList l → s'.HasList l
  list : ∀ l, s.HasList l → s'.list l = s.list l

theorem Spares.refl (s₀ s : Store) : Spares s₀ s s :=
  ⟨fun _ _ => id, fun _ => id, fun _ _ => rfl⟩

theorem Spares.trans (h₁ : Spares s₀ s s') (h₂ : Spares s₀ s' s'') : Spares s₀ s s'' where
  walkable depth n hn := h₂.walkable depth n (h₁.walkable depth n hn)
  hasList l hl := h₂.hasList l (h₁.hasList l hl)
  list l hl := by rw [h₂.list l (h₁.hasList l hl), h₁.list l hl]

theorem Lowers.spares (h : s.Lowers n s') (hclosed : s.Closed) (s₀ : Store) : Spares s₀ s s' where
  walkable _ _ hk := hk.of_lowers h hclosed
  hasList := h.grows.hasList
  list := h.grows.list

end Store

namespace Walk

open Store

variable {μ : Type} {test : TypeTest} {visit : Visitor μ} {s₀ : Store} {I : World μ → Prop}
  {w : World μ} {depth : Nat} {n : NodeId}

/-! ## Walking -/

/-- The visitor returns at every node that can be walked, goes on from there, keeps an invariant and
spares what can be walked. -/
def Returns (test : TypeTest) (visit : Visitor μ) (s₀ : Store) (I : World μ → Prop) : Prop :=
  ∀ depth n i p w, Walkable s₀ w.store depth n → test.accepts (w.store.node n).type = true → I w →
    ∃ v, visit n i p w = .ok .proceed v ∧ I v ∧ Spares s₀ w.store v.store

/-- Within any bound that is large enough the computation returns the answer, in one world, which the
invariant holds of. -/
def ReturnsWithin {α : Type} (s₀ : Store) (I : World μ → Prop) (w : World μ) (a : α)
    (x : Nat → EStateM.Result Halt (World μ) α) : Prop :=
  ∃ v bound, (∀ b, bound ≤ b → x b = .ok a v) ∧ I v ∧ Spares s₀ w.store v.store

/-- The rest of a list is walked, by what is left of it, if nodes of such a depth can be visited. -/
theorem walkFrom_returns_of_visitNode
    (hnode : ∀ {w : World μ} {n : NodeId} (i : Option Nat) (p : Option NodeId),
      Walkable s₀ w.store depth n → I w → ReturnsWithin s₀ I w true fun b =>
        visitNode test visit (fun n l => walkFrom test visit b n l 0) n i p w)
    (p : NodeId) {l : ListId} (i : Nat) (hw : I w) (hl : w.store.HasList l)
    (hitems : ∀ k ∈ w.store.list l, Walkable s₀ w.store depth k) :
    ReturnsWithin s₀ I w true (walkFrom test visit · p l i w) := by
  generalize hrest : (w.store.list l).length - i = rest
  induction rest generalizing w i with
  | zero =>
    have hnone : (w.store.list l)[i]? = none := List.getElem?_eq_none (by omega)
    refine ⟨w, 1, fun b hb => ?_, hw, .refl _ _⟩
    obtain ⟨b, rfl⟩ := Nat.exists_eq_add_of_le' hb
    exact walkFrom_of_none hnone
  | succ rest ih =>
    obtain ⟨n, hn⟩ : ∃ n, (w.store.list l)[i]? = some n :=
      ⟨_, List.getElem?_eq_getElem (by omega)⟩
    obtain ⟨v, bound, hvisited, hv, hspares⟩ :=
      hnode (some i) (some p) (hitems n (List.mem_of_getElem? hn)) hw
    have hlist := hspares.list l hl
    obtain ⟨u, bound', hwalk, hu, hspares'⟩ := ih (i + 1) hv (hspares.hasList l hl)
      (fun k hk => hspares.walkable _ _ (hitems k (hlist ▸ hk))) (by rw [hlist]; omega)
    refine ⟨u, max bound bound' + 1, fun b hb => ?_, hu, hspares.trans hspares'⟩
    obtain ⟨b, rfl⟩ : ∃ c, b = c + 1 := Nat.exists_eq_add_of_le' (Nat.le_trans (Nat.le_add_left 1 _) hb)
    dsimp only at hvisited ⊢
    rw [walkFrom_of_some hn, hvisited b (by omega)]
    exact hwalk b (by omega)

section Returns

variable (hvisit : Returns test visit s₀ I) (hclosed : ∀ w, I w → w.store.Closed)
include hvisit

theorem enter_returns (i : Option Nat) (p : Option NodeId) (hn : Walkable s₀ w.store depth n)
    (hw : I w) :
    ∃ v, enter test visit n i p w = .ok .proceed v ∧ I v ∧ Spares s₀ w.store v.store := by
  by_cases hn' : test.accepts (w.store.node n).type = true
  · rw [enter_of_accepts hn']
    exact hvisit depth n i p w hn hn' hw
  · rw [enter_of_rejects (by simpa using hn')]
    exact ⟨w, rfl, hw, .refl _ _⟩

include hclosed

/-- A node is visited, and then its children, which are less deep. -/
theorem visitNode_returns
    (hbelow : ∀ {w : World μ} {p : NodeId} {l : ListId}, I w → w.store.HasList l →
      (∀ k ∈ w.store.list l, Walkable s₀ w.store depth k) →
      ReturnsWithin s₀ I w true (walkFrom test visit · p l 0 w))
    (i : Option Nat) (p : Option NodeId) (hn : Walkable s₀ w.store (depth + 1) n) (hw : I w) :
    ReturnsWithin s₀ I w true fun b =>
      visitNode test visit (fun n l => walkFrom test visit b n l 0) n i p w := by
  obtain ⟨v, henter, hv, hspares⟩ := enter_returns hvisit i p hn hw
  have hn' := hspares.walkable _ _ hn
  have hchildren : ∀ k ∈ v.store.children n, Walkable s₀ v.store depth k := fun k hk => hn'.child hk
  obtain ⟨u, bound, hwalk, hu, hspares'⟩ := hbelow (p := n) hv
    ((hclosed v hv).children n hn'.hasNode) hchildren
  refine ⟨u, bound, fun b hb => ?_, hu, hspares.trans hspares'⟩
  dsimp only
  rw [visitNode_apply, henter]
  exact hwalk b hb

/-- The invariant of the walk, by the depth of the nodes in the list. -/
theorem walkFrom_returns (depth : Nat) {w : World μ} (p : NodeId) {l : ListId} (i : Nat) (hw : I w)
    (hl : w.store.HasList l) (hitems : ∀ k ∈ w.store.list l, Walkable s₀ w.store depth k) :
    ReturnsWithin s₀ I w true (walkFrom test visit · p l i w) := by
  induction depth generalizing w p l i with
  | zero =>
    refine walkFrom_returns_of_visitNode (fun _ _ hn _ => ?_) p i hw hl hitems
    cases hn
  | succ depth ih =>
    refine walkFrom_returns_of_visitNode (fun i p hn hw => ?_) p i hw hl hitems
    exact visitNode_returns hvisit hclosed (fun hw hl => ih _ 0 hw hl) i p hn hw

/-- **A walk over what can be walked comes to its end**, if its visitor returns and spares it. -/
theorem run_returns (hn : Walkable s₀ w.store depth n) (hw : I w) :
    ReturnsWithin s₀ I w () (run test visit · n w) := by
  obtain ⟨v, bound, hvisited, hv, hspares⟩ := visitNode_returns hvisit hclosed
    (fun hw hl => walkFrom_returns hvisit hclosed depth _ 0 hw hl) none none
    (hn.mono (Nat.le_succ _)) hw
  obtain ⟨budget, hrun⟩ := run_of_visitNode (hvisited bound (Nat.le_refl _)) (by simp)
  exact ⟨v, budget, hrun, hv, hspares⟩

end Returns

end Walk

end DirectiveLowering
