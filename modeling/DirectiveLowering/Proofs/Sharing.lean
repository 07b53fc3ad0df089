import DirectiveLowering.Proofs.Overwriting
import DirectiveLowering.Proofs.Visit

/-!
# A pass over a document with sharing

Nodes and lists of a document may be shared, so that a walk meets a node many times, once as a directive
and later as the element it has become. A pass that comes to its end has nevertheless lowered every
directive that can be reached and that the choices do not leave alone, and each of them once.

The invariant of the walk has two parts. Every node that was walked is exhausted: nothing at or below it
would be lowered, and that stays so because only nodes that would be lowered are ever changed. And every
directive that is met was there from the beginning, so what has been rewritten can be listed.

Results:
* `Exhausted.of_evolves`: an exhausted node stays exhausted.
* `enter_accounts`: what one visit adds to the account.
* `walkFrom_exhausts`: what the walk of a list leaves.
* `run_lowers_each_once`: what a pass over a document with sharing leaves.
-/

namespace DirectiveLowering

namespace Choices

/-- Whether a node with these fields is a directive that is to be lowered. -/
def takes (c : Choices) (f : Fields) : Bool :=
  f.isDirective && !c.leavesAlone f

theorem takes_eq_false_of_other {c : Choices} {f : Fields} (h : f.isDirective = false) :
    c.takes f = false := by
  rw [takes, h, Bool.false_and]

end Choices

namespace Store

variable {c : Choices} {s₀ s s' s'' : Store}

/-! ## Exhausted nodes -/

/-- The store has grown, and of the old nodes only directives to be lowered may have changed. -/
def Evolves (c : Choices) (s s' : Store) : Prop :=
  s.Grows s' fun n => c.takes (s.node n).toFields = true

variable {n k : NodeId}

theorem Evolves.refl (c : Choices) (s : Store) : Evolves c s s :=
  Grows.refl s _

theorem Evolves.trans (h₁ : Evolves c s s') (h₂ : Evolves c s' s'') : Evolves c s s'' := by
  apply Grows.trans h₁ h₂
  intro n hn hkept
  rw [h₁.node n hn hkept]
  exact hkept

theorem Evolves.same_node (h : Evolves c s s') (hn : s.HasNode n)
    (hkept : c.takes (s.node n).toFields = false) : s'.node n = s.node n :=
  h.node n hn (by rw [hkept]; exact Bool.false_ne_true)

theorem Evolves.same_children (h : Evolves c s s') (hclosed : s.Closed) (hn : s.HasNode n)
    (hkept : c.takes (s.node n).toFields = false) : s'.children n = s.children n :=
  h.children hclosed hn (by rw [hkept]; exact Bool.false_ne_true)

/-- Nothing at or below the node is to be lowered. -/
def Exhausted (c : Choices) (s : Store) (n : NodeId) : Prop :=
  ∀ k, s.Below n k → c.takes (s.node k).toFields = false

theorem Exhausted.of_evolves (h : Exhausted c s n) (he : Evolves c s s') (hclosed : s.Closed)
    (hn : s.HasNode n) : Exhausted c s' n := by
  intro k hk
  have hkept : ∀ k, s.Below n k → ¬ c.takes (s.node k).toFields = true := by
    intro k hk
    rw [h k hk]
    exact Bool.false_ne_true
  have hold := Below.of_grows he hclosed hn hkept hk
  rw [he.same_node (hclosed.below hn hold) (h k hold)]
  exact h k hold

/-- A node is exhausted if it is not to be lowered itself and its children are exhausted. -/
theorem exhausted_of_children (hn : c.takes (s.node n).toFields = false)
    (hchildren : ∀ k ∈ s.children n, Exhausted c s k) : Exhausted c s n := by
  intro k hk
  rcases hk.eq_or_child with rfl | ⟨r, hr, hk⟩
  · exact hn
  · exact hchildren r hr k hk

/-! ## Tame nodes -/

/-- The node was in a store at first, or it is no directive and has only tame children: whatever is
walked from it, no directive is met that was not there at first. -/
inductive Tame (s₀ s : Store) : NodeId → Prop
  | old {n : NodeId} : s₀.HasNode n → Tame s₀ s n
  | made {n : NodeId} : s.HasNode n → (s.node n).isDirective = false →
      (∀ k ∈ s.children n, Tame s₀ s k) → Tame s₀ s n

theorem Tame.of_evolves (h : Tame s₀ s n) (he : Evolves c s s') (hclosed : s.Closed) :
    Tame s₀ s' n := by
  induction h with
  | old hn => exact .old hn
  | @made n hn hother _ ih =>
    have hkept := Choices.takes_eq_false_of_other (c := c) hother
    refine .made (he.hasNode n hn) ?_ ?_
    · rw [he.same_node hn hkept]
      exact hother
    · intro k hk
      rw [he.same_children hclosed hn hkept] at hk
      exact ih k hk

theorem Tame.old_of_directive (h : Tame s₀ s n) (hn : (s.node n).isDirective = true) :
    s₀.HasNode n := by
  cases h with
  | old hold => exact hold
  | made _ hother _ =>
    rw [hn] at hother
    cases hother

/-- The old nodes have tame children. -/
def TameBelow (s₀ s : Store) : Prop :=
  ∀ n, s₀.HasNode n → ∀ k ∈ s.children n, Tame s₀ s k

theorem TameBelow.children (h : TameBelow s₀ s) (hn : Tame s₀ s n) (hk : k ∈ s.children n) :
    Tame s₀ s k := by
  cases hn with
  | old hold => exact h n hold k hk
  | made _ _ hchildren => exact hchildren k hk

theorem TameBelow.below (h : TameBelow s₀ s) (hn : Tame s₀ s n) (hk : s.Below n k) :
    Tame s₀ s k := by
  induction hk with
  | root => exact hn
  | child _ hk ih => exact h.children ih hk

end Store

namespace Pass

open Store

variable {σ : Type} {o : Options σ} {c : Choices} {s₀ s : Store} {n : NodeId}

/-! ## The account of a walk -/

/-- The account of a walk that began in a store: which nodes it has rewritten, in order, each of them
once. It called the tag hook for each and counted it, and it changed no other old node and no list. -/
structure Accounted (s₀ : Store) (w : World ((σ × List HookEvent) × Books))
    (rewritten : List NodeId) : Prop where
  closed : w.store.Closed
  grows : s₀.Grows w.store (· ∈ rewritten)
  nodup : rewritten.Nodup
  lowered : ∀ n ∈ rewritten, s₀.HasNode n ∧ (s₀.node n).isDirective = true ∧
    (w.store.node n).isDirective = false
  tame : s₀.TameBelow w.store
  tags : w.memory.1.2.filterMap HookEvent.tag? = rewritten.map fun n => (s₀.node n).name
  transformed : w.memory.2.stats.transformed = rewritten.length

variable {w v : World ((σ × List HookEvent) × Books)} {rewritten : List NodeId}

theorem accounted_start (hclosed : s₀.Closed) (m : σ) (notices : Array Notice) :
    Accounted s₀ ⟨s₀, (m, []), { notices := notices }⟩ [] where
  closed := hclosed
  grows := Grows.refl s₀ _
  nodup := List.nodup_nil
  lowered _ hn := nomatch hn
  tame _ hn _ hk := .old (hclosed.child hn hk)
  tags := rfl
  transformed := rfl

/-- What leaves documents, calls of the tag hook and the count alone leaves the account alone. -/
theorem Accounted.of_same (h : Accounted s₀ w rewritten) (hstore : v.store = w.store)
    (htags : v.memory.1.2.filterMap HookEvent.tag? = w.memory.1.2.filterMap HookEvent.tag?)
    (hcount : v.memory.2.stats.transformed = w.memory.2.stats.transformed) :
    Accounted s₀ v rewritten where
  closed := hstore ▸ h.closed
  grows := hstore ▸ h.grows
  nodup := h.nodup
  lowered := hstore ▸ h.lowered
  tame := hstore ▸ h.tame
  tags := htags.trans h.tags
  transformed := hcount.trans h.transformed

/-- A directive that is lowered joins the account. Any child that it has then was tame, or is no
directive and has only children that were. -/
theorem Accounted.rewrite (h : Accounted s₀ w rewritten) (hn : s₀.HasNode n)
    (htakes : c.takes (w.store.node n).toFields = true) (hlowers : w.store.Lowers n v.store)
    (htags : v.memory.1.2.filterMap HookEvent.tag? =
      w.memory.1.2.filterMap HookEvent.tag? ++ [(w.store.node n).name])
    (hcount : v.memory.2.stats.transformed = w.memory.2.stats.transformed + 1) :
    Accounted s₀ v (rewritten ++ [n]) ∧ Evolves c w.store v.store ∧
      c.takes (v.store.node n).toFields = false := by
  have hdirective : (w.store.node n).isDirective = true := (Bool.and_eq_true_iff.1 htakes).1
  -- a node that was rewritten before is no directive any more
  have hnew : n ∉ rewritten := by
    intro hin
    have hlowered := (h.lowered n hin).2.2
    rw [hdirective] at hlowered
    cases hlowered
  have hsame : w.store.node n = s₀.node n := h.grows.node n hn hnew
  have hold : ∀ k, s₀.HasNode k → w.store.HasNode k := h.grows.hasNode
  have hevolves : Evolves c w.store v.store := by
    apply hlowers.grows.mono
    intro k _ hk
    rw [hk]
    exact htakes
  have htame : ∀ k, s₀.Tame w.store k → s₀.Tame v.store k :=
    fun k hk => hk.of_evolves hevolves h.closed
  refine ⟨?_, hevolves, Choices.takes_eq_false_of_other hlowers.plain⟩
  constructor
  case closed => exact hlowers.closed
  case grows =>
    have hfirst := h.grows.mono fun k _ (hk : k ∈ rewritten) => List.mem_append_left [n] hk
    apply hfirst.trans hlowers.grows
    intro k _ hout hk
    rw [hk] at hout
    exact hout (List.mem_append_right _ (List.mem_singleton.2 rfl))
  case nodup =>
    refine List.nodup_append.2 ⟨h.nodup, by simp, ?_⟩
    rintro x hx y hy rfl
    exact hnew (List.mem_singleton.1 hy ▸ hx)
  case lowered =>
    intro k hk
    rcases List.mem_append.1 hk with hk | hk
    · obtain ⟨hk₀, hk₁, hk₂⟩ := h.lowered k hk
      have hne : k ≠ n := fun heq => hnew (heq ▸ hk)
      rw [hlowers.grows.node k (hold k hk₀) hne]
      exact ⟨hk₀, hk₁, hk₂⟩
    · rw [List.mem_singleton.1 hk, ← hsame]
      exact ⟨hn, hdirective, hlowers.plain⟩
  case tame =>
    intro k hk r hr
    by_cases hne : k = n
    · rw [hne] at hr
      cases hlowers.children r hr with
      | below hchild hunder => exact htame r (h.tame.below (h.tame n hn _ hchild) hunder)
      | fresh hchild _ hplain hlist =>
        have hrNode := hlowers.closed.child (hlowers.grows.hasNode n (hold n hn)) hr
        refine .made hrNode hplain fun x hx => htame x ?_
        rw [hlist] at hx
        exact h.tame.children (h.tame n hn _ hchild) hx
    · rw [hlowers.grows.children h.closed (hold k hk) hne] at hr
      exact htame r (h.tame k hk r hr)
  case tags => rw [htags, h.tags, hsame, List.map_append, List.map_singleton]
  case transformed =>
    rw [hcount, h.transformed, List.length_append, List.length_singleton]
    rfl

/-! ## One visit -/

theorem tags_nameEvents (c : Choices) (f : Fields) :
    (nameEvents c f).filterMap HookEvent.tag? = [f.name] := by
  have hfirst : HookEvent.tag? (.tag f.name) = some f.name := rfl
  rw [nameEvents, List.filterMap_cons_some hfirst, List.filterMap_map]
  congr 1
  rw [List.filterMap_eq_nil_iff]
  intro entry _
  rfl

section Step

variable (h : o.Follows c) {m : σ} {events : List HookEvent} {books : Books}
  {rewritten : List NodeId} (hacc : Accounted s₀ ⟨s, (m, events), books⟩ rewritten)
  (htame : s₀.Tame s n) (htakes : c.takes (s.node n).toFields = true)
include h hacc htame htakes

theorem lower_plain_accounts {kind : DirectiveKind}
    (hkind : DirectiveKind.ofType? (s.node n).type = some kind)
    (hattributes : attributeEntries (s.node n).attributes = .ok (s.node n).entries)
    (hlabel : kind = .container → s.findLabel (s.children n) = none) :
    ∃ v, lower o.recorded n ⟨s, (m, events), books⟩ = .ok () v ∧
      Accounted s₀ v (rewritten ++ [n]) ∧ Evolves c s v.store ∧
      c.takes (v.store.node n).toFields = false := by
  have hold := htame.old_of_directive (Bool.and_eq_true_iff.1 htakes).1
  have hn : s.HasNode n := hacc.grows.hasNode n hold
  obtain ⟨m', notices, hlower⟩ := lower_plain h m events books hn hkind hattributes hlabel rfl
  have hbuilds := builds_addNode hacc.closed hn (c.isDirective_element kind (s.node n).toFields)
  refine ⟨_, hlower, hacc.rewrite hold htakes (hbuilds.lowers_setNode hn ?_ ?_) ?_ rfl⟩
  · exact Choices.isDirective_lowered c kind _
  · rw [Store.node_addNode, if_pos rfl]
    rfl
  · rw [List.filterMap_append, tags_nameEvents]

theorem lower_labelled_accounts (hhook : Decorating o.handleLabel) {label : NodeId}
    (hkind : DirectiveKind.ofType? (s.node n).type = some .container)
    (hattributes : attributeEntries (s.node n).attributes = .ok (s.node n).entries)
    (hlabel : s.findLabel (s.children n) = some label) :
    ∃ v, lower o.recorded n ⟨s, (m, events), books⟩ = .ok () v ∧
      Accounted s₀ v (rewritten ++ [n]) ∧ Evolves c s v.store ∧
      c.takes (v.store.node n).toFields = false := by
  have hold := htame.old_of_directive (Bool.and_eq_true_iff.1 htakes).1
  have hn : s.HasNode n := hacc.grows.hasNode n hold
  have hlabelMem : label ∈ s.children n := List.mem_of_find?_eq_some hlabel
  have hlabelNode : s.HasNode label := hacc.closed.child hn hlabelMem
  -- a new element, and what the hook makes of it
  obtain ⟨element, s₁, hadd, hgains⟩ :=
    exists_gains s (c.element .container (s.node n).toFields) (s.withoutLabels (s.children n))
  have hitems : ∀ k ∈ s.withoutLabels (s.children n), s.HasNode k :=
    fun k hk => hacc.closed.child hn (List.mem_filter.1 hk).1
  have hoffered := hgains.offered hacc.closed hitems rfl hlabelNode
  obtain ⟨s', m', notices, hdecorates, hlower⟩ := lower_labelled h m events books hkind hattributes
    hlabel hadd rfl fun m => hhook element _ s₁ m hoffered
  have hbuilds := builds_decorated hacc.closed hn hlabelMem rfl hgains hdecorates
  refine ⟨_, hlower, hacc.rewrite hold htakes (hbuilds.lowers hn) ?_ rfl⟩
  rw [List.filterMap_append, List.filterMap_append, tags_nameEvents]
  exact List.append_nil _

/-- Lowering a directive adds it to the account, unless attribute records stop the lowering. -/
theorem lower_accounts (hhook : Decorating o.handleLabel)
    (hlower : lower o.recorded n ⟨s, (m, events), books⟩ = .ok () v) :
    Accounted s₀ v (rewritten ++ [n]) ∧ Evolves c s v.store ∧
      c.takes (v.store.node n).toFields = false := by
  obtain ⟨kind, hkind⟩ := Fields.exists_kind (Bool.and_eq_true_iff.1 htakes).1
  cases hattributes : attributeEntries (s.node n).attributes with
  | error fault =>
    obtain ⟨w, hrefused⟩ := lower_refused h m events books hkind hattributes
    rw [hrefused] at hlower
    cases hlower
  | ok entries =>
    have hentries : attributeEntries (s.node n).attributes = .ok (s.node n).entries := by
      rw [entries_eq_of_attributeEntries hattributes, hattributes]
    obtain ⟨v', hlower', hv'⟩ : ∃ v, lower o.recorded n ⟨s, (m, events), books⟩ = .ok () v ∧
        Accounted s₀ v (rewritten ++ [n]) ∧ Evolves c s v.store ∧
        c.takes (v.store.node n).toFields = false := by
      cases hlabel : s.findLabel (s.children n) with
      | none => exact lower_plain_accounts h hacc htame htakes hkind hentries fun _ => hlabel
      | some label =>
        by_cases hcontainer : kind = .container
        · rw [hcontainer] at hkind
          exact lower_labelled_accounts h hacc htame htakes hhook hkind hentries hlabel
        · exact lower_plain_accounts h hacc htame htakes hkind hentries fun hk =>
            absurd hk hcontainer
    rw [hlower'] at hlower
    cases hlower
    exact hv'

end Step

/-- Asking the filter leaves the account as it is. -/
theorem Accounted.asked {m : σ} {events : List HookEvent} {books : Books}
    (hacc : Accounted s₀ ⟨s, (m, events), books⟩ rewritten) (m' : σ) (n : NodeId) (seen : Node) :
    Accounted s₀ ⟨s, (m', events ++ [.filter n seen]), { books with stats := books.stats.visit }⟩
      rewritten := by
  refine hacc.of_same rfl ?_ rfl
  rw [List.filterMap_append]
  exact List.append_nil _

/-- A visit goes on with the children of the node, which is not to be lowered any more. -/
theorem enter_accounts (h : o.Follows c) (hhook : Decorating o.handleLabel)
    (hacc : Accounted s₀ w rewritten) (htame : s₀.Tame w.store n) {i : Option Nat}
    {p : Option NodeId} {action : Action}
    (henter : Walk.enter (.oneOf directiveTypes) (visitor o.recorded) n i p w = .ok action v) :
    action = .proceed ∧ ∃ rewritten', Accounted s₀ v rewritten' ∧ Evolves c w.store v.store ∧
      c.takes (v.store.node n).toFields = false := by
  obtain ⟨s, ⟨m, events⟩, books⟩ := w
  by_cases hdirective : (s.node n).isDirective = true
  · rw [enter_directive i p (w := ⟨s, (m, events), books⟩) hdirective] at henter
    cases hvisit : visit o.recorded n ⟨s, (m, events), books⟩ with
    | error fault u =>
      rw [hvisit] at henter
      cases henter
    | ok a u =>
      rw [hvisit] at henter
      cases henter
      refine ⟨rfl, ?_⟩
      by_cases hleft : c.leavesAlone (s.node n).toFields = true
      · obtain ⟨m', events', books', hleave, htags, hcount⟩ :=
          visit_left_alone h m events books hleft
        rw [hvisit] at hleave
        cases hleave
        refine ⟨rewritten, hacc.of_same rfl htags hcount, Evolves.refl c s, ?_⟩
        rw [Choices.takes, hleft, Bool.not_true, Bool.and_false]
      · have htakes : c.takes (s.node n).toFields = true := by
          rw [Choices.takes, hdirective, Bool.true_and]
          simpa using hleft
        obtain ⟨m', htaken⟩ := visit_taken h m events books (by simpa using hleft)
        rw [hvisit] at htaken
        have hasked := hacc.asked m' n (s.node n)
        exact ⟨_, lower_accounts h hasked htame htakes hhook htaken.symm⟩
  · have hother : (s.node n).isDirective = false := by simpa using hdirective
    rw [enter_other i p hother] at henter
    cases henter
    exact ⟨rfl, rewritten, hacc, Evolves.refl c s, Choices.takes_eq_false_of_other hother⟩

/-! ## The walk -/

/-- What a walk from some node or list has done when it is through. -/
def Advances (c : Choices) (s₀ : Store) (goesOn : Bool) (w v : World ((σ × List HookEvent) × Books)) :
    Prop :=
  goesOn = true ∧ Evolves c w.store v.store ∧ ∃ rewritten, Accounted s₀ v rewritten

theorem visitNode_exhausts (h : o.Follows c) (hhook : Decorating o.handleLabel) {bound : Nat}
    (hbelow : ∀ {w v : World ((σ × List HookEvent) × Books)} {rewritten : List NodeId} {p : NodeId}
      {l : ListId} {i : Nat} {goesOn : Bool}, Accounted s₀ w rewritten → w.store.HasList l →
      (∀ k ∈ w.store.list l, s₀.Tame w.store k) →
      Walk.walkFrom (.oneOf directiveTypes) (visitor o.recorded) bound p l i w = .ok goesOn v →
      Advances c s₀ goesOn w v ∧ ∀ j k, i ≤ j → (w.store.list l)[j]? = some k → Exhausted c v.store k)
    (hacc : Accounted s₀ w rewritten) (hn : w.store.HasNode n) (htame : s₀.Tame w.store n)
    {i : Option Nat} {p : Option NodeId} {goesOn : Bool}
    (hvisit : Walk.visitNode (.oneOf directiveTypes) (visitor o.recorded)
      (fun n l => Walk.walkFrom (.oneOf directiveTypes) (visitor o.recorded) bound n l 0) n i p w =
      .ok goesOn v) : Advances c s₀ goesOn w v ∧ Exhausted c v.store n := by
  obtain ⟨action, u, henter, hrest⟩ := Walk.exists_enter_of_visitNode hvisit
  obtain ⟨rfl, rewritten', hacc', hevolves, htakes⟩ := enter_accounts h hhook hacc htame henter
  have hn' := hevolves.hasNode n hn
  have htame' := htame.of_evolves hevolves hacc.closed
  obtain ⟨⟨hgoesOn, hevolves', hacc''⟩, hexhausted⟩ := hbelow hacc' (hacc'.closed.children n hn')
    (fun k hk => hacc'.tame.children htame' hk) hrest
  refine ⟨⟨hgoesOn, hevolves.trans hevolves', hacc''⟩, exhausted_of_children ?_ fun k hk => ?_⟩
  · rw [hevolves'.same_node hn' htakes]
    exact htakes
  · rw [hevolves'.same_children hacc'.closed hn' htakes] at hk
    obtain ⟨j, hj⟩ := List.getElem?_of_mem hk
    exact hexhausted j k (Nat.zero_le j) hj

/-- The invariant of the walk: the nodes of a list are exhausted once the list has been walked. -/
theorem walkFrom_exhausts (h : o.Follows c) (hhook : Decorating o.handleLabel) (bound : Nat)
    {w v : World ((σ × List HookEvent) × Books)} {rewritten : List NodeId} {p : NodeId} {l : ListId}
    {i : Nat} {goesOn : Bool} (hacc : Accounted s₀ w rewritten) (hl : w.store.HasList l)
    (htame : ∀ k ∈ w.store.list l, s₀.Tame w.store k)
    (hwalk : Walk.walkFrom (.oneOf directiveTypes) (visitor o.recorded) bound p l i w =
      .ok goesOn v) :
    Advances c s₀ goesOn w v ∧
      ∀ j k, i ≤ j → (w.store.list l)[j]? = some k → Exhausted c v.store k := by
  induction bound generalizing w v rewritten p l i goesOn with
  | zero =>
    rw [Walk.walkFrom_zero] at hwalk
    cases hwalk
  | succ bound ih =>
    rcases Walk.walkFrom_cases hwalk with ⟨hend, rfl, rfl⟩ | ⟨n, more, u, hnext, hvisit, hwalk'⟩
    · refine ⟨⟨rfl, Evolves.refl c _, rewritten, hacc⟩, fun j k hij hk => ?_⟩
      have hlength := List.getElem?_eq_none_iff.1 hend
      rw [List.getElem?_eq_none (Nat.le_trans hlength hij)] at hk
      cases hk
    · have hmem := List.mem_of_getElem? hnext
      have hn := hacc.closed.members l hl n hmem
      obtain ⟨⟨rfl, hevolves, rewritten', hacc'⟩, hexhausted⟩ :=
        visitNode_exhausts h hhook ih hacc hn (htame n hmem) hvisit
      have hlist := hevolves.list l hl
      obtain ⟨⟨hgoesOn, hevolves', hacc''⟩, hrest⟩ := ih hacc' (hevolves.hasList l hl)
        (fun k hk => (htame k (hlist ▸ hk)).of_evolves hevolves hacc.closed) hwalk'
      refine ⟨⟨hgoesOn, hevolves.trans hevolves', hacc''⟩, fun j k hij hk => ?_⟩
      by_cases hj : j = i
      · -- the node that was walked first stays exhausted while its siblings are walked
        rw [hj, hnext] at hk
        cases hk
        exact hexhausted.of_evolves hevolves' hacc'.closed (hevolves.hasNode n hn)
      · rw [← hlist] at hk
        exact hrest j k (by omega) hk

/-! ## The pass -/

/-- What the tag hook is given in a pass, call by call. -/
def tagCalls (o : Options σ) (budget : Nat) (root : NodeId) (w : World (σ × Books)) :
    List (Option String) :=
  (left (run o.recorded budget root
    ⟨w.store, (w.memory.1, []), w.memory.2⟩)).memory.1.2.filterMap HookEvent.tag?

/-- A recorded pass that comes to its end exhausts its root and has an account. -/
theorem run_recorded_exhausts (h : o.Follows c) (hhook : Decorating o.handleLabel)
    (hclosed : s.Closed) {root : NodeId} (hroot : s.HasNode root) {budget : Nat} {m : σ}
    (hrun : run o.recorded budget root ⟨s, (m, []), {}⟩ = .ok () v) :
    Exhausted c v.store root ∧ ∃ rewritten, Accounted s v rewritten := by
  obtain ⟨goesOn, u, hvisit, rfl⟩ := visitRoot_of_run hrun
  obtain ⟨⟨-, -, rewritten, hacc⟩, hexhausted⟩ := visitNode_exhausts h hhook
    (walkFrom_exhausts h hhook (budget + 1)) (accounted_start hclosed m _) hroot (.old hroot) hvisit
  exact ⟨hexhausted, rewritten, hacc.of_same rfl rfl rfl⟩

/-- **A pass over a document with sharing** that comes to its end has lowered every directive that can
be reached and is not to be left alone, and rewrites each node at most once, however many nodes and
lists hold it: the tag hook is called for each rewritten node in turn, and the count is that of the
rewritten nodes. -/
theorem run_lowers_each_once (h : o.Follows c) (hhook : Decorating o.handleLabel)
    (hclosed : s.Closed) {root : NodeId} (hroot : s.HasNode root) {budget : Nat} {m : σ}
    {w' : World (σ × Books)} (hrun : run o budget root ⟨s, m, {}⟩ = .ok () w') :
    (∀ n, w'.store.Below root n → (w'.store.node n).isDirective = true →
      c.leavesAlone (w'.store.node n).toFields = true) ∧
    ∃ rewritten : List NodeId, rewritten.Nodup ∧
      (∀ n, n ∈ rewritten ↔ s.HasNode n ∧ (s.node n).isDirective = true ∧
        (w'.store.node n).isDirective = false) ∧
      (∀ n, s.HasNode n → n ∉ rewritten → w'.store.node n = s.node n) ∧
      tagCalls o budget root ⟨s, m, {}⟩ = rewritten.map (fun n => (s.node n).name) ∧
      w'.memory.2.stats.transformed = rewritten.length := by
  obtain ⟨v, hrecorded, rfl⟩ := exists_run_recorded hrun
  obtain ⟨hexhausted, rewritten, hacc⟩ := run_recorded_exhausts h hhook hclosed hroot hrecorded
  simp only [store_view]
  refine ⟨fun n hn hdirective => ?_, rewritten, hacc.nodup, fun n => ⟨hacc.lowered n, ?_⟩,
    hacc.grows.node, ?_, hacc.transformed⟩
  · have hleft := hexhausted n hn
    rw [Choices.takes, hdirective, Bool.true_and] at hleft
    simpa using hleft
  · rintro ⟨hn, hdirective, hother⟩
    by_cases hin : n ∈ rewritten
    · exact hin
    · rw [hacc.grows.node n hn hin, hdirective] at hother
      cases hother
  · rw [tagCalls, hrecorded]
    exact hacc.tags

/-- A store in which the root holds a container twice, the container shares its list with a leaf
directive, and a text directive is both in that list and in the container's label. -/
def sharedNotes : Store where
  nodes := #[
    { type := "root", children := ⟨0⟩ },
    { type := NodeType.containerDirective, name := some "note", children := ⟨1⟩ },
    { type := NodeType.leafDirective, name := some "rule", children := ⟨1⟩ },
    { type := "paragraph", data := some { directiveLabel := true }, children := ⟨2⟩ },
    { type := NodeType.textDirective, name := some "abbr", children := ⟨3⟩ }]
  lists := #[[⟨1⟩, ⟨2⟩, ⟨1⟩], [⟨3⟩, ⟨4⟩], [⟨4⟩], []]

theorem closed_sharedNotes : sharedNotes.Closed where
  children n hn :=
    (by decide : ∀ i, i < 5 → sharedNotes.HasList (sharedNotes.node ⟨i⟩).children) n.index hn
  members l hl :=
    (by decide : ∀ i, i < 4 → ∀ k ∈ sharedNotes.list ⟨i⟩, sharedNotes.HasNode k) l.index hl

/-- The three directives are met nine times and lowered once each. -/
theorem run_lowers_sharedNotes_once :
    ∃ w', run (Choices.options {} slotLabel) 40 ⟨0⟩ ⟨sharedNotes, (), {}⟩ = .ok () w' ∧
      (∀ n, w'.store.Below ⟨0⟩ n → (w'.store.node n).isDirective = true →
        Choices.leavesAlone {} (w'.store.node n).toFields = true) ∧
      ∃ rewritten : List NodeId, rewritten.Nodup ∧
        (∀ n, n ∈ rewritten ↔ sharedNotes.HasNode n ∧ (sharedNotes.node n).isDirective = true ∧
          (w'.store.node n).isDirective = false) ∧
        (∀ n, sharedNotes.HasNode n → n ∉ rewritten → w'.store.node n = sharedNotes.node n) ∧
        tagCalls (Choices.options {} slotLabel) 40 ⟨0⟩ ⟨sharedNotes, (), {}⟩ =
          rewritten.map (fun n => (sharedNotes.node n).name) ∧
        w'.memory.2.stats.transformed = rewritten.length := by
  have hroot : sharedNotes.HasNode ⟨0⟩ := by decide
  have hends : (match run (Choices.options {} slotLabel) 40 ⟨0⟩ ⟨sharedNotes, (), {}⟩ with
      | .ok _ _ => true
      | .error _ _ => false) = true := by decide +kernel
  cases hrun : run (Choices.options {} slotLabel) 40 ⟨0⟩ ⟨sharedNotes, (), {}⟩ with
  | error halt v =>
    rw [hrun] at hends
    cases hends
  | ok a w' =>
    exact ⟨w', rfl, run_lowers_each_once (Choices.follows_options {} slotLabel) decorating_slot
      closed_sharedNotes hroot hrun⟩

end Pass

end DirectiveLowering
