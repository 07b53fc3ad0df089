import DirectiveLowering.Proofs.Moments
import DirectiveLowering.Proofs.Skeleton
import Mathlib.Data.List.Nodup

/-!
# Visits that list a tree

The visits of a walk list a tree when each node comes before what is below it, children in their order,
and nothing follows below a node that was answered with `skip`. They may break off at a visit that ends
the walk.

Results:
* `Lists.congr`: a listing stays one as long as the listed nodes keep their children.
* `Lists.nodes_sublist`: the nodes that are listed stand in the order of the tree.
* `Lists.calls_preorder`: visits that list a tree are the first calls in its document order, or all of
  them.
* `Lists.later_eq_nil`: a visit that ends the walk is the last one.
-/

namespace DirectiveLowering.Walk

open scoped List

variable {μ : Type} {s s' : Store} {p : NodeId} {i : Nat} {ks : List NodeId}
  {ms more : List (Moment μ)} {goesOn : Bool}

mutual

/-- The visits list what is at and below a node, each before those below it, in the order of the
children; below a node answered with `skip` there is none. If one is answered with `exit`, it is the
last, and they do not go on. -/
inductive Lists (s : Store) : NodeId → Option Nat → Option NodeId → List (Moment μ) → Bool → Prop
  | skip {n : NodeId} {i : Option Nat} {p : Option NodeId} {m : Moment μ} :
      m.call = ⟨n, i, p⟩ → m.answer? = some .skip → Lists s n i p [m] true
  | exit {n : NodeId} {i : Option Nat} {p : Option NodeId} {m : Moment μ} :
      m.call = ⟨n, i, p⟩ → m.answer? = some .exit → Lists s n i p [m] false
  | proceed {n : NodeId} {i : Option Nat} {p : Option NodeId} {m : Moment μ} {ms : List (Moment μ)}
      {goesOn : Bool} :
      m.call = ⟨n, i, p⟩ → m.answer? = some .proceed → ListsFrom s n 0 (s.children n) ms goesOn →
      Lists s n i p (m :: ms) goesOn

/-- The visits list what is at and below some children of a node, the first of them at a position. -/
inductive ListsFrom (s : Store) : NodeId → Nat → List NodeId → List (Moment μ) → Bool → Prop
  | nil {p : NodeId} {i : Nat} : ListsFrom s p i [] [] true
  | stop {p k : NodeId} {i : Nat} {ks : List NodeId} {ms : List (Moment μ)} :
      Lists s k (some i) (some p) ms false → ListsFrom s p i (k :: ks) ms false
  | cons {p k : NodeId} {i : Nat} {ks : List NodeId} {ms more : List (Moment μ)} {goesOn : Bool} :
      Lists s k (some i) (some p) ms true → ListsFrom s p (i + 1) ks more goesOn →
      ListsFrom s p i (k :: ks) (ms ++ more) goesOn

end

theorem ListsFrom.append {us : List NodeId} (h : ListsFrom s p i ks ms true)
    (hmore : ListsFrom s p (i + ks.length) us more goesOn) :
    ListsFrom s p i (ks ++ us) (ms ++ more) goesOn := by
  induction ks generalizing i ms with
  | nil =>
    cases h
    exact hmore
  | cons k ks ih =>
    cases h with
    | cons hk hks =>
      have hlength : i + 1 + ks.length = i + (k :: ks).length := by
        rw [List.length_cons]
        omega
      rw [List.append_assoc]
      exact .cons hk (ih hks (hlength ▸ hmore))

mutual

/-- Only the children of the nodes that are listed matter. -/
theorem Lists.congr {n : NodeId} {i : Option Nat} {p : Option NodeId} {ms : List (Moment μ)}
    {goesOn : Bool} : Lists s n i p ms goesOn →
    (∀ m ∈ ms, s'.children m.call.node = s.children m.call.node) → Lists s' n i p ms goesOn
  | .skip hcall hskip, _ => .skip hcall hskip
  | .exit hcall hexit, _ => .exit hcall hexit
  | .proceed hcall hproceed hbelow, hsame => by
    have hbelow' := hbelow.congr fun m hm => hsame m (List.mem_cons_of_mem _ hm)
    have hchildren := hsame _ List.mem_cons_self
    rw [hcall] at hchildren
    rw [← hchildren] at hbelow'
    exact .proceed hcall hproceed hbelow'

theorem ListsFrom.congr {p : NodeId} {i : Nat} {ks : List NodeId} {ms : List (Moment μ)}
    {goesOn : Bool} : ListsFrom s p i ks ms goesOn →
    (∀ m ∈ ms, s'.children m.call.node = s.children m.call.node) → ListsFrom s' p i ks ms goesOn
  | .nil, _ => .nil
  | .stop hk, hsame => .stop (hk.congr hsame)
  | .cons hk hks, hsame =>
    .cons (hk.congr fun m hm => hsame m (List.mem_append_left _ hm))
      (hks.congr fun m hm => hsame m (List.mem_append_right _ hm))

end

mutual

/-- The nodes that are listed are nodes of the tree, in its order. -/
theorem Lists.nodes_sublist {n : NodeId} {i : Option Nat} {p : Option NodeId}
    {ms : List (Moment μ)} {goesOn : Bool} {ks : List Skeleton} :
    Lists s n i p ms goesOn → s.Spells (.node n ks) →
    ms.map (·.call.node) <+ (Skeleton.node n ks).nodes
  | .skip hcall _, _ => by
    rw [List.map_singleton, hcall, List.singleton_sublist]
    exact List.mem_cons_self
  | .exit hcall _, _ => by
    rw [List.map_singleton, hcall, List.singleton_sublist]
    exact List.mem_cons_self
  | .proceed hcall _ hbelow, hspells => by
    obtain ⟨-, -, hks, hspells⟩ := Store.spells_node.1 hspells
    rw [List.map_cons, hcall]
    exact (hbelow.nodes_sublist hspells hks).cons_cons _

theorem ListsFrom.nodes_sublist {p : NodeId} {i : Nat} {ns : List NodeId} {ms : List (Moment μ)}
    {goesOn : Bool} {ks : List Skeleton} : ListsFrom s p i ns ms goesOn →
    (∀ k ∈ ks, s.Spells k) → ns = ks.map Skeleton.root →
    ms.map (·.call.node) <+ Skeleton.nodesOf ks
  | .nil, _, _ => List.nil_sublist _
  | .stop hk, hspells, hroots => by
    have hfirst := fun us (h : s.Spells (.node _ us)) => hk.nodes_sublist h
    obtain ⟨⟨k, us⟩, ks, rfl, rfl, -⟩ := List.map_eq_cons_iff.1 hroots.symm
    have hsub := hfirst us (hspells (.node k us) List.mem_cons_self)
    exact hsub.trans (List.sublist_append_left _ _)
  | .cons hk hks, hspells, hroots => by
    have hfirst := fun us (h : s.Spells (.node _ us)) => hk.nodes_sublist h
    obtain ⟨⟨k, us⟩, ks, rfl, rfl, hrest⟩ := List.map_eq_cons_iff.1 hroots.symm
    rw [List.map_append]
    exact (hfirst us (hspells (.node k us) List.mem_cons_self)).append
      (hks.nodes_sublist (fun k hk => hspells k (List.mem_cons_of_mem _ hk)) hrest.symm)

end

/-- Below nodes that were skipped there is nothing in the order. -/
def skippedIn (ms : List (Moment μ)) (n : NodeId) : Bool :=
  ms.any fun m => m.call.node == n && m.answer? == some .skip

theorem skippedIn_of_mem {m : Moment μ} (hnodup : (ms.map (·.call.node)).Nodup) (hm : m ∈ ms) :
    skippedIn ms m.call.node = (m.answer? == some .skip) := by
  rw [skippedIn, Bool.eq_iff_iff, List.any_eq_true]
  constructor
  · rintro ⟨m', hm', h⟩
    obtain ⟨hnode, hskip⟩ := Bool.and_eq_true_iff.1 h
    rwa [List.inj_on_of_nodup_map hnodup hm' hm (eq_of_beq hnode)] at hskip
  · intro hskip
    exact ⟨m, hm, by rw [beq_self_eq_true, Bool.true_and, hskip]⟩

mutual

/-- Visits that list a tree are the first calls in its document order; they are all of them unless a
visit has ended the walk. -/
theorem Lists.calls_preorder {n : NodeId} {i : Option Nat} {p : Option NodeId}
    {ms : List (Moment μ)} {goesOn : Bool} {ks : List Skeleton} {skipped : NodeId → Bool} :
    Lists s n i p ms goesOn → s.Spells (.node n ks) →
    (∀ m ∈ ms, skipped m.call.node = (m.answer? == some .skip)) →
    ∃ rest, (Skeleton.node n ks).preorder skipped i p = ms.map Moment.call ++ rest ∧
      (goesOn = true → rest = [])
  | .skip hcall hskip, _, hskipped => by
    have hn : skipped n = true := by
      have hfirst := hskipped _ List.mem_cons_self
      rw [hcall, hskip] at hfirst
      exact hfirst
    refine ⟨[], ?_, fun _ => rfl⟩
    rw [Skeleton.preorder, if_pos hn, List.map_singleton, hcall]
    rfl
  | .exit hcall hexit, _, hskipped => by
    rw [Skeleton.preorder, List.map_singleton, hcall]
    exact ⟨_, rfl, fun h => nomatch h⟩
  | .proceed hcall hproceed hbelow, hspells, hskipped => by
    obtain ⟨-, -, hks, hspells⟩ := Store.spells_node.1 hspells
    have hn : skipped n = false := by
      have hfirst := hskipped _ List.mem_cons_self
      rw [hcall, hproceed] at hfirst
      exact hfirst
    obtain ⟨rest, hrest, hall⟩ := hbelow.calls_preorder hspells hks fun m hm =>
      hskipped m (List.mem_cons_of_mem _ hm)
    refine ⟨rest, ?_, hall⟩
    rw [Skeleton.preorder, hn, if_neg Bool.false_ne_true, hrest, List.map_cons, hcall]
    rfl

theorem ListsFrom.calls_preorder {p : NodeId} {i : Nat} {ns : List NodeId} {ms : List (Moment μ)}
    {goesOn : Bool} {ks : List Skeleton} {skipped : NodeId → Bool} :
    ListsFrom s p i ns ms goesOn → (∀ k ∈ ks, s.Spells k) → ns = ks.map Skeleton.root →
    (∀ m ∈ ms, skipped m.call.node = (m.answer? == some .skip)) →
    ∃ rest, Skeleton.preorderFrom skipped p i ks = ms.map Moment.call ++ rest ∧
      (goesOn = true → rest = [])
  | .nil, _, hroots, _ => by
    obtain rfl := List.map_eq_nil_iff.1 hroots.symm
    exact ⟨[], rfl, fun _ => rfl⟩
  | .stop hk, hspells, hroots, hskipped => by
    have hfirst := fun us (h : s.Spells (.node _ us)) => hk.calls_preorder h hskipped
    obtain ⟨⟨k, us⟩, ks, rfl, rfl, -⟩ := List.map_eq_cons_iff.1 hroots.symm
    obtain ⟨rest, hrest, -⟩ := hfirst us (hspells (.node k us) List.mem_cons_self)
    rw [Skeleton.root_node] at hrest
    refine ⟨rest ++ Skeleton.preorderFrom skipped p (i + 1) ks, ?_, fun h => nomatch h⟩
    rw [Skeleton.preorderFrom, hrest, List.append_assoc]
  | .cons hk hks, hspells, hroots, hskipped => by
    have hbefore := fun us (h : s.Spells (.node _ us)) =>
      hk.calls_preorder h fun m hm => hskipped m (List.mem_append_left _ hm)
    obtain ⟨⟨k, us⟩, ks, rfl, rfl, hothers⟩ := List.map_eq_cons_iff.1 hroots.symm
    obtain ⟨first, hfirst, hnone⟩ := hbefore us (hspells (.node k us) List.mem_cons_self)
    rw [Skeleton.root_node] at hfirst
    obtain ⟨rest, hrest, hall⟩ := hks.calls_preorder
      (fun k hk => hspells k (List.mem_cons_of_mem _ hk)) hothers.symm
      fun m hm => hskipped m (List.mem_append_right _ hm)
    refine ⟨rest, ?_, hall⟩
    rw [Skeleton.preorderFrom, hfirst, hnone rfl, hrest, List.map_append, List.append_nil,
      List.append_assoc]

end

mutual

/-- The visits do not go on when the last of them ends the walk, and only then. -/
theorem Lists.exists_init {n : NodeId} {i : Option Nat} {p : Option NodeId} {ms : List (Moment μ)}
    {goesOn : Bool} : Lists s n i p ms goesOn →
    ∃ init ends, ms = init ++ ends ∧ (∀ m ∈ init, m.answer? ≠ some .exit) ∧
      if goesOn then ends = [] else ∃ m, ends = [m] ∧ m.answer? = some .exit
  | .skip _ hskip => ⟨[_], [], rfl, by simp [hskip], rfl⟩
  | .exit _ hexit => ⟨[], [_], rfl, by simp, _, rfl, hexit⟩
  | .proceed (m := m) _ hproceed hbelow => by
    obtain ⟨init, ends, rfl, hinit, hends⟩ := hbelow.exists_init
    exact ⟨m :: init, ends, rfl, by simpa [hproceed] using hinit, hends⟩

theorem ListsFrom.exists_init {p : NodeId} {i : Nat} {ks : List NodeId} {ms : List (Moment μ)}
    {goesOn : Bool} : ListsFrom s p i ks ms goesOn →
    ∃ init ends, ms = init ++ ends ∧ (∀ m ∈ init, m.answer? ≠ some .exit) ∧
      if goesOn then ends = [] else ∃ m, ends = [m] ∧ m.answer? = some .exit
  | .nil => ⟨[], [], rfl, by simp, rfl⟩
  | .stop hk => hk.exists_init
  | .cons hk hks => by
    obtain ⟨first, ends, rfl, hfirst, hends⟩ := hk.exists_init
    obtain rfl : ends = [] := hends
    obtain ⟨init, ends, rfl, hinit, hends⟩ := hks.exists_init
    refine ⟨first ++ init, ends, ?_, ?_, hends⟩
    · rw [List.append_nil, List.append_assoc]
    · intro m hm
      exact (List.mem_append.1 hm).elim (hfirst m) (hinit m)

end

/-- Nothing follows a visit that ends the walk. -/
theorem Lists.later_eq_nil {n : NodeId} {i : Option Nat} {p : Option NodeId} {m : Moment μ}
    {earlier later : List (Moment μ)} (h : Lists s n i p (earlier ++ m :: later) goesOn)
    (hexit : m.answer? = some .exit) : later = [] := by
  obtain ⟨init, ends, hsplit, hinit, hends⟩ := h.exists_init
  rcases List.eq_nil_or_concat later with hnone | ⟨later, last, rfl⟩
  · exact hnone
  have hlast : ∃ ends', init = earlier ++ m :: later ++ ends' := by
    cases goesOn with
    | true =>
      obtain rfl : ends = [] := hends
      rw [List.append_nil] at hsplit
      exact ⟨[last], by simp [← hsplit]⟩
    | false =>
      obtain ⟨x, rfl, -⟩ := hends
      have hconcat : (earlier ++ m :: later) ++ [last] = init ++ [x] := by
        rw [← hsplit, List.append_assoc, List.cons_append, List.concat_eq_append]
      exact ⟨[], by rw [List.append_nil, (List.append_inj' hconcat rfl).1]⟩
  obtain ⟨ends', rfl⟩ := hlast
  exact absurd hexit (hinit m (by simp))

end DirectiveLowering.Walk
