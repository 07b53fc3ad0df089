import DirectiveLowering.Proofs.Faultless
import DirectiveLowering.Proofs.SteadyVisit

/-!
# Passes that come to an end

A pass walks lists that it makes, extends and empties while they are walked, maybe under several parents
at once. With steady hooks it comes to its end nevertheless. When a node is entered its children are lower
than the node, whatever its visit has made of them, and while a list is walked it gets no new members: so
the walk is over, by the height of the nodes in a list and by what is left of the list.

A visit may fail, and then ends the walk.

Results:
* `walkFrom_stops`: a list is walked to its end, by the height of its members.
* `run_stops`: a walk comes to its end if its visitor lets the store settle.
* `Steps.settles`: from any step of a walk to any later one the store settles.
* `run_settles`: a pass with steady hooks comes to its end, and no list or node grows at any time.
-/

namespace DirectiveLowering

open Store

namespace Walk

variable {μ : Type} {test : TypeTest} {visit : Visitor μ} {w : World μ} {n root : NodeId}
  {d : Nat}

/-! ## Walks that let the store settle -/

/-- Wherever a walk calls it, the visitor leaves a store that has settled, also when it fails. -/
def Settling (test : TypeTest) (visit : Visitor μ) : Prop :=
  ∀ n i p (w : World μ), w.store.Sound → w.store.HasNode n → test.accepts (w.store.node n).type = true →
    w.store.Settles (left (visit n i p w)).store

/-- Within any bound that is large enough the computation ends in one way: it answers in a store that has
settled, or it fails, but not for want of a larger bound. -/
def StopsWithin {α : Type} (w : World μ) (x : Nat → EStateM.Result Halt (World μ) α) : Prop :=
  ∃ bound r, (∀ b, bound ≤ b → x b = r) ∧
    EndsWith (fun v => w.store.Settles v.store) (fun halt _ => halt ≠ .outOfBudget) r

namespace StopsWithin

variable {α : Type} {x y : Nat → EStateM.Result Halt (World μ) α}

theorem const {r : EStateM.Result Halt (World μ) α}
    (hr : EndsWith (fun v => w.store.Settles v.store) (fun halt _ => halt ≠ .outOfBudget) r) :
    StopsWithin w fun _ => r :=
  ⟨0, r, fun _ _ => rfl, hr⟩

/-- The one computation goes on like the other after a step of its own. -/
theorem of_succ {bound : Nat} (hx : ∀ b, bound ≤ b → x (b + 1) = y b) (h : StopsWithin w y) :
    StopsWithin w x := by
  obtain ⟨bound', r, hy, hr⟩ := h
  refine ⟨max bound bound' + 1, r, fun b hb => ?_, hr⟩
  obtain ⟨b, rfl⟩ : ∃ c, b = c + 1 := ⟨b - 1, by omega⟩
  rw [hx b (by omega), hy b (by omega)]

theorem after {v : World μ} (hv : w.store.Settles v.store) (h : StopsWithin v x) :
    StopsWithin w x := by
  obtain ⟨bound, r, hx, hr⟩ := h
  refine ⟨bound, r, hx, ?_⟩
  cases r with
  | ok a u => exact hv.trans hr
  | error halt u => exact hr

end StopsWithin

/-- The rest of a list is walked, by what is left of it, if nodes of such a height can be visited. -/
theorem walkFrom_stops_of_visitNode
    (hnode : ∀ {w : World μ} {n : NodeId} (i : Option Nat) (p : Option NodeId), w.store.Sound →
      w.store.HasNode n → ¬ w.store.Descends d n → StopsWithin w fun b =>
        visitNode test visit (fun n l => walkFrom test visit b n l 0) n i p w)
    (p : NodeId) {l : ListId} (i : Nat) (hs : w.store.Sound) (hl : w.store.HasList l)
    (hitems : ∀ k ∈ w.store.list l, ¬ w.store.Descends d k) :
    StopsWithin w (walkFrom test visit · p l i w) := by
  induction hrest : (w.store.list l).length - i using Nat.strong_induction_on generalizing w i with
  | _ rest ih =>
    cases hn : (w.store.list l)[i]? with
    | none =>
      have hdone : StopsWithin w fun _ => .ok true w := .const hs.settles
      exact .of_succ (fun b (_ : 0 ≤ b) => walkFrom_of_none hn) hdone
    | some n =>
      have hlt : i < (w.store.list l).length := (List.getElem?_eq_some_iff.1 hn).1
      have hmem := List.mem_of_getElem? hn
      obtain ⟨bound, r, hvisited, hr⟩ :=
        hnode (some i) (some p) hs (hs.closed.members l hl n hmem) (hitems n hmem)
      have hwalk : ∀ b, bound ≤ b → walkFrom test visit (b + 1) p l i w = _ := fun b hb =>
        (walkFrom_of_some hn).trans (by rw [show visitNode _ _ _ _ _ _ _ = r from hvisited b hb])
      cases r with
      | error halt v => exact .of_succ hwalk (.const hr)
      | ok goesOn v =>
        cases goesOn with
        | false => exact .of_succ hwalk (.const hr)
        | true =>
          -- the list may have lost members meanwhile, and its members may be lower
          have hv : w.store.Settles v.store := hr
          have hshrunk := hv.subsides.list l hl
          have hlen := hshrunk.length_le
          have hitems' : ∀ k ∈ v.store.list l, ¬ v.store.Descends d k := by
            intro k hk hdown
            have hk' := hshrunk.subset hk
            exact hitems k hk' (hv.subsides.descends (hs.closed.members l hl k hk') hdown)
          have hrest := ih _ (by omega) (i + 1) hv.sound (hv.subsides.hasList l hl) hitems' rfl
          exact .of_succ hwalk (.after hv hrest)

section Settling

variable (hvisit : Settling test visit)
include hvisit

theorem enter_settles (i : Option Nat) (p : Option NodeId) (hs : w.store.Sound)
    (hn : w.store.HasNode n) : w.store.Settles (left (enter test visit n i p w)).store := by
  by_cases haccepts : test.accepts (w.store.node n).type = true
  · rw [enter_of_accepts haccepts]
    exact hvisit n i p w hs hn haccepts
  · rw [enter_of_rejects (by simpa using haccepts)]
    exact hs.settles

/-- A node is visited, and then its children, which are lower. -/
theorem visitNode_stops
    (hbelow : ∀ {w : World μ} {p : NodeId} {l : ListId}, w.store.Sound → w.store.HasList l →
      (∀ k ∈ w.store.list l, ¬ w.store.Descends d k) →
      StopsWithin w (walkFrom test visit · p l 0 w))
    (i : Option Nat) (p : Option NodeId) (hs : w.store.Sound) (hn : w.store.HasNode n)
    (hlow : ¬ w.store.Descends (d + 1) n) :
    StopsWithin w fun b =>
      visitNode test visit (fun n l => walkFrom test visit b n l 0) n i p w := by
  have hsettles := enter_settles hvisit i p hs hn
  simp only [visitNode_apply]
  cases henter : enter test visit n i p w with
  | error fault v => exact .const (by simp [EndsWith])
  | ok action v =>
    rw [henter] at hsettles
    have hv : w.store.Settles v.store := hsettles
    cases action with
    | exit => exact .const hv
    | skip => exact .const hv
    | proceed =>
      have hnv := hv.subsides.hasNode n hn
      refine StopsWithin.after hv (hbelow hv.sound (hv.sound.closed.children n hnv) ?_)
      intro k hk hdown
      exact hlow (hv.subsides.descends hn ⟨k, hk, hdown⟩)

/-- The invariant of the walk, by the height of the nodes in the list. -/
theorem walkFrom_stops (d : Nat) {w : World μ} (p : NodeId) {l : ListId} (i : Nat)
    (hs : w.store.Sound) (hl : w.store.HasList l)
    (hitems : ∀ k ∈ w.store.list l, ¬ w.store.Descends d k) :
    StopsWithin w (walkFrom test visit · p l i w) := by
  induction d generalizing w p l i with
  | zero =>
    refine walkFrom_stops_of_visitNode (fun _ _ _ _ hlow => ?_) p i hs hl hitems
    simp at hlow
  | succ d ih =>
    refine walkFrom_stops_of_visitNode (fun i p hs hn hlow => ?_) p i hs hl hitems
    exact visitNode_stops hvisit (fun hs hl => ih _ 0 hs hl) i p hs hn hlow

/-- **A walk whose visitor lets the store settle comes to its end**, one way or another. -/
theorem run_stops (hs : w.store.Sound) (hn : w.store.HasNode root) :
    ∃ enough r, (∀ budget, enough ≤ budget → run test visit budget root w = r) ∧
      ∀ v, r ≠ .error .outOfBudget v := by
  obtain ⟨d, hlow⟩ := hs.grounded root hn
  have hlow' : ¬ w.store.Descends (d + 1) root := fun hdown => hlow (hdown.of_le (Nat.le_succ d))
  obtain ⟨bound, r, hvisited, hr⟩ := visitNode_stops hvisit
    (fun hs hl => walkFrom_stops hvisit d _ 0 hs hl) none none hs hn hlow'
  have hfinished : ∀ v, r ≠ .error .outOfBudget v := by
    rintro v rfl
    exact hr rfl
  obtain ⟨budget, hrun⟩ := run_of_visitNode (hvisited bound (le_refl _)) hfinished
  exact ⟨budget, ended r, hrun, ended_ne_outOfBudget hfinished⟩

/-! ## The lists of a walk -/

/-- The walk gets from the one stack and world to others by steps on the stack. -/
inductive Steps (test : TypeTest) (visit : Visitor μ) (frames : List Frame) (w : World μ) :
    List Frame → World μ → Prop
  | refl : Steps test visit frames w frames w
  | snoc {frames' frames'' : List Frame} {v u : World μ}
      (before : Steps test visit frames w frames' v)
      (next : step test visit frames' v = .ok frames'' u) : Steps test visit frames w frames'' u

/-- A step lets the store settle, and all lists on the stack are in the store. -/
theorem step_settles {frames frames' : List Frame} {v : World μ} (hs : w.store.Sound)
    (hheld : ∀ f ∈ frames, w.store.HasList f.list)
    (hstep : step test visit frames w = .ok frames' v) :
    w.store.Settles v.store ∧ ∀ f ∈ frames', v.store.HasList f.list := by
  cases frames with
  | nil =>
    cases hstep
    exact ⟨hs.settles, hheld⟩
  | cons f rest =>
    cases hn : (w.store.list f.list)[f.position]? with
    | none =>
      rw [step_of_none hn] at hstep
      cases hstep
      exact ⟨hs.settles, fun g hg => hheld g (by simp [hg])⟩
    | some n =>
      have hnode := hs.closed.members f.list (hheld f (by simp)) n (List.mem_of_getElem? hn)
      have hsettles := enter_settles hvisit (some f.position) (some f.parent) hs hnode
      rw [step_of_some hn] at hstep
      cases henter : enter test visit n (some f.position) (some f.parent) w with
      | error fault u =>
        rw [henter] at hstep
        cases hstep
      | ok action u =>
        rw [henter] at hstep hsettles
        have hu : w.store.Settles u.store := hsettles
        have hkept : ∀ g ∈ f.advance :: rest, u.store.HasList g.list := by
          intro g hg
          apply hu.subsides.hasList
          rcases List.mem_cons.1 hg with rfl | hg
          · exact hheld f (by simp)
          · exact hheld g (by simp [hg])
        have hopened := hu.sound.closed.children n (hu.subsides.hasNode n hnode)
        cases action with
        | exit =>
          cases hstep
          exact ⟨hu, by simp⟩
        | skip =>
          cases hstep
          exact ⟨hu, hkept⟩
        | proceed =>
          cases hstep
          refine ⟨hu, fun g hg => ?_⟩
          rcases List.mem_cons.1 hg with rfl | hg
          · exact hopened
          · exact hkept g hg

theorem Steps.settles {frames frames' : List Frame} {v : World μ} (hs : w.store.Sound)
    (hheld : ∀ f ∈ frames, w.store.HasList f.list) (h : Steps test visit frames w frames' v) :
    w.store.Settles v.store ∧ ∀ f ∈ frames', v.store.HasList f.list := by
  induction h with
  | refl => exact ⟨hs.settles, hheld⟩
  | snoc _ hnext ih =>
    obtain ⟨hv, hheld'⟩ := ih
    obtain ⟨hu, hheld''⟩ := step_settles hvisit hv.sound hheld' hnext
    exact ⟨hv.trans hu, hheld''⟩

/-! ## The stores of a walk -/

/-- None of the stores has cycles, and each has subsided to all the later ones. -/
def Subsiding (stores : List Store) : Prop :=
  (∀ s ∈ stores, s.Sound) ∧ stores.Pairwise Subsides

omit hvisit in
theorem Subsiding.snoc {stores : List Store} {s s' : Store} (h : Subsiding (stores ++ [s]))
    (hs : s.Settles s') : Subsiding (stores ++ [s'] ++ [s']) := by
  obtain ⟨hsound, hpairwise⟩ := h
  obtain ⟨hstores, -, hlast⟩ := List.pairwise_append.1 hpairwise
  have hlater : ∀ t ∈ stores, t.Subsides s' := fun t ht =>
    (hlast t ht s (by simp)).trans hs.subsides
  constructor
  · intro t ht
    simp only [List.mem_append, List.mem_singleton, or_assoc, or_self] at ht
    rcases ht with ht | rfl
    · exact hsound t (by simp [ht])
    · exact hs.sound
  · simp only [List.pairwise_append, List.mem_append, List.mem_singleton]
    refine ⟨⟨hstores, by simp, ?_⟩, by simp, ?_⟩
    · rintro t ht _ rfl
      exact hlater t ht
    · rintro t (ht | rfl) _ rfl
      · exact hlater t ht
      · exact .refl _

/-- The store that a walk finds, those that its visits leave, and the one that it leaves. -/
theorem momentsOf_subsiding (htest : ∀ s : Store, ∀ n, test.accepts (s.node n).type = true → s.HasNode n)
    (hs : w.store.Sound) (budget : Nat) (root : NodeId) :
    Subsiding (w.store :: (momentsOf test visit budget root w).map (·.after.store) ++
      [(left (run test visit budget root w)).store]) := by
  refine account_run (J := fun moments v =>
    Subsiding (w.store :: moments.map (·.after.store) ++ [v.store])) ?_ budget ?_
  · intro moments n i p v _ haccepts hmoments
    have hv : v.store.Sound := hmoments.1 _ (by simp)
    have hsettles := hvisit n i p v hv (htest v.store n haccepts) haccepts
    have hsnoc := Subsiding.snoc hmoments hsettles
    simpa [moment, Moment.after] using hsnoc
  · refine ⟨by simp [hs], ?_⟩
    simpa using Subsides.refl w.store

end Settling

end Walk

/-! ## Passes with steady hooks -/

namespace Pass

open Walk

variable {σ : Type} {o : Options σ} {w : World (σ × Books)} {root : NodeId}

theorem settling_visitor (h : o.Steady) : Settling (.oneOf directiveTypes) (visitor o) :=
  fun _ i p _ hs hn _ => visitor_settles h hs hn i p

/-- A pass ends as its walk ends. -/
theorem run_started (o : Options σ) (budget : Nat) (root : NodeId) (w : World (σ × Books)) :
    run o budget root w =
      match Walk.run (.oneOf directiveTypes) (visitor o) budget root (started w) with
      | .ok () v => .ok () (concluded v)
      | .error halt v => .error halt v := by
  obtain ⟨s, m, books⟩ := w
  exact run_apply o budget root s m books

/-- The stores of a pass: the one that it finds, those that its visits leave, in order, and the one that it
leaves itself. -/
def stores (o : Options σ) (budget : Nat) (root : NodeId) (w : World (σ × Books)) : List Store :=
  w.store :: (course o budget root w).map (·.after.store) ++ [(left (run o budget root w)).store]

/-- The walk of a pass comes to this stack of lists, in this world. -/
def Comes (o : Options σ) (root : NodeId) (w : World (σ × Books)) (frames : List Frame)
    (v : World (σ × Books)) : Prop :=
  ∃ v₀, enter (.oneOf directiveTypes) (visitor o) root none none (started w) = .ok .proceed v₀ ∧
    Steps (.oneOf directiveTypes) (visitor o) [⟨root, (v₀.store.node root).children, 0⟩] v₀ frames v

/-- **A pass with steady hooks comes to its end, by returning or by a fault.** At no time are there cycles,
no node ever gets higher and no list longer, from any visit to any later one. In particular a list that is
on the stack, being walked, never gets new members while the walk goes on. -/
theorem run_settles (h : o.Steady) (hclosed : w.store.Closed) (hacyclic : w.store.Acyclic)
    (hroot : w.store.HasNode root) :
    (∃ enough r, (∀ budget, enough ≤ budget → run o budget root w = r) ∧
        ∀ v, r ≠ .error .outOfBudget v) ∧
      (∀ budget, (∀ s ∈ stores o budget root w, s.Closed ∧ s.Acyclic) ∧
        (stores o budget root w).Pairwise Subsides) ∧
      ∀ frames v frames' v', Comes o root w frames v →
        Steps (.oneOf directiveTypes) (visitor o) frames v frames' v' →
        ∀ f ∈ frames, (v'.store.list f.list).Sublist (v.store.list f.list) := by
  have hs : w.store.Sound := sound_iff.2 ⟨hclosed, hacyclic⟩
  refine ⟨?_, ?_, ?_⟩
  · obtain ⟨enough, r, hwalk, hr⟩ :=
      run_stops (settling_visitor h) (w := started w) hs hroot
    have hpass : ∀ budget, enough ≤ budget → run o budget root w = _ := fun budget hb => by
      rw [run_started, hwalk budget hb]
    refine ⟨enough, _, hpass, fun v heq => ?_⟩
    cases r with
    | ok a u => cases heq
    | error halt u =>
      cases heq
      exact hr _ rfl
  · intro budget
    have hsubsiding := momentsOf_subsiding (settling_visitor h) (w := started w)
      (fun _ _ => hasNode_of_isDirective) hs budget root
    rw [← store_run] at hsubsiding
    exact ⟨fun s hmem => sound_iff.1 (hsubsiding.1 s hmem), hsubsiding.2⟩
  · rintro frames v frames' v' ⟨v₀, henter, hsteps⟩ hlater f hf
    have hopened := enter_settles (settling_visitor h) none none (w := started w) hs hroot
    rw [henter] at hopened
    have hv₀ : w.store.Settles v₀.store := hopened
    obtain ⟨hv, hheld⟩ := Steps.settles (settling_visitor h) hv₀.sound
      (by simpa using hv₀.sound.closed.children root (hv₀.subsides.hasNode root hroot)) hsteps
    obtain ⟨hv', -⟩ := Steps.settles (settling_visitor h) hv.sound hheld hlater
    exact hv'.subsides.list f.list (hheld f hf)

/-- A filter that makes a container of the leaf directive, and a label hook that empties labels. -/
def emptyingLabels : Options Trace where
  filter := (FilterPolicy.retype (some "rule") NodeType.containerDirective).hook
  handleLabel := LabelPolicy.clear.hook

/-- Both containers have the one label. Its list is emptied for the first of them, and is empty when the
other one hands it on. -/
theorem run_settles_taggedNotes :
    (∃ enough r, (∀ budget, enough ≤ budget →
          run emptyingLabels budget ⟨0⟩ ⟨Session.taggedNotes, #[], {}⟩ = r) ∧
        ∀ v, r ≠ .error .outOfBudget v) ∧
      (stores emptyingLabels 40 ⟨0⟩ ⟨Session.taggedNotes, #[], {}⟩).Pairwise Subsides ∧
      (stores emptyingLabels 40 ⟨0⟩ ⟨Session.taggedNotes, #[], {}⟩).map (fun s => s.list ⟨2⟩) =
        [[⟨4⟩], [], [], [], []] := by
  obtain ⟨hends, hstores, -⟩ := run_settles (o := emptyingLabels)
    (w := ⟨Session.taggedNotes, #[], {}⟩)
    (steady_policies (.retype (some "rule") NodeType.containerDirective)
      (by simp [LabelPolicy.placing]))
    Session.closed_taggedNotes Session.acyclic_taggedNotes
    (by decide : Session.taggedNotes.HasNode ⟨0⟩)
  exact ⟨hends, (hstores 40).2, by decide +kernel⟩

end Pass

end DirectiveLowering
