import DirectiveLowering.Proofs.Calls
import DirectiveLowering.Proofs.Faltering
import DirectiveLowering.Proofs.TreePass

/-!
# Interrupted passes

A call of a hook that raises ends the pass with the fault that it raised. The directives that were visited
before are in their final form, and everything else is as it was: the directive that the call was made
for, with its label still in place, and whatever the walk has not come to. A later pass with hooks that do
not raise ends in the tree that it would have made of the document in the first place.

Results:
* `visits_watched`: what visits that return leave of the lists of calls and of mishaps.
* `raised_watched`: what a visit that stops adds to them.
* `run_interrupted`: how a pass with hooks that may raise ends, and what a later pass makes of that.
-/

namespace DirectiveLowering.Pass

open Store
open Walk (Visits)

variable {σ : Type} {o : Options σ} {c : Choices} {slot : Bool} {s s' : Store} {n d : NodeId} {t : Tree}
  {cells : List Cell}

/-! ## Visits with their calls and mishaps -/

/-- The directives that the visitor of a pass is called on, in order. -/
def visited (o : Options σ) (budget : Nat) (root : NodeId) (w : World (σ × Books)) : List NodeId :=
  (Walk.callsOf (Walk.run (.oneOf directiveTypes) · budget root) (visitor o)
    ⟨w.store, w.memory.1, { w.memory.2 with
      notices := w.memory.2.notices.push .started }⟩).map Walk.Call.node

/-- The calls of hooks that raise in a pass. -/
def mishaps (o : Options σ) (budget : Nat) (root : NodeId) (w : World (σ × Books)) : List Mishap :=
  (left (run o.withMishaps budget root ⟨w.store, (w.memory.1, []), w.memory.2⟩)).memory.1.2

/-- The visitor of a pass, keeping its calls and the calls of hooks that raise. -/
def watched (o : Options σ) : Visitor (((σ × List Mishap) × Books) × List Walk.Call) :=
  Walk.logged (visitor o.withMishaps)

/-- The directives that a watched visitor was called on so far. -/
def calledOn (w : World (((σ × List Mishap) × Books) × List Walk.Call)) : List NodeId :=
  w.memory.2.map Walk.Call.node

variable {w u v : World (((σ × List Mishap) × Books) × List Walk.Call)}

theorem deals_watched (h : o.Falters c slot) : Deals (watched o) c slot :=
  (deals_withMishaps h).of_covered Walk.covers_logged

/-- A visit that returns adds its directive to the calls and nothing to the mishaps. -/
theorem visit_watched (h : o.Falters c slot) (hready : Ready w.store d) {i : Option Nat}
    {p : Option NodeId} {action : Action} (hvisit : watched o d i p w = .ok action v) :
    calledOn v = calledOn w ++ [d] ∧ v.memory.1.1.2 = w.memory.1.1.2 := by
  obtain ⟨s, memory, calls⟩ := w
  rw [watched, Walk.logged_apply, visitor_apply] at hvisit
  rcases keepsUp_visit h hready memory with ⟨heq, hsame⟩ | ⟨_, _, u, hraised, -⟩
  · rw [heq] at hvisit
    cases hy : visit (o.mended c slot) d ⟨s, memory⟩ with
    | ok a u =>
      rw [hy] at hvisit hsame
      cases hvisit
      exact ⟨List.map_append, hsame⟩
    | error fault u =>
      rw [hy] at hvisit
      cases hvisit
  · rw [hraised] at hvisit
    cases hvisit

theorem visits_watched (h : o.Falters c slot) {done : List NodeId}
    (hvisits : Visits (watched o) w done v) :
    calledOn v = calledOn w ++ done ∧ v.memory.1.1.2 = w.memory.1.1.2 := by
  induction hvisits with
  | nil => exact ⟨(List.append_nil _).symm, rfl⟩
  | @cons w u v n ns i p hready hvisit _ ih =>
    obtain ⟨hnodes, hmishaps⟩ := visit_watched h hready hvisit
    obtain ⟨hnodes', hmishaps'⟩ := ih
    refine ⟨?_, hmishaps'.trans hmishaps⟩
    rw [hnodes', hnodes, List.append_assoc, List.singleton_append]

/-- A visit that stops adds its directive to the calls, and the mishap that stopped it, in a call made
for that directive. -/
theorem raised_watched (h : o.Falters c slot) (hready : Ready w.store d) {i : Option Nat}
    {p : Option NodeId} {fault : Fault} (hvisit : watched o d i p w = .error fault v) :
    calledOn v = calledOn w ++ [d] ∧
      ∃ event, c.MadeFor w.store d event ∧ v.memory.1.1.2 = w.memory.1.1.2 ++ [⟨event, fault⟩] := by
  obtain ⟨s, memory, calls⟩ := w
  rw [watched, Walk.logged_apply, visitor_apply] at hvisit
  rcases keepsUp_visit h hready memory with ⟨heq, -⟩ | ⟨event, fault', u, hraised, hmishaps, hevent, -⟩
  · rw [heq] at hvisit
    cases hy : visit (o.mended c slot) d ⟨s, memory⟩ with
    | ok a u =>
      rw [hy] at hvisit
      cases hvisit
    | error fault' u =>
      -- a mended visit does not stop
      refine absurd ⟨i, p, ?_⟩
        (not_raised (w := ⟨s, memory⟩) h.follows_mended h.labels_mended hready fault' u)
      rw [visitor_apply, hy]
  · rw [hraised] at hvisit
    cases hvisit
    exact ⟨List.map_append, event, hevent, hmishaps⟩

/-- A call that is made for a directive is made for it as it was before, if it and its children are the
same as then. -/
theorem madeFor_of_sameFamily {event : HookEvent} (hsame : SameFamily s s' d)
    (h : c.MadeFor s' d event) : c.MadeFor s d event := by
  cases event with
  | filter n seen => exact ⟨h.1, h.2.trans hsame.node⟩
  | tag name =>
    rw [Choices.MadeFor, hsame.node] at h
    exact h
  | attributeName tag name =>
    rw [Choices.MadeFor, hsame.node] at h
    exact h
  | label seen children content =>
    obtain ⟨hseen, hchildren, label, hlabel, hcontent⟩ := h
    rw [hsame.findLabel] at hlabel
    rw [hsame.node] at hseen
    rw [hsame.withoutLabels] at hchildren
    rw [hsame.child label (List.mem_of_find?_eq_some hlabel)] at hcontent
    exact ⟨hseen, hchildren, label, hlabel, hcontent⟩

/-! ## The pass -/

/-- What is there when a call made for a directive has stopped a pass: the directives visited before are
in their final form, and nothing else that was there has changed. -/
structure Stopped (c : Choices) (slot : Bool) (s s' : Store) (before : List NodeId) (d : NodeId) :
    Prop where
  nodup : (before ++ [d]).Nodup
  directive : ∀ k ∈ before ++ [d], (s.node k).isDirective = true
  finished : ∀ k ∈ before, Finished c slot s s' k
  node : ∀ k, s.HasNode k → k ∉ before → s'.node k = s.node k
  list : ∀ l, s.HasList l → s'.list l = s.list l

/-- How a watched walk ends, in terms of the pass. -/
theorem run_of_watched {budget : Nat} {m : σ} {r : EStateM.Result Halt _ Bool}
    (hwalk : Walk.run (.oneOf directiveTypes) (watched o) budget n
      ⟨s, ((m, []), { ({} : Books) with notices := ({} : Books).notices.push .started }), []⟩ =
      Walk.ended r) :
    ∃ w' : World (σ × Books), w'.store = (left r).store ∧
      (∀ v goesOn, r = .ok goesOn v → run o budget n ⟨s, m, {}⟩ = .ok () w') ∧
      (∀ v halt, r = .error halt v → run o budget n ⟨s, m, {}⟩ = .error halt w') ∧
      mishaps o budget n ⟨s, m, {}⟩ = (left r).memory.1.1.2 ∧
      visited o budget n ⟨s, m, {}⟩ = calledOn (left r) := by
  let w₀ : World ((σ × List Mishap) × Books) :=
    ⟨s, (m, []), { ({} : Books) with notices := ({} : Books).notices.push .started }⟩
  have hended : viewed Prod.fst (Walk.ended r) =
      Walk.run (.oneOf directiveTypes) (visitor o.withMishaps) budget n w₀ := by
    rw [← hwalk]
    exact Walk.run_logged budget n w₀
  have hpass := run_apply o.withMishaps budget n s (m, []) {}
  rw [← hended] at hpass
  have hcovers := covers_run o.extends_withMishaps budget n ⟨s, (m, []), {}⟩
  have hcalls : Walk.callsOf (Walk.run (.oneOf directiveTypes) · budget n) (visitor o)
      (w₀.view (viewHooks Prod.fst)) =
      Walk.callsOf (Walk.run (.oneOf directiveTypes) · budget n) (visitor o.withMishaps) w₀ :=
    Walk.callsOf_run_of_covers (covers_visitor o.extends_withMishaps) budget n w₀
  have hnodes : visited o budget n ⟨s, m, {}⟩ = calledOn (left (Walk.ended r)) := by
    rw [calledOn, ← hwalk]
    exact congrArg (List.map Walk.Call.node) hcalls
  rw [mishaps]
  match r with
  | .ok goesOn v =>
    rw [hpass] at hcovers ⊢
    refine ⟨⟨v.store, v.memory.1.1.1, { v.memory.1.2 with
      notices := v.memory.1.2.notices.push (.finished v.memory.1.2.stats) }⟩, rfl, ?_, ?_, rfl, hnodes⟩
    · rintro _ _ ⟨⟩
      exact hcovers.symm
    · rintro _ _ ⟨⟩
  | .error halt v =>
    rw [hpass] at hcovers ⊢
    refine ⟨⟨v.store, v.memory.1.1.1, v.memory.1.2⟩, rfl, ?_, ?_, rfl, hnodes⟩
    · rintro _ _ ⟨⟩
    · rintro _ _ ⟨⟩
      exact hcovers.symm

/-- A later pass with hooks that do not raise ends in the tree that the same pass would have made of the
document as it was at first. -/
def Resumes (c : Choices) (slot : Bool) (n : NodeId) (s s' : Store) : Prop :=
  ∀ (τ : Type) (o' : Options τ) (m : τ), o'.Follows c → o'.Labels slot →
    ∃ u, (∃ w, Completed o' n ⟨s', m⟩ w ∧ w.store.HoldsTree n u) ∧
      ∃ w, Completed o' n ⟨s, m⟩ w ∧ w.store.HoldsTree n u

/-- What stands at the root after some visits is lowered to the same tree as what stood there at first. -/
theorem resumes_of_advanced {done : List NodeId} {ts : List Tree} (hheld : s.Holds n t cells)
    (hnodup : cells.Nodup) (hplain : t.Everywhere Fields.PlainAttributes)
    (h : Advanced c slot s [n] [t] cells done ts s') : Resumes c slot n s s' := by
  intro τ o' m hfollows hlabels
  obtain ⟨cells', hheld', hturns⟩ := h.held
  obtain ⟨t', rfl⟩ : ∃ t', ts = [t'] := by
    cases hheld' with
    | @cons _ _ t' _ _ _ _ hrest =>
      cases hrest with
      | nil => exact ⟨t', rfl⟩
  have hagain := run_leaves_tree hfollows hlabels ⟨cells', hheld'.of_singleton, hturns.nodup⟩
    (h.plain t' (List.mem_singleton.2 rfl)) m
  rw [List.singleton_inj.1 h.lowered] at hagain
  exact ⟨_, hagain, run_leaves_tree hfollows hlabels ⟨cells, hheld, hnodup⟩ hplain m⟩

/-- What a visit that stops leaves. -/
theorem stopped_of_dealt {before : List NodeId} (h : Dealt c slot s before s') (hfresh : d ∉ before)
    (hdirective : (s.node d).isDirective = true) : Stopped c slot s s' before d where
  nodup := List.nodup_append.2 ⟨h.nodup, by simp, fun a ha b hb => by
    rintro rfl
    rw [List.mem_singleton.1 hb] at ha
    exact hfresh ha⟩
  directive k hk := by
    rcases List.mem_append.1 hk with hk | hk
    · exact h.directive k hk
    · rwa [List.mem_singleton.1 hk]
  finished := h.finished
  node := h.grows.node
  list := h.grows.list

/-- **Interrupted passes**: if no call of a hook raises, the pass lowers the tree. If one raises, the pass
ends with that fault. The directives visited before the one that the call was made for are in their final
form, and nothing else has changed. Either way a later pass ends in the tree that it would have made of
the document in the first place. -/
theorem run_interrupted (h : o.Falters c slot) (hheld : s.Holds n t cells) (hnodup : cells.Nodup)
    (hplain : t.Everywhere Fields.PlainAttributes) (m : σ) :
    ∃ budget, ∀ b, budget ≤ b → ∃ w' : World (σ × Books),
      ((run o b n ⟨s, m, {}⟩ = .ok () w' ∧ mishaps o b n ⟨s, m, {}⟩ = [] ∧
          w'.store.HoldsTree n (c.lowerTree slot t)) ∨
        ∃ fault event before d, run o b n ⟨s, m, {}⟩ = .error (.raised fault) w' ∧
          mishaps o b n ⟨s, m, {}⟩ = [⟨event, fault⟩] ∧ c.MadeFor s d event ∧
          visited o b n ⟨s, m, {}⟩ = before ++ [d] ∧ Stopped c slot s w'.store before d) ∧
      Resumes c slot n s w'.store := by
  obtain ⟨budget, r, hends, hrun⟩ := run_ends (w := ⟨s, ((m, []), { ({} : Books) with
    notices := ({} : Books).notices.push .started }), []⟩) (deals_watched h) hheld hnodup hplain
  refine ⟨budget, fun b hb => ?_⟩
  obtain ⟨w', hstore, hok, herror, hmishaps, hvisited⟩ := run_of_watched (hrun b hb)
  refine ⟨w', ?_⟩
  match r, hends with
  | .ok goesOn v, ⟨_, done, hvisits, hadvanced⟩ =>
    rw [left] at hstore hmishaps
    rw [← hstore] at hadvanced
    obtain ⟨cells', hheld', hturns⟩ := hadvanced.held
    refine ⟨.inl ⟨hok v goesOn rfl, hmishaps.trans (visits_watched h hvisits).2, cells',
      hheld'.of_singleton, hturns.nodup⟩, resumes_of_advanced hheld hnodup hplain hadvanced⟩
  | .error (.raised fault) v, ⟨before, d, ts', u, hstopped⟩ =>
    rw [left] at hstore hmishaps hvisited
    have hadvanced := hstopped.advanced.of_unchanged hstopped.unchanged
    rw [← hstore] at hadvanced
    obtain ⟨i, p, hraised⟩ := hstopped.raised
    obtain ⟨hbefore, hnone⟩ := visits_watched h hstopped.visits
    obtain ⟨hnodes, event, hevent, hone⟩ := raised_watched h hstopped.ready hraised
    refine ⟨.inr ⟨fault, event, before, d, herror v _ rfl, ?_,
      madeFor_of_sameFamily hstopped.family hevent, ?_,
      stopped_of_dealt hadvanced.dealt hstopped.fresh ?_⟩,
      resumes_of_advanced hheld hnodup hplain hadvanced⟩
    · rw [hmishaps, hone, hnone]
      rfl
    · rw [hvisited, hnodes, hbefore]
      rfl
    · rw [← hstopped.family.node]
      exact hstopped.ready.directive

/-- A fault has ended the computation. -/
def endsWithFault {μ α : Type} : EStateM.Result Halt (World μ) α → Bool
  | .error (.raised _) _ => true
  | _ => false

/-- Hooks that keep all names, but fail for one. -/
def withoutRules : Options Unit :=
  { Choices.options {} slotLabel with
    transformTag := fun name =>
      if name = some "rule" then throw (.raised .runtime "no rules here") else return name }

theorem falters_withoutRules : withoutRules.Falters {} true where
  skipTransformed := rfl
  filter _ w := .inl ⟨w.memory, rfl⟩
  handleLabel _ _ w := .inl ⟨w.memory, rfl⟩
  transformTag name w := by
    by_cases hrule : name = some "rule"
    · exact .inr ⟨_, w.memory, congrFun (if_pos hrule) w⟩
    · exact .inl ⟨w.memory, congrFun (if_neg hrule) w⟩
  transformAttribute _ _ w := .inl ⟨w.memory, rfl⟩

/-- The container has become an element with a slot when the hook fails for the leaf directive in it. -/
theorem run_interrupted_labelledNote :
    ∃ b w' fault event before d,
      run withoutRules b ⟨0⟩ ⟨labelledNoteStore, (), {}⟩ = .error (.raised fault) w' ∧
        mishaps withoutRules b ⟨0⟩ ⟨labelledNoteStore, (), {}⟩ = [⟨event, fault⟩] ∧
        Choices.MadeFor {} labelledNoteStore d event ∧
        visited withoutRules b ⟨0⟩ ⟨labelledNoteStore, (), {}⟩ = before ++ [d] ∧
        Stopped {} true labelledNoteStore w'.store before d ∧
        Resumes {} true ⟨0⟩ labelledNoteStore w'.store := by
  have hstops : endsWithFault (Walk.run (.oneOf directiveTypes) (visitor withoutRules) 20 ⟨0⟩
      ⟨labelledNoteStore, (), { ({} : Books) with notices := ({} : Books).notices.push .started }⟩) =
      true := by decide +kernel
  obtain ⟨budget, hends⟩ := run_interrupted falters_withoutRules holds_labelledNote (by decide)
    plain_labelledNote ()
  obtain ⟨w', hw', hresumes⟩ := hends (budget + 20) (Nat.le_add_right _ _)
  rcases hw' with ⟨hreturns, -⟩ | ⟨fault, event, before, d, hraised, hmishaps, hevent, hvisited, hleft⟩
  · exfalso
    rw [run_apply] at hreturns
    cases hwalk : Walk.run (.oneOf directiveTypes) (visitor withoutRules) 20 ⟨0⟩ ⟨labelledNoteStore,
        (), { ({} : Books) with notices := ({} : Books).notices.push .started }⟩ with
    | ok a v =>
      rw [hwalk] at hstops
      cases hstops
    | error halt v =>
      cases halt with
      | outOfBudget =>
        rw [hwalk] at hstops
        cases hstops
      | raised fault =>
        rw [Walk.run_of_le (Nat.le_add_left 20 budget) hwalk (by simp)] at hreturns
        cases hreturns
  · exact ⟨_, w', fault, event, before, d, hraised, hmishaps, hevent, hvisited, hleft, hresumes⟩

end DirectiveLowering.Pass
