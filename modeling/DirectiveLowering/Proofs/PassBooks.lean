import DirectiveLowering.Proofs.Frame
import DirectiveLowering.Proofs.SecondPass
import Mathlib.Data.List.Forall2

/-!
# The books of a pass

The books of a pass are an account of its course and of nothing else: every visit that returns has
skipped, rejected or lowered its directive, and has counted and reported just that; a visit that fails
ends the pass, and has counted its directive as visited and at most a label. The hooks are arbitrary.

Results:
* `visitor_enters`: what a visit enters in the books.
* `books_run`: the books of a pass, by how it ends; `Concludes.exists_told`: the notices among them.
* `stats_run`: the statistics of a pass; `InOrder.balanced`, `CutShort.balanced`: how they balance.
-/

namespace DirectiveLowering

/-! ## Verdicts -/

/-- What becomes of a directive that a pass meets. -/
inductive Verdict
  | skipped
  | rejected
  | lowered
deriving DecidableEq, Repr

/-- Counts a directive with what has become of it. -/
def Stats.conclude (s : Stats) : Verdict → Stats
  | .skipped => s.skip
  | .rejected => s.reject
  | .lowered => s.transform

namespace Pass

open Walk

variable {σ : Type} {o : Options σ}

/-- What a visit has done with its directive, unless it failed. -/
def verdict? (o : Options σ) (m : Moment (σ × Books)) : Option Verdict :=
  match m.answer? with
  | none => none
  | some _ =>
    if o.skipTransformed.truthy && (m.before.store.node m.call.node).isLowered then some .skipped
    else
      match o.filter m.call.node (m.before.view Prod.fst) with
      | .ok true _ => some .lowered
      | .ok false _ => some .rejected
      | .error _ _ => none

/-- What a visit reports: what has become of its directive, with the names that the directive and the
element have when that is settled. -/
inductive Reports (o : Options σ) (m : Moment (σ × Books)) : Notice → Prop
  | skipped {hName : String} (verdict : verdict? o m = some .skipped)
      (name : (m.before.store.node m.call.node).loweredName? = some hName) :
      Reports o m (.skipped (m.before.store.node m.call.node).name hName)
  | rejected {v : World σ} (verdict : verdict? o m = some .rejected)
      (filter : o.filter m.call.node (m.before.view Prod.fst) = .ok false v) :
      Reports o m (.rejected (v.store.node m.call.node).name)
  | lowered {v : World σ} {notice : Notice} (verdict : verdict? o m = some .lowered)
      (filter : o.filter m.call.node (m.before.view Prod.fst) = .ok true v)
      (lowering : LoweredAs o m.call.node ⟨v.store, v.memory,
        { m.before.memory.2 with stats := m.before.memory.2.stats.visit }⟩ notice) :
      Reports o m notice

theorem Reports.isSome_verdict? {m : Moment (σ × Books)} {notice : Notice}
    (h : Reports o m notice) : (verdict? o m).isSome = true := by
  cases h with
  | skipped verdict => rw [verdict]; rfl
  | rejected verdict => rw [verdict]; rfl
  | lowered verdict => rw [verdict]; rfl

/-- What a visit reports has the level of a detail. -/
theorem Reports.level {m : Moment (σ × Books)} {notice : Notice} (h : Reports o m notice) :
    notice.level = 3 := by
  cases h with
  | skipped => rfl
  | rejected => rfl
  | lowered verdict filter lowering =>
    obtain ⟨kind, element, v, -, -, rfl⟩ := lowering
    rfl

theorem level_of_reported {moments : List (Moment (σ × Books))} {told : List Notice}
    (h : List.Forall₂ (Reports o) moments told) : ∀ n ∈ told, n.level = 3 := by
  induction h with
  | nil => simp
  | cons hreports _ ih =>
    intro n hn
    rcases List.mem_cons.1 hn with rfl | hn
    · exact hreports.level
    · exact ih n hn

/-! ## A visit -/

/-- A visit counts its directive. If it returns, it has counted and reported what has become of the
directive, and handed on a label only if it has lowered it; if it fails, at most a label is counted. -/
theorem visitor_enters (o : Options σ) (n : NodeId) (i : Option Nat) (p : Option NodeId)
    (w : World (σ × Books)) :
    match visitor o n i p w with
    | .ok _ v => ∃ verdict notice calls, verdict? o (moment (visitor o) n i p w) = some verdict ∧
        Reports o (moment (visitor o) n i p w) notice ∧
        calls ≤ (if verdict = .lowered then 1 else 0) ∧
        v.memory.2 = { stats := (w.memory.2.stats.visit.hand calls).conclude verdict
                       notices := w.memory.2.notices.push notice }
    | .error _ v => verdict? o (moment (visitor o) n i p w) = none ∧ ∃ calls, calls ≤ 1 ∧
        v.memory.2 = { w.memory.2 with stats := w.memory.2.stats.visit.hand calls } := by
  have hvisitor : visitor o n i p w = _ := visitor_apply i p
  by_cases hskips : Skips o n w
  · obtain ⟨hName, hname⟩ := Option.isSome_iff_exists.1 hskips.2
    rw [visit_of_loweredName hskips.1 hname] at hvisitor
    have hverdict : verdict? o (moment (visitor o) n i p w) = some .skipped := by
      have hskip : (o.skipTransformed.truthy && (w.store.node n).isLowered) = true :=
        Bool.and_eq_true_iff.2 hskips
      rw [verdict?, Moment.answer?, moment, hvisitor]
      dsimp only
      rw [if_pos hskip]
    rw [hvisitor]
    exact ⟨.skipped, _, 0, hverdict, .skipped hverdict hname, Nat.zero_le _,
      by rw [Stats.hand_zero]; rfl⟩
  · have hask : ¬ (o.skipTransformed.truthy && (w.store.node n).isLowered) = true :=
      fun h => hskips (Bool.and_eq_true_iff.1 h)
    rw [visit_of_asks hskips] at hvisitor
    cases hfilter : o.filter n (w.view Prod.fst) with
    | error fault u =>
      rw [hfilter] at hvisitor
      rw [verdict?, Moment.answer?, moment, hvisitor]
      exact ⟨rfl, 0, Nat.zero_le 1, by simp⟩
    | ok taken u =>
      rw [hfilter] at hvisitor
      cases taken with
      | false =>
        have hverdict : verdict? o (moment (visitor o) n i p w) = some .rejected := by
          rw [verdict?, Moment.answer?, moment, hvisitor]
          dsimp only
          rw [if_neg hask, hfilter]
        rw [hvisitor]
        exact ⟨.rejected, _, 0, hverdict, .rejected hverdict hfilter, Nat.zero_le _,
          by rw [Stats.hand_zero]; rfl⟩
      | true =>
        obtain ⟨calls, hle, hbooks⟩ := books_lower o n
          ⟨u.store, u.memory, { w.memory.2 with stats := w.memory.2.stats.visit }⟩
        dsimp only at hvisitor
        cases hlower : lower o n
            ⟨u.store, u.memory, { w.memory.2 with stats := w.memory.2.stats.visit }⟩ with
        | error fault v =>
          rw [hlower] at hvisitor hbooks
          rw [verdict?, Moment.answer?, moment, hvisitor]
          exact ⟨rfl, calls, hle, hbooks⟩
        | ok a v =>
          rw [hlower] at hvisitor hbooks
          obtain ⟨notice, hlowering, hbooks⟩ := hbooks
          have hverdict : verdict? o (moment (visitor o) n i p w) = some .lowered := by
            rw [verdict?, Moment.answer?, moment, hvisitor]
            dsimp only
            rw [if_neg hask, hfilter]
          rw [hvisitor]
          exact ⟨.lowered, notice, calls, hverdict, .lowered hverdict hfilter hlowering, hle, hbooks⟩

/-! ## The account of a pass -/

/-- The statistics of some visits: each is counted, with what it has done with its directive. -/
def tally (o : Options σ) (moments : List (Moment (σ × Books))) (labels : Nat) : Stats where
  visited := moments.length
  transformed := moments.countP (verdict? o · == some .lowered)
  skipped := moments.countP (verdict? o · == some .skipped)
  filtered := moments.countP (verdict? o · == some .rejected)
  labels := labels

theorem tally_conclude {moments : List (Moment (σ × Books))} {m : Moment (σ × Books)}
    {verdict : Verdict} (h : verdict? o m = some verdict) (labels calls : Nat) :
    ((tally o moments labels).visit.hand calls).conclude verdict =
      tally o (moments ++ [m]) (labels + calls) := by
  cases verdict <;>
    simp [tally, Stats.visit, Stats.hand, Stats.conclude, Stats.skip, Stats.reject, Stats.transform,
      List.countP_append, h]

theorem tally_fail {moments : List (Moment (σ × Books))} {m : Moment (σ × Books)}
    (h : verdict? o m = none) (labels calls : Nat) :
    (tally o moments labels).visit.hand calls = tally o (moments ++ [m]) (labels + calls) := by
  simp [tally, Stats.visit, Stats.hand, List.countP_append, h]

/-- Visits that all return have each done one of three things. -/
theorem visited_tally {moments : List (Moment (σ × Books))} {told : List Notice}
    (h : List.Forall₂ (Reports o) moments told) (labels : Nat) :
    (tally o moments labels).visited = (tally o moments labels).transformed +
      (tally o moments labels).skipped + (tally o moments labels).filtered := by
  induction h with
  | nil => rfl
  | cons hreports _ ih =>
    obtain ⟨verdict, hverdict⟩ := Option.isSome_iff_exists.1 hreports.isSome_verdict?
    simp only [tally, List.length_cons, List.countP_cons, hverdict] at ih ⊢
    cases verdict <;> simp <;> omega

/-- The books of a pass whose visits have all returned so far. -/
structure InOrder (o : Options σ) (moments : List (Moment (σ × Books))) (w : World (σ × Books)) :
    Prop where
  stats : ∃ labels : Nat, (labels : Int) ≤ (tally o moments labels).transformed ∧
    w.memory.2.stats = tally o moments labels
  notices : ∃ told, List.Forall₂ (Reports o) moments told ∧
    w.memory.2.notices.toList = .started :: told

/-- The books of a pass whose last visit has failed. -/
structure CutShort (o : Options σ) (moments : List (Moment (σ × Books))) (w : World (σ × Books)) :
    Prop where
  stats : ∃ labels : Nat, (labels : Int) ≤ (tally o moments labels).transformed + 1 ∧
    w.memory.2.stats = tally o moments labels
  failed : ∃ m, moments = moments.dropLast ++ [m] ∧ verdict? o m = none
  notices : ∃ told, List.Forall₂ (Reports o) moments.dropLast told ∧
    w.memory.2.notices.toList = .started :: told

/-- Invariant of a pass: the books are in order from one visit to the next, and are cut short by one
that fails. -/
theorem inOrder_visitor {moments : List (Moment (σ × Books))} {w : World (σ × Books)}
    (h : InOrder o moments w) (n : NodeId) (i : Option Nat) (p : Option NodeId) :
    EndsWith (InOrder o (moments ++ [moment (visitor o) n i p w]))
      (fun _ => CutShort o (moments ++ [moment (visitor o) n i p w])) (visitor o n i p w) := by
  obtain ⟨labels, hle, hstats⟩ := h.stats
  obtain ⟨told, htold, hnotices⟩ := h.notices
  have henters := visitor_enters o n i p w
  cases hvisit : visitor o n i p w with
  | ok action v =>
    rw [hvisit] at henters
    obtain ⟨verdict, notice, calls, hverdict, hreports, hcalls, hbooks⟩ := henters
    refine ⟨⟨labels + calls, ?_, ?_⟩, told ++ [notice], ?_, ?_⟩
    · rw [← tally_conclude hverdict]
      cases verdict <;> simp [Stats.conclude, Stats.transform, Stats.visit, Stats.hand, Stats.skip,
        Stats.reject] at hcalls ⊢ <;> simp [tally] at hle ⊢ <;> omega
    · rw [hbooks, hstats]
      exact tally_conclude hverdict labels calls
    · exact List.rel_append htold (.cons hreports .nil)
    · rw [hbooks]
      simp [hnotices]
  | error fault v =>
    rw [hvisit] at henters
    obtain ⟨hverdict, calls, hcalls, hbooks⟩ := henters
    refine ⟨⟨labels + calls, ?_, ?_⟩, ⟨moment (visitor o) n i p w, by simp, hverdict⟩, told, ?_, ?_⟩
    · rw [← tally_fail hverdict]
      simp [tally, Stats.visit, Stats.hand] at hle ⊢
      omega
    · rw [hbooks, hstats]
      exact tally_fail hverdict labels calls
    · simpa using htold
    · rw [hbooks]
      exact hnotices

/-- The books that the walk of a pass leaves. -/
theorem books_walk (o : Options σ) (budget : Nat) (root : NodeId) (s : Store) (m : σ) :
    EndsWith (InOrder o (course o budget root ⟨s, m, {}⟩))
      (stopped (InOrder o (course o budget root ⟨s, m, {}⟩))
        fun _ => CutShort o (course o budget root ⟨s, m, {}⟩))
      (Walk.run (.oneOf directiveTypes) (visitor o) budget root (started ⟨s, m, {}⟩)) :=
  account_ends (J := InOrder o) (F := fun moments _ => CutShort o moments)
    (fun _ n i p _ _ _ h => inOrder_visitor h n i p) budget
    ⟨⟨0, by simp [tally], rfl⟩, [], .nil, rfl⟩

/-- The label hook is called as often in a pass as labels are counted. -/
theorem labels_run (o : Options σ) (budget : Nat) (root : NodeId) (s : Store) (m : σ) :
    (left (run o budget root ⟨s, m, {}⟩)).memory.2.stats.labels =
      (hookCalls o budget root ⟨s, m, {}⟩).countP HookEvent.isLabel := by
  have hkept : Preserves (.oneOf directiveTypes) (visitor o.recorded) root
      (CountsLabels (started (⟨s, (m, []), {}⟩ : World ((σ × List HookEvent) × Books)))) :=
    fun n i p w _ _ h => h.trans _ _ _ (keeps_visitor o n i p w)
  have hwalk := invariant_run hkept budget (.of_same rfl rfl)
  obtain ⟨events, hevents, hlabels⟩ := hwalk
  obtain ⟨notices, hrun⟩ := left_run o.recorded budget root ⟨s, (m, []), {}⟩
  have hcovers := covers_run_recorded (o := o) budget root ⟨s, (m, []), {}⟩
  have hview : (left (run o.recorded budget root ⟨s, (m, []), {}⟩)).view unrecorded =
      left (run o budget root ⟨s, m, {}⟩) := by
    rw [← left_viewed, hcovers]
    rfl
  rw [← hview, hookCalls, hrun]
  have hcalls := hevents.trans (List.nil_append events)
  have hcounted := hlabels.trans (Int.zero_add _)
  exact hcounted.trans (by rw [hcalls])

/-! ## What a pass leaves in its books -/

/-- The books of a pass by how it ends: they are in order, and end with a summary if the pass has come to
its end, unless a fault has cut it short. -/
def Concludes (o : Options σ) (moments : List (Moment (σ × Books))) :
    EStateM.Result Halt (World (σ × Books)) Unit → Prop
  | .ok _ v => ∃ u, InOrder o moments u ∧ v = concluded u
  | .error (.raised _) v => CutShort o moments v
  | .error .outOfBudget v => InOrder o moments v

theorem books_run (o : Options σ) (budget : Nat) (root : NodeId) (s : Store) (m : σ) :
    Concludes o (course o budget root ⟨s, m, {}⟩) (run o budget root ⟨s, m, {}⟩) := by
  have hwalk := books_walk o budget root s m
  rw [started] at hwalk
  rw [run_apply]
  cases hr : Walk.run (.oneOf directiveTypes) (visitor o) budget root
      ⟨s, m, { notices := (#[] : Array Notice).push .started }⟩ with
  | ok a u =>
    rw [hr] at hwalk
    exact ⟨u, hwalk, rfl⟩
  | error halt u =>
    rw [hr] at hwalk
    cases halt <;> exact hwalk

theorem Concludes.exists_tally {moments : List (Moment (σ × Books))}
    {r : EStateM.Result Halt (World (σ × Books)) Unit} (h : Concludes o moments r) :
    ∃ labels : Nat, (left r).memory.2.stats = tally o moments labels := by
  cases r with
  | ok a v =>
    obtain ⟨u, hu, rfl⟩ := h
    obtain ⟨labels, -, hstats⟩ := hu.stats
    exact ⟨labels, hstats⟩
  | error halt v =>
    cases halt with
    | raised fault =>
      obtain ⟨labels, -, hstats⟩ := CutShort.stats h
      exact ⟨labels, hstats⟩
    | outOfBudget =>
      obtain ⟨labels, -, hstats⟩ := InOrder.stats h
      exact ⟨labels, hstats⟩

/-- A pass says that it starts, then one detail for each visit that returns, and in the end, if it comes to
its end, its statistics. -/
theorem Concludes.exists_told {moments : List (Moment (σ × Books))}
    {r : EStateM.Result Halt (World (σ × Books)) Unit} (h : Concludes o moments r) :
    ∃ told ending, (left r).memory.2.notices.toList = .started :: told ++ ending ∧
      (∀ n ∈ told, n.level = 3) ∧ (ending = [] ∨ ∃ stats, ending = [.finished stats]) := by
  cases r with
  | ok a v =>
    obtain ⟨u, hu, rfl⟩ := h
    obtain ⟨told, htold, hnotices⟩ := hu.notices
    exact ⟨told, [.finished u.memory.2.stats], by simp [left, concluded, hnotices],
      level_of_reported htold, Or.inr ⟨_, rfl⟩⟩
  | error halt v =>
    cases halt with
    | raised fault =>
      obtain ⟨told, htold, hnotices⟩ := CutShort.notices h
      exact ⟨told, [], by simp [left, hnotices], level_of_reported htold, Or.inl rfl⟩
    | outOfBudget =>
      obtain ⟨told, htold, hnotices⟩ := InOrder.notices h
      exact ⟨told, [], by simp [left, hnotices], level_of_reported htold, Or.inl rfl⟩

/-- The statistics of a pass are those of its visits, with the calls of the label hook. -/
theorem stats_run (o : Options σ) (budget : Nat) (root : NodeId) (s : Store) (m : σ) :
    (left (run o budget root ⟨s, m, {}⟩)).memory.2.stats =
      tally o (course o budget root ⟨s, m, {}⟩)
        ((hookCalls o budget root ⟨s, m, {}⟩).countP HookEvent.isLabel) := by
  have hlabels := labels_run o budget root s m
  obtain ⟨labels, hstats⟩ := (books_run o budget root s m).exists_tally
  rw [hstats] at hlabels ⊢
  rw [Int.ofNat.inj hlabels]

theorem InOrder.balanced {moments : List (Moment (σ × Books))} {w : World (σ × Books)}
    (h : InOrder o moments w) : w.memory.2.stats.Balanced := by
  obtain ⟨labels, hle, hstats⟩ := h.stats
  obtain ⟨told, htold, -⟩ := h.notices
  rw [hstats]
  exact ⟨visited_tally htold labels, hle⟩

/-- The directive at which a pass was cut short is counted as visited and as nothing else. -/
theorem CutShort.balanced {moments : List (Moment (σ × Books))} {w : World (σ × Books)}
    (h : CutShort o moments w) :
    w.memory.2.stats.visited = w.memory.2.stats.transformed + w.memory.2.stats.skipped +
        w.memory.2.stats.filtered + 1 ∧
      w.memory.2.stats.labels ≤ w.memory.2.stats.transformed + 1 := by
  obtain ⟨labels, hle, hstats⟩ := h.stats
  obtain ⟨m, hlast, hverdict⟩ := h.failed
  obtain ⟨told, htold, -⟩ := h.notices
  have hvisited := visited_tally htold labels
  have hfail : (tally o moments.dropLast labels).visit.hand 0 =
      tally o (moments.dropLast ++ [m]) (labels + 0) := tally_fail hverdict labels 0
  rw [← hlast, Nat.add_zero, Stats.hand_zero] at hfail
  rw [hstats]
  refine ⟨?_, hle⟩
  rw [← hfail]
  simp only [Stats.visit]
  omega

end Pass

end DirectiveLowering
