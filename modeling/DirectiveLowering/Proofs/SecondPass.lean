import DirectiveLowering.Proofs.Bookkeeping
import DirectiveLowering.Proofs.Sharing

/-!
# A second pass

What a pass has left, a second pass with the same choices leaves as it is. The second walk comes to the
same nodes in the same order: the first one had read each list as it is at the end, and the children of
each node after the visit, when they would not change any more. Directives that the first pass had
lowered are none any more, and the others are left alone again, and counted again.

Results:
* `sameLeft_lower`: lowering a directive counts no directive as left alone.
* `visit_leaves`, `visit_takes`: a directive that is left alone, with what is counted and asked, and one
  that is taken.
* `visitNode_repeats`, `walkFrom_repeats`: what a visit and the walk of a list do when they are repeated.
* `run_again`: a second pass.
-/

namespace DirectiveLowering

/-! ## Counting what is left alone -/

namespace Stats

/-- Counts directives met that were left alone: so many skipped, and so many rejected. -/
def leave (s : Stats) (skipped filtered : Int) : Stats :=
  { s with
    visited := s.visited + (skipped + filtered)
    skipped := s.skipped + skipped
    filtered := s.filtered + filtered }

theorem leave_zero (s : Stats) : s.leave 0 0 = s := by
  simp [leave]

theorem leave_leave (s : Stats) (a b a' b' : Int) :
    (s.leave a b).leave a' b' = s.leave (a + a') (b + b') := by
  simp only [leave, Stats.mk.injEq, and_true, true_and]
  omega

end Stats

/-- How often a directive that is left alone counts as skipped, and how often as rejected. -/
def Choices.leftCounts (c : Choices) (f : Fields) : Int × Int :=
  if c.skipTransformed.truthy && f.isLowered then (1, 0) else (0, 1)

/-- The event is a call of the filter. -/
def HookEvent.IsFilter (e : HookEvent) : Prop :=
  ∃ n seen, e = .filter n seen

namespace Pass

open Store

variable {σ : Type} {o : Options σ} {c : Choices} {s₀ s : Store} {n : NodeId}

/-! ## Lowering counts nothing as left alone -/

/-- As many directives are counted as skipped and as rejected in both worlds. -/
def SameLeft (w v : World (σ × Books)) : Prop :=
  v.memory.2.stats.skipped = w.memory.2.stats.skipped ∧
    v.memory.2.stats.filtered = w.memory.2.stats.filtered

theorem SameLeft.refl (w : World (σ × Books)) : SameLeft w w :=
  ⟨rfl, rfl⟩

/-- Lowering a directive counts nothing as left alone. -/
theorem sameLeft_lower {w v : World (σ × Books)} (h : lower o n w = .ok () v) : SameLeft w v := by
  obtain ⟨calls, -, hbooks⟩ := books_lower o n w
  rw [h] at hbooks
  obtain ⟨notice, -, hbooks⟩ := hbooks
  rw [SameLeft, hbooks]
  exact ⟨rfl, rfl⟩

/-! ## Doing the same again -/

/-- In this store the computation gives this answer, changes no document, asks the filter at most, and
counts so many directives as left alone and no others. -/
def Replays {ε α : Type} (s : Store) (x : EStateM ε (World ((σ × List HookEvent) × Books)) α) (a : α)
    (skipped filtered : Int) : Prop :=
  ∀ m events books, ∃ m' asked notices, x ⟨s, (m, events), books⟩ =
      .ok a ⟨s, (m', events ++ asked), ⟨books.stats.leave skipped filtered, notices⟩⟩ ∧
    ∀ e ∈ asked, e.IsFilter

section Replays

variable {ε ε' α β : Type} {x : EStateM ε (World ((σ × List HookEvent) × Books)) α} {a : α}
  {p q p' q' : Int}

/-- A computation that only gives an answer. -/
theorem Replays.of_same
    (h : ∀ w : World ((σ × List HookEvent) × Books), w.store = s → x w = .ok a w) :
    Replays s x a 0 0 := by
  intro m events books
  refine ⟨m, [], books.notices, ?_, by simp⟩
  rw [h _ rfl, Stats.leave_zero, List.append_nil]

/-- One computation after the other. -/
theorem Replays.trans {y : EStateM ε' (World ((σ × List HookEvent) × Books)) β} {b : β}
    {z : EStateM ε' (World ((σ × List HookEvent) × Books)) β} (hx : Replays s x a p q)
    (hy : Replays s y b p' q') (hz : ∀ w v, w.store = s → v.store = s → x w = .ok a v → z w = y v) :
    Replays s z b (p + p') (q + q') := by
  intro m events books
  obtain ⟨m₁, asked₁, notices₁, hfirst, hasked₁⟩ := hx m events books
  obtain ⟨m₂, asked₂, notices₂, hsecond, hasked₂⟩ :=
    hy m₁ (events ++ asked₁) ⟨books.stats.leave p q, notices₁⟩
  refine ⟨m₂, asked₁ ++ asked₂, notices₂, ?_, fun e he => ?_⟩
  · rw [hz _ _ rfl rfl hfirst, hsecond, Stats.leave_leave, List.append_assoc]
  · rcases List.mem_append.1 he with he | he
    · exact hasked₁ e he
    · exact hasked₂ e he

end Replays

/-- A directive that is left alone is left alone again. -/
theorem visit_leaves (h : o.Follows c) (hleft : c.leavesAlone (s.node n).toFields = true) :
    Replays s (visit o.recorded n) () (c.leftCounts (s.node n).toFields).1
      (c.leftCounts (s.node n).toFields).2 := by
  intro m events books
  by_cases hask : (c.skipTransformed.truthy && (s.node n).isLowered) = true
  · obtain ⟨hskip, hlowered⟩ := Bool.and_eq_true_iff.1 hask
    obtain ⟨hName, hname⟩ := Option.isSome_iff_exists.1 hlowered
    refine ⟨m, [], books.notices.push (.skipped (s.node n).name hName), ?_, by simp⟩
    rw [visit_skipped h m events books hskip hname, Choices.leftCounts, if_pos hask, List.append_nil]
    simp [Stats.leave, Stats.visit, Stats.skip]
  · obtain ⟨m', hvisit⟩ := visit_rejected h m events books (by simpa using hask) hleft
    refine ⟨m', [.filter n (s.node n)], books.notices.push (.rejected (s.node n).name), ?_,
      fun e he => ⟨n, _, List.mem_singleton.1 he⟩⟩
    rw [hvisit, Choices.leftCounts, if_neg hask]
    simp [Stats.leave, Stats.visit, Stats.reject]

/-- So many more directives are counted as skipped and as rejected in the second world. -/
def Tallies (w v : World (σ × Books)) (skipped filtered : Int) : Prop :=
  v.memory.2.stats.skipped = w.memory.2.stats.skipped + skipped ∧
    v.memory.2.stats.filtered = w.memory.2.stats.filtered + filtered

theorem SameLeft.tallies {w v : World (σ × Books)} (h : SameLeft w v) : Tallies w v 0 0 := by
  simpa [Tallies, SameLeft] using h

theorem Tallies.trans {u v w : World (σ × Books)} {p q p' q' : Int} (h₁ : Tallies u v p q)
    (h₂ : Tallies v w p' q') : Tallies u w (p + p') (q + q') := by
  obtain ⟨hskipped, hfiltered⟩ := h₁
  obtain ⟨hskipped', hfiltered'⟩ := h₂
  exact ⟨by omega, by omega⟩

/-- The computation went from one world to the other, and in any store that the second one may become it
does the same again with the directives that were left alone, and nothing else. -/
def Repeats (c : Choices) {ε α : Type} (x : EStateM ε (World ((σ × List HookEvent) × Books)) α) (a : α)
    (w v : World ((σ × List HookEvent) × Books)) : Prop :=
  ∃ p q, Tallies w v p q ∧ ∀ s', Evolves c v.store s' → Replays s' x a p q

variable {w v : World ((σ × List HookEvent) × Books)} {rewritten : List NodeId}

/-- A directive that is taken is none any more, and the visit counts nothing as left alone. -/
theorem visit_takes (h : o.Follows c) (hhook : Decorating o.handleLabel)
    (hacc : Accounted s₀ w rewritten) (htame : s₀.Tame w.store n) (hn : w.store.HasNode n)
    (htakes : c.takes (w.store.node n).toFields = true) (hvisit : visit o.recorded n w = .ok () v) :
    SameLeft w v ∧ v.store.HasNode n ∧ (v.store.node n).isDirective = false := by
  obtain ⟨s, ⟨m, events⟩, books⟩ := w
  obtain ⟨-, htaken⟩ : (s.node n).isDirective = true ∧ c.leavesAlone (s.node n).toFields = false := by
    simpa [Choices.takes] using htakes
  obtain ⟨m', heq⟩ := visit_taken h m events books htaken
  rw [heq] at hvisit
  have hasked := hacc.asked m' n (s.node n)
  have hsame := sameLeft_lower hvisit
  obtain ⟨hacc', hevolves, -⟩ := lower_accounts h hasked htame htakes hhook hvisit
  exact ⟨hsame, hevolves.hasNode n hn,
    (hacc'.lowered n (List.mem_append_right _ (List.mem_singleton.2 rfl))).2.2⟩

/-- Entering a node again, when the walk is through. -/
theorem enter_repeats (h : o.Follows c) (hhook : Decorating o.handleLabel)
    (hacc : Accounted s₀ w rewritten) (htame : s₀.Tame w.store n) (hn : w.store.HasNode n)
    {i : Option Nat} {p : Option NodeId}
    (henter : Walk.enter (.oneOf directiveTypes) (visitor o.recorded) n i p w = .ok .proceed v) :
    Repeats c (Walk.enter (.oneOf directiveTypes) (visitor o.recorded) n i p) .proceed w v := by
  -- a node that is no directive after the visit is not visited again
  have hother : SameLeft w v → v.store.HasNode n → (v.store.node n).isDirective = false →
      Repeats c (Walk.enter (.oneOf directiveTypes) (visitor o.recorded) n i p) .proceed w v := by
    intro hsame hn' hplain
    refine ⟨0, 0, hsame.tallies, fun s' hevolves => .of_same fun u hu => enter_other i p ?_⟩
    rw [hu, hevolves.same_node hn' (Choices.takes_eq_false_of_other hplain)]
    exact hplain
  by_cases hdirective : (w.store.node n).isDirective = true
  · rw [enter_directive i p hdirective] at henter
    cases hvisit : visit o.recorded n w with
    | error fault u =>
      rw [hvisit] at henter
      cases henter
    | ok a u =>
      rw [hvisit] at henter
      cases henter
      cases htakes : c.takes (w.store.node n).toFields with
      | true =>
        obtain ⟨hsame, hn', hplain⟩ := visit_takes h hhook hacc htame hn htakes hvisit
        exact hother hsame hn' hplain
      | false =>
        have hleft : c.leavesAlone (w.store.node n).toFields = true := by
          rw [Choices.takes, hdirective, Bool.true_and] at htakes
          simpa using htakes
        obtain ⟨s, ⟨m, events⟩, books⟩ := w
        obtain ⟨m', asked, notices, heq, -⟩ := visit_leaves h hleft m events books
        rw [heq] at hvisit
        cases hvisit
        refine ⟨_, _, ⟨rfl, rfl⟩, fun s' hevolves => ?_⟩
        have hsame : s'.node n = s.node n := hevolves.same_node hn htakes
        rw [← hsame] at hdirective hleft ⊢
        intro m events books
        obtain ⟨m', asked, notices, heq, hasked⟩ := visit_leaves h hleft m events books
        refine ⟨m', asked, notices, ?_, hasked⟩
        rw [enter_directive i p (w := ⟨s', (m, events), books⟩) hdirective, heq]
  · have hplain : (w.store.node n).isDirective = false := by simpa using hdirective
    rw [enter_other i p hplain] at henter
    cases henter
    exact hother (SameLeft.refl _) hn hplain

/-! ## The walk -/

theorem Repeats.trans {ε ε' α β : Type} {x : EStateM ε (World ((σ × List HookEvent) × Books)) α} {a : α}
    {y z : EStateM ε' (World ((σ × List HookEvent) × Books)) β} {b : β}
    {u : World ((σ × List HookEvent) × Books)} (hx : Repeats c x a w u) (hy : Repeats c y b u v)
    (hevolves : Evolves c u.store v.store)
    (hz : ∀ s', Evolves c u.store s' → ∀ w' v', w'.store = s' → v'.store = s' → x w' = .ok a v' →
      z w' = y v') : Repeats c z b w v := by
  obtain ⟨p, q, htallies, hfirst⟩ := hx
  obtain ⟨p', q', htallies', hsecond⟩ := hy
  refine ⟨p + p', q + q', htallies.trans htallies', fun s' hs' => ?_⟩
  have hs'' := hevolves.trans hs'
  exact (hfirst s' hs'').trans (hsecond s' hs') (hz s' hs'')

/-- The walk of a list does the same again, when it is through. -/
def WalkRepeats (o : Options σ) (c : Choices) (s₀ : Store) (bound : Nat) : Prop :=
  ∀ {w v : World ((σ × List HookEvent) × Books)} {rewritten : List NodeId} {p : NodeId} {l : ListId}
    {i : Nat} {goesOn : Bool}, Accounted s₀ w rewritten → w.store.HasList l →
    (∀ k ∈ w.store.list l, s₀.Tame w.store k) →
    Walk.walkFrom (.oneOf directiveTypes) (visitor o.recorded) bound p l i w = .ok goesOn v →
    Repeats c (Walk.walkFrom (.oneOf directiveTypes) (visitor o.recorded) bound p l i) true w v

theorem visitNode_repeats (h : o.Follows c) (hhook : Decorating o.handleLabel) {bound : Nat}
    (hbelow : WalkRepeats o c s₀ bound) (hacc : Accounted s₀ w rewritten) (hn : w.store.HasNode n)
    (htame : s₀.Tame w.store n) {i : Option Nat} {p : Option NodeId} {goesOn : Bool}
    (hvisit : Walk.visitNode (.oneOf directiveTypes) (visitor o.recorded)
      (fun n l => Walk.walkFrom (.oneOf directiveTypes) (visitor o.recorded) bound n l 0) n i p w =
      .ok goesOn v) :
    Repeats c (Walk.visitNode (.oneOf directiveTypes) (visitor o.recorded)
      (fun n l => Walk.walkFrom (.oneOf directiveTypes) (visitor o.recorded) bound n l 0) n i p) true
      w v := by
  obtain ⟨action, u, henter, hrest⟩ := Walk.exists_enter_of_visitNode hvisit
  obtain ⟨rfl, rewritten', hacc', hevolves, htakes⟩ := enter_accounts h hhook hacc htame henter
  have hn' := hevolves.hasNode n hn
  have hl := hacc'.closed.children n hn'
  have htame' : ∀ k ∈ u.store.children n, s₀.Tame u.store k :=
    fun k hk => hacc'.tame.children (htame.of_evolves hevolves hacc.closed) hk
  obtain ⟨⟨-, hevolves', -⟩, -⟩ := walkFrom_exhausts h hhook bound hacc' hl htame' hrest
  refine (enter_repeats h hhook hacc htame hn henter).trans (hbelow hacc' hl htame' hrest) hevolves'
    fun s' hs' w' v' _ hv' henter' => ?_
  rw [Walk.visitNode_apply, henter']
  dsimp only
  rw [hv', hs'.same_node hn' htakes]

/-- The invariant of the repeated walk: every list is walked as it was the first time. -/
theorem walkFrom_repeats (h : o.Follows c) (hhook : Decorating o.handleLabel) (bound : Nat) :
    WalkRepeats o c s₀ bound := by
  induction bound with
  | zero =>
    intro w v rewritten p l i goesOn _ _ _ hwalk
    rw [Walk.walkFrom_zero] at hwalk
    cases hwalk
  | succ bound ih =>
    intro w v rewritten p l i goesOn hacc hl htame hwalk
    rcases Walk.walkFrom_cases hwalk with ⟨hend, rfl, rfl⟩ | ⟨n, more, u, hnext, hvisit, hwalk'⟩
    · refine ⟨0, 0, (SameLeft.refl _).tallies, fun s' hs' => .of_same fun u hu => ?_⟩
      refine Walk.walkFrom_of_none ?_
      rw [hu, hs'.list l hl, hend]
    · have hmem := List.mem_of_getElem? hnext
      have hn := hacc.closed.members l hl n hmem
      obtain ⟨⟨rfl, hevolves, rewritten', hacc'⟩, -⟩ := visitNode_exhausts h hhook
        (walkFrom_exhausts h hhook bound) hacc hn (htame n hmem) hvisit
      have hl' := hevolves.hasList l hl
      have hlist := hevolves.list l hl
      have htame' : ∀ k ∈ u.store.list l, s₀.Tame u.store k :=
        fun k hk => (htame k (hlist ▸ hk)).of_evolves hevolves hacc.closed
      obtain ⟨⟨-, hevolves', -⟩, -⟩ := walkFrom_exhausts h hhook bound hacc' hl' htame' hwalk'
      refine (visitNode_repeats h hhook ih hacc hn (htame n hmem) hvisit).trans
        (ih hacc' hl' htame' hwalk') hevolves' fun s' hs' w' v' hw' _ hvisit' => ?_
      have hnext' : (w'.store.list l)[i]? = some n := by
        rw [hw', hs'.list l hl', hlist, hnext]
      rw [Walk.walkFrom_of_some hnext', hvisit']

/-! ## The second pass -/

/-- The calls of the hooks in a pass. -/
def hookCalls (o : Options σ) (budget : Nat) (root : NodeId) (w : World (σ × Books)) :
    List HookEvent :=
  (left (run o.recorded budget root ⟨w.store, (w.memory.1, []), w.memory.2⟩)).memory.1.2

/-- A pass over a root whose visit does the same again, and nothing else. -/
theorem run_of_replays {bound : Nat} {root : NodeId} {p q : Int}
    (h : Replays s (visitRoot o.recorded bound root) true p q) (m : σ) :
    ∃ budget m' notices, ∀ b, budget ≤ b →
      run o b root ⟨s, m, {}⟩ = .ok () ⟨s, m', { stats := ({} : Stats).leave p q, notices := notices }⟩ ∧
      ∀ e ∈ hookCalls o b root ⟨s, m, {}⟩, e.IsFilter := by
  obtain ⟨m', asked, notices, hvisit, hasked⟩ := h m [] { notices := (#[] : Array Notice).push .started }
  obtain ⟨budget, hrun⟩ : ∃ budget, ∀ b, budget ≤ b →
      run o.recorded b root ⟨s, (m, []), {}⟩ = .ok () (concluded _) := run_of_visitRoot hvisit
  refine ⟨budget, m', notices.push (.finished (({} : Stats).leave p q)), fun b hb => ⟨?_, ?_⟩⟩
  · have hcovers := covers_run_recorded (o := o) b root ⟨s, (m, []), {}⟩
    rw [hrun b hb] at hcovers
    exact hcovers.symm
  · have hcalls : hookCalls o b root ⟨s, m, {}⟩ = asked :=
      congrArg (fun r => (left r).memory.1.2) (hrun b hb)
    rwa [hcalls]

/-- **A second pass changes nothing**: after a pass that has come to its end, a pass with the same
choices comes to its end, leaves every node and every list as it is, and calls no hook but the filter.
It counts as many directives as skipped and as rejected as the first pass did, and no others. -/
theorem run_again (h : o.Follows c) (hhook : Decorating o.handleLabel) (hclosed : s.Closed)
    {root : NodeId} (hroot : s.HasNode root) {budget : Nat} {m : σ} {w' : World (σ × Books)}
    (hrun : run o budget root ⟨s, m, {}⟩ = .ok () w') (m₂ : σ) :
    ∃ budget₂ m' notices, ∀ b, budget₂ ≤ b →
      run o b root ⟨w'.store, m₂, {}⟩ = .ok () ⟨w'.store, m',
        { stats :=
            { visited := w'.memory.2.stats.skipped + w'.memory.2.stats.filtered
              transformed := 0
              skipped := w'.memory.2.stats.skipped
              filtered := w'.memory.2.stats.filtered
              labels := 0 }
          notices := notices }⟩ ∧
      ∀ e ∈ hookCalls o b root ⟨w'.store, m₂, {}⟩, e.IsFilter := by
  obtain ⟨v, hrecorded, rfl⟩ := exists_run_recorded hrun
  obtain ⟨goesOn, u, hvisit, rfl⟩ := visitRoot_of_run hrecorded
  obtain ⟨p, q, ⟨hskipped, hfiltered⟩, hreplays⟩ := visitNode_repeats h hhook
    (walkFrom_repeats h hhook (budget + 1)) (accounted_start hclosed m _) hroot (.old hroot) hvisit
  have hp : p = u.memory.2.stats.skipped := by simpa using hskipped.symm
  have hq : q = u.memory.2.stats.filtered := by simpa using hfiltered.symm
  have hstats : ({} : Stats).leave p q =
      { visited := u.memory.2.stats.skipped + u.memory.2.stats.filtered
        transformed := 0
        skipped := u.memory.2.stats.skipped
        filtered := u.memory.2.stats.filtered
        labels := 0 } := by
    rw [← hp, ← hq]
    simp [Stats.leave]
  have hagain := run_of_replays (hreplays u.store (Evolves.refl c _)) m₂
  rw [hstats] at hagain
  exact hagain

/-- The text directive that is rejected is met six times in either pass. -/
theorem run_again_sharedNotes :
    ∃ w', run (Choices.options { accepts := fun f => f.name != some "abbr" } slotLabel) 40 ⟨0⟩
        ⟨sharedNotes, (), {}⟩ = .ok () w' ∧
      ∃ budget₂ m' notices, ∀ b, budget₂ ≤ b →
        run (Choices.options { accepts := fun f => f.name != some "abbr" } slotLabel) b ⟨0⟩
            ⟨w'.store, (), {}⟩ = .ok () ⟨w'.store, m',
          { stats := { visited := 6, transformed := 0, skipped := 0, filtered := 6, labels := 0 }
            notices := notices }⟩ ∧
        ∀ e ∈ hookCalls (Choices.options { accepts := fun f => f.name != some "abbr" } slotLabel) b ⟨0⟩
          ⟨w'.store, (), {}⟩, e.IsFilter := by
  have hends : (match run (Choices.options { accepts := fun f => f.name != some "abbr" } slotLabel) 40
        ⟨0⟩ ⟨sharedNotes, (), {}⟩ with
      | .ok _ w => decide (w.memory.2.stats.skipped = 0 ∧ w.memory.2.stats.filtered = 6)
      | .error _ _ => false) = true := by decide +kernel
  cases hrun : run (Choices.options { accepts := fun f => f.name != some "abbr" } slotLabel) 40 ⟨0⟩
      ⟨sharedNotes, (), {}⟩ with
  | error halt v =>
    rw [hrun] at hends
    cases hends
  | ok a w' =>
    rw [hrun] at hends
    obtain ⟨hskipped, hfiltered⟩ := of_decide_eq_true hends
    have hagain := run_again (Choices.follows_options _ slotLabel) decorating_slot closed_sharedNotes
      (by decide) hrun ()
    rw [hskipped, hfiltered] at hagain
    exact ⟨w', rfl, hagain⟩

end Pass

end DirectiveLowering
