import DirectiveLowering.Proofs.Finished
import DirectiveLowering.Proofs.Moments
import DirectiveLowering.Proofs.Sharing
import DirectiveLowering.Proofs.Treatment

/-!
# What a pass leaves alone

With quiet hooks a pass over any documents, shared nodes and lists included, leaves every list as it was.
A node that is not rewritten stays as it was; one that is rewritten keeps its value and its position, and
keeps its list of children unless it is a container with a label, which gets a list of its own. All this
holds at every moment of a pass, so also for a pass that is ended by a fault or by its budget.

Nothing is ever appended to a list that a document already had: a label is appended to the list that its
container gets, and the container gets that one because it has a label.

Results:
* `visit_treats`: what one visit changes, and whether it rewrites its directive.
* `Frames.visit`: the invariant of a walk, from one visit to the next.
* `run_leaves_frame`: what a pass leaves alone.
-/

namespace DirectiveLowering.Pass

open Store Walk

variable {σ : Type} {o : Options σ} {slots : Bool → Prop}

/-! ## The course of a pass -/

/-- The world that the walk of a pass begins in. -/
def started (w : World (σ × Books)) : World (σ × Books) :=
  ⟨w.store, w.memory.1, { w.memory.2 with notices := w.memory.2.notices.push .started }⟩

/-- The course of a pass: its visits, in order. -/
def course (o : Options σ) (budget : Nat) (root : NodeId) (w : World (σ × Books)) :
    List (Moment (σ × Books)) :=
  momentsOf (.oneOf directiveTypes) (visitor o) budget root (started w)

/-- A pass leaves what its walk leaves, but for a notice at the end. -/
theorem left_run (o : Options σ) (budget : Nat) (root : NodeId) (w : World (σ × Books)) :
    ∃ notices, left (run o budget root w) =
      ⟨(left (Walk.run (.oneOf directiveTypes) (visitor o) budget root (started w))).store,
        (left (Walk.run (.oneOf directiveTypes) (visitor o) budget root (started w))).memory.1,
        (left (Walk.run (.oneOf directiveTypes) (visitor o) budget root (started w))).memory.2.stats,
        notices⟩ := by
  obtain ⟨s, m, books⟩ := w
  rw [run_apply, started]
  cases Walk.run (.oneOf directiveTypes) (visitor o) budget root
    ⟨s, m, { books with notices := books.notices.push .started }⟩ <;> exact ⟨_, rfl⟩

theorem store_run (o : Options σ) (budget : Nat) (root : NodeId) (w : World (σ × Books)) :
    (left (run o budget root w)).store =
      (left (Walk.run (.oneOf directiveTypes) (visitor o) budget root (started w))).store := by
  obtain ⟨notices, h⟩ := left_run o budget root w
  rw [h]

/-- The directive is skipped, since another pass has lowered it. -/
def Skips (o : Options σ) (n : NodeId) (w : World (σ × Books)) : Prop :=
  o.skipTransformed.truthy = true ∧ (w.store.node n).isLowered = true

/-- The filter takes the directive. -/
def Takes (o : Options σ) (n : NodeId) (w : World (σ × Books)) : Prop :=
  ∃ v, o.filter n (w.view Prod.fst) = .ok true v

/-- A visit rewrites its directive: it does not skip it, the filter takes it, and no hook fails. -/
structure Rewrites (o : Options σ) (moment : Moment (σ × Books)) : Prop where
  asked : ¬ Skips o moment.call.node moment.before
  taken : Takes o moment.call.node moment.before
  returned : moment.answer?.isSome = true

/-! ## A visit -/

section Visit

variable {s : Store} {n : NodeId}

theorem visit_of_skips {w : World (σ × Books)} (h : Skips o n w) :
    ∃ books, visit o n w = .ok () ⟨w.store, w.memory.1, books⟩ := by
  obtain ⟨hName, hname⟩ := Option.isSome_iff_exists.1 h.2
  exact ⟨_, visit_of_loweredName h.1 hname⟩

/-- A directive that is not skipped is shown to the filter, and lowered if the filter takes it. -/
theorem visit_of_asks {w : World (σ × Books)} (h : ¬ Skips o n w) :
    visit o n w =
      match o.filter n (w.view Prod.fst) with
      | .error fault v =>
        .error fault ⟨v.store, v.memory, { w.memory.2 with stats := w.memory.2.stats.visit }⟩
      | .ok true v =>
        lower o n ⟨v.store, v.memory, { w.memory.2 with stats := w.memory.2.stats.visit }⟩
      | .ok false v => .ok () ⟨v.store, v.memory, {
          stats := w.memory.2.stats.visit.reject
          notices := w.memory.2.notices.push (.rejected (v.store.node n).name) }⟩ := by
  obtain ⟨s, m, books⟩ := w
  have hpolicy : (do
        if ← Effect.onFirst (o.filter n) then lower o n
        else
          note (.rejected (← Effect.readNode n).name)
          count Stats.reject : PassEffect σ Unit)
      ⟨s, m, { books with stats := books.stats.visit }⟩ =
      match o.filter n ⟨s, m⟩ with
      | .error fault v => .error fault ⟨v.store, v.memory, { books with stats := books.stats.visit }⟩
      | .ok true v => lower o n ⟨v.store, v.memory, { books with stats := books.stats.visit }⟩
      | .ok false v => .ok () ⟨v.store, v.memory, {
          stats := books.stats.visit.reject
          notices := books.notices.push (.rejected (v.store.node n).name) }⟩ := by
    cases hfilter : o.filter n ⟨s, m⟩ with
    | error fault v => rw [Effect.bind_error (Effect.onFirst_error hfilter)]
    | ok taken v =>
      rw [Effect.bind_ok (Effect.onFirst_ok hfilter)]
      cases taken <;> rfl
  rw [visit, Effect.bind_ok (count_apply _ _ _ _), Effect.bind_ok (Effect.readNode_apply _ _)]
  dsimp only
  cases hskip : o.skipTransformed.truthy with
  | false => exact hpolicy
  | true =>
    have hname : (s.node n).loweredName? = none := by
      simpa [Skips, hskip, Fields.isLowered] using h
    rw [hname]
    exact hpolicy

variable (h : o.Quiet slots)
include h

/-- A visit leaves the store as it is, or goes on to lower the directive. -/
theorem visit_cases (w : World (σ × Books)) :
    (∃ v, left (visit o n w) = v ∧ v.store = w.store ∧ (¬ Skips o n w → ¬ Takes o n w)) ∨
      ¬ Skips o n w ∧ Takes o n w ∧
        ∃ m books, visit o n w = lower o n ⟨w.store, m, books⟩ := by
  by_cases hskips : Skips o n w
  · obtain ⟨books, hvisit⟩ := visit_of_skips hskips
    exact Or.inl ⟨_, rfl, by rw [hvisit]; rfl, fun hasks => absurd hskips hasks⟩
  · have hvisit := visit_of_asks hskips
    have hstore := h.filter n (w.view Prod.fst)
    cases hfilter : o.filter n (w.view Prod.fst) with
    | error fault v =>
      rw [hfilter] at hvisit hstore
      refine Or.inl ⟨_, rfl, by rw [hvisit]; exact hstore, fun _ ⟨u, htaken⟩ => ?_⟩
      cases hfilter.symm.trans htaken
    | ok taken v =>
      rw [hfilter] at hvisit hstore
      have hsame : v.store = w.store := hstore
      cases taken with
      | false =>
        refine Or.inl ⟨_, rfl, by rw [hvisit]; exact hstore, fun _ ⟨u, htaken⟩ => ?_⟩
        cases hfilter.symm.trans htaken
      | true =>
        refine Or.inr ⟨hskips, ⟨v, hfilter⟩, v.memory,
          { w.memory.2 with stats := w.memory.2.stats.visit }, ?_⟩
        rw [hvisit, ← hsame]

variable (hn : s.HasNode n) (hdirective : (s.node n).isDirective = true) (hclosed : s.Closed)
include hn hdirective hclosed

/-- Lowering a directive rewrites it, or fails and overwrites nothing. -/
theorem lower_treats (m : σ) (books : Books) :
    match lower o n ⟨s, m, books⟩ with
    | .ok _ v => ∃ outcome, s.Suits slots n outcome ∧ outcome ≠ .leftAlone ∧
        v.store = s.settle n outcome
    | .error _ v => s.Scraps slots n v.store := by
  have hcovers := covers_lower o.extends_conversed n ⟨s, (m, []), books⟩
  obtain ⟨ys, hplays⟩ := plays_lower h hn hdirective (fun k => hclosed.child hn) m [] books
  have hview : World.view (viewHooks Prod.fst)
      (⟨s, (m, []), books⟩ : World ((σ × List Exchange) × Books)) = ⟨s, m, books⟩ := rfl
  rw [hview] at hcovers
  rw [← hcovers]
  cases hlower : lower o.conversed n ⟨s, (m, []), books⟩ with
  | ok a v =>
    rw [hlower] at hplays
    obtain ⟨-, outcome, -, ⟨hsuits, hlowered⟩, hstore⟩ := hplays
    exact ⟨outcome, hsuits, hlowered, hstore⟩
  | error fault v =>
    rw [hlower] at hplays
    exact hplays.2.2.2

/-- What a visit changes: the directive, if it is rewritten, and otherwise nothing that was there. -/
theorem visit_treats {s₀ : Store} (hgrown : ∀ k, s₀.HasNode k → s.HasNode k) (i : Option Nat)
    (p : Option NodeId) (memory : σ × Books) {moment : Moment (σ × Books)}
    (hmoment : Walk.moment (visitor o) n i p ⟨s, memory⟩ = moment) :
    s.Treats n moment.after.store ∧
      (¬ Rewrites o moment → s.Grows moment.after.store fun _ => False) ∧
      (Rewrites o moment → Rewritten s₀ s n moment.after.store) := by
  have hending : moment.ending = visitor o n i p ⟨s, memory⟩ := by
    rw [← hmoment]
    rfl
  rw [visitor_apply] at hending
  have hafter : moment.after = left (visit o n ⟨s, memory⟩) := by
    rw [Moment.after, hending]
    cases visit o n ⟨s, memory⟩ <;> rfl
  have hasked : Rewrites o moment → ¬ Skips o n ⟨s, memory⟩ ∧ Takes o n ⟨s, memory⟩ := by
    intro hdone
    have hasked := hdone.asked
    have htaken := hdone.taken
    rw [← hmoment] at hasked htaken
    exact ⟨hasked, htaken⟩
  rw [hafter]
  rcases visit_cases h ⟨s, memory⟩ with ⟨v, rfl, hsame, hkept⟩ | ⟨hskips, htakes, m, books, hvisit⟩
  · rw [hsame]
    exact ⟨Treats.refl hclosed n, fun _ => Grows.refl _ _, fun hdone =>
      absurd (hasked hdone).2 (hkept (hasked hdone).1)⟩
  · have hlower := lower_treats h hn hdirective hclosed m books
    rw [hvisit] at hending ⊢
    cases hl : lower o n ⟨s, m, books⟩ with
    | ok a v =>
      rw [hl] at hlower hending
      obtain ⟨outcome, hsuits, hlowered, hleft⟩ := hlower
      have hdone : Rewrites o moment := by
        refine ⟨?_, ?_, by rw [Moment.answer?, hending]; rfl⟩
        · rw [← hmoment]
          exact hskips
        · rw [← hmoment]
          exact htakes
      have hstore : (left (.ok a v : EStateM.Result Fault (World (σ × Books)) Unit)).store =
          s.settle n outcome := hleft
      rw [hstore]
      exact ⟨treats_settle hclosed hn hsuits, fun hkept => absurd hdone hkept,
        fun _ => rewritten_settle hclosed hn hgrown hsuits hlowered⟩
    | error fault v =>
      rw [hl] at hlower hending
      have hfailed : ¬ Rewrites o moment := by
        intro hdone
        have hreturned := hdone.returned
        rw [Moment.answer?, hending] at hreturned
        cases hreturned
      exact ⟨treats_scraps hclosed hn hlower, fun _ => grows_scraps hlower,
        fun hdone => absurd hdone hfailed⟩

end Visit

/-! ## The invariant of a walk -/

variable {s₀ s : Store} {moments : List (Moment (σ × Books))} {n : NodeId}

/-- What has become of the directive that a visit has rewritten: until then it was as it had been from
the beginning. -/
structure Became (s₀ : Store) (moment : Moment (σ × Books)) (s : Store) : Prop where
  hasNode : s₀.HasNode moment.call.node
  directive : (s₀.node moment.call.node).isDirective = true
  same : moment.before.store.node moment.call.node = s₀.node moment.call.node
  closed : moment.before.store.Closed
  rewritten : Rewritten s₀ moment.before.store moment.call.node s

/-- The store after some visits, beside the store before them. -/
structure Frames (o : Options σ) (s₀ : Store) (moments : List (Moment (σ × Books))) (s : Store) :
    Prop where
  closed : s.Closed
  grows : s₀.Grows s fun n => ∃ moment ∈ moments, moment.call.node = n ∧ Rewrites o moment
  old : ∀ n, (s.node n).isDirective = true → s₀.HasNode n
  became : ∀ moment ∈ moments, Rewrites o moment → Became s₀ moment s

theorem frames_start (h : s₀.Closed) : Frames o s₀ [] s₀ where
  closed := h
  grows := Grows.refl s₀ _
  old _ := hasNode_of_isDirective
  became _ hmem := absurd hmem List.not_mem_nil

/-- A directive is as it was at first: it has not been rewritten. -/
theorem Frames.node_eq (h : Frames o s₀ moments s) (hdirective : (s.node n).isDirective = true) :
    s.node n = s₀.node n := by
  refine h.grows.node n (h.old n hdirective) ?_
  rintro ⟨moment, hmem, rfl, hdone⟩
  have hplain := (h.became moment hmem hdone).rewritten.plain
  exact absurd hdirective (by simp [hplain])

/-- **One more visit.** -/
theorem Frames.visit {w : World (σ × Books)} (h : Frames o s₀ moments w.store) (hquiet : o.Quiet slots)
    (hdirective : (w.store.node n).isDirective = true) (i : Option Nat) (p : Option NodeId) :
    Frames o s₀ (moments ++ [Walk.moment (visitor o) n i p w]) (left (visitor o n i p w)).store := by
  obtain ⟨s, memory⟩ := w
  have hn : s.HasNode n := hasNode_of_isDirective hdirective
  obtain ⟨moment, hmoment⟩ : ∃ moment, Walk.moment (visitor o) n i p ⟨s, memory⟩ = moment := ⟨_, rfl⟩
  obtain ⟨htreats, hkept, hdone⟩ := visit_treats hquiet hn hdirective h.closed h.grows.hasNode i p
    memory hmoment
  have hcall : moment.call.node = n := by rw [← hmoment]; rfl
  have hbefore : moment.before.store = s := by rw [← hmoment]; rfl
  have hafter : (left (visitor o n i p ⟨s, memory⟩)).store = moment.after.store := by
    rw [← hmoment]
    rfl
  rw [hmoment, hafter]
  constructor
  case closed => exact htreats.closed
  case grows =>
    have hfirst : s₀.Grows s fun k => ∃ mo ∈ moments ++ [moment], mo.call.node = k ∧ Rewrites o mo :=
      h.grows.mono fun k _ ⟨mo, hmo, hk⟩ => ⟨mo, List.mem_append_left _ hmo, hk⟩
    by_cases hrewrites : Rewrites o moment
    · refine hfirst.trans htreats.grows ?_
      rintro k - hfree rfl
      exact hfree ⟨moment, by simp, hcall, hrewrites⟩
    · exact hfirst.trans (hkept hrewrites) fun _ _ _ => id
  case old =>
    intro k hk
    have hafterk := hasNode_of_isDirective hk
    by_cases hold : s.HasNode k
    · by_cases hkn : k = n
      · rw [hkn]
        exact h.old n hdirective
      · rw [htreats.grows.node k hold hkn] at hk
        exact h.old k hk
    · exact absurd hk (by simp [htreats.fresh k hafterk hold])
  case became =>
    intro mo hmo hrewrites
    rcases List.mem_append.1 hmo with hmo | hmo
    · obtain ⟨hnode, hdir, hsame, hclosed, hnow⟩ := h.became mo hmo hrewrites
      exact ⟨hnode, hdir, hsame, hclosed,
        hnow.of_treats htreats h.closed (h.grows.hasNode _ hnode) hn hdirective⟩
    · obtain rfl := List.mem_singleton.1 hmo
      have hsame := h.node_eq hdirective
      constructor
      case hasNode => exact hcall ▸ h.old n hdirective
      case directive => rw [hcall, ← hsame, hdirective]
      case same => rw [hbefore, hcall, hsame]
      case closed => exact hbefore ▸ h.closed
      case rewritten =>
        rw [hbefore, hcall]
        exact hdone hrewrites

theorem frames_run (hquiet : o.Quiet slots) (hclosed : s₀.Closed) (budget : Nat) (root : NodeId)
    (memory : σ × Books) :
    Frames o s₀ (course o budget root ⟨s₀, memory⟩) (left (run o budget root ⟨s₀, memory⟩)).store := by
  have hvisit : ∀ moments n i p (w : World (σ × Books)), Meets root w.store n →
      (TypeTest.oneOf directiveTypes).accepts (w.store.node n).type = true →
      Frames o s₀ moments w.store →
      Frames o s₀ (moments ++ [Walk.moment (visitor o) n i p w]) (left (visitor o n i p w)).store :=
    fun moments n i p w _ hn h => h.visit hquiet hn i p
  rw [store_run]
  exact account_run (J := fun moments w => Frames o s₀ moments w.store) hvisit budget
    (frames_start hclosed)

/-! ## The frame -/

/-- What a pass leaves alone of the documents that it found, in a course of visits. -/
structure Framed (o : Options σ) (s : Store) (moments : List (Moment (σ × Books))) (s' : Store) :
    Prop where
  /-- No list that was there is touched. -/
  list : ∀ l, s.HasList l → s'.HasList l ∧ s'.list l = s.list l
  /-- A node that was there keeps its value and its position. -/
  value : ∀ n, s.HasNode n → (s'.node n).value = (s.node n).value
  position : ∀ n, s.HasNode n → (s'.node n).position = (s.node n).position
  /-- A node that is no directive is as it was, and so is a directive that no visit rewrites. -/
  other : ∀ n, s.HasNode n → (s.node n).isDirective = false → s'.node n = s.node n
  kept : ∀ n, s.HasNode n → (∀ moment ∈ moments, moment.call.node = n → ¬ Rewrites o moment) →
    s'.node n = s.node n
  /-- Only directives that were there are rewritten, and they are no directives any more. -/
  directive : ∀ moment ∈ moments, Rewrites o moment → s.HasNode moment.call.node ∧
    (s.node moment.call.node).isDirective = true ∧ (s'.node moment.call.node).isDirective = false
  /-- One that has no label when it is rewritten keeps its list of children. -/
  sameList : ∀ moment ∈ moments, Rewrites o moment →
    moment.before.store.ownLabel moment.call.node = none →
    (s'.node moment.call.node).children = (s.node moment.call.node).children
  /-- One that has a label when it is rewritten gets a list that no node held before. -/
  newList : ∀ moment ∈ moments, Rewrites o moment →
    moment.before.store.ownLabel moment.call.node ≠ none →
    ∀ k, moment.before.store.HasNode k →
      (moment.before.store.node k).children ≠ (s'.node moment.call.node).children
  /-- And no other node holds it, of those that were there and of those that are in a list. The element
  that was made for the directive is neither. -/
  ownList : ∀ moment ∈ moments, Rewrites o moment →
    moment.before.store.ownLabel moment.call.node ≠ none →
    ∀ k, s'.HasNode k → k ≠ moment.call.node → (s.HasNode k ∨ ∃ l, s'.HasList l ∧ k ∈ s'.list l) →
      (s'.node k).children ≠ (s'.node moment.call.node).children

/-- **What a pass leaves alone**, with quiet hooks, whatever the documents share, and however it ends. -/
theorem run_leaves_frame (hquiet : o.Quiet slots) (hclosed : s.Closed) (budget : Nat) (root : NodeId)
    (memory : σ × Books) :
    Framed o s (course o budget root ⟨s, memory⟩) (left (run o budget root ⟨s, memory⟩)).store := by
  have h := frames_run hquiet hclosed budget root memory
  generalize course o budget root ⟨s, memory⟩ = moments at h ⊢
  generalize (left (run o budget root ⟨s, memory⟩)).store = s' at h ⊢
  -- a node is as it was, or a visit has rewritten it
  have hcases : ∀ n, s.HasNode n → s'.node n = s.node n ∨
      ∃ moment ∈ moments, moment.call.node = n ∧ Became s moment s' := by
    intro n hn
    by_cases hdone : ∃ moment ∈ moments, moment.call.node = n ∧ Rewrites o moment
    · obtain ⟨moment, hmem, hcall, hdone⟩ := hdone
      exact Or.inr ⟨moment, hmem, hcall, h.became moment hmem hdone⟩
    · exact Or.inl (h.grows.node n hn hdone)
  constructor
  case list => exact fun l hl => ⟨h.grows.hasList l hl, h.grows.list l hl⟩
  case value =>
    intro n hn
    rcases hcases n hn with hsame | ⟨moment, -, rfl, hbecame⟩
    · rw [hsame]
    · rw [hbecame.rewritten.value, hbecame.same]
  case position =>
    intro n hn
    rcases hcases n hn with hsame | ⟨moment, -, rfl, hbecame⟩
    · rw [hsame]
    · rw [hbecame.rewritten.position, hbecame.same]
  case other =>
    intro n hn hother
    rcases hcases n hn with hsame | ⟨moment, -, rfl, hbecame⟩
    · exact hsame
    · exact absurd hbecame.directive (by simp [hother])
  case kept =>
    intro n hn hfree
    exact h.grows.node n hn fun ⟨moment, hmem, hcall, hdone⟩ => hfree moment hmem hcall hdone
  case directive =>
    intro moment hmem hdone
    have hbecame := h.became moment hmem hdone
    exact ⟨hbecame.hasNode, hbecame.directive, hbecame.rewritten.plain⟩
  case sameList =>
    intro moment hmem hdone hlabel
    have hbecame := h.became moment hmem hdone
    rw [hbecame.rewritten.sameList hlabel, hbecame.same]
  case newList =>
    intro moment hmem hdone hlabel k hk heq
    have hbecame := h.became moment hmem hdone
    exact (hbecame.rewritten.newList hlabel).1 (heq ▸ hbecame.closed.children k hk)
  case ownList =>
    intro moment hmem hdone hlabel k hk hne hin heq
    have howned := ((h.became moment hmem hdone).rewritten.newList hlabel).2
    rcases howned k hk heq with hself | hloose
    · exact hne hself
    · rcases hin with hold | ⟨l, hl, hmember⟩
      · exact hloose.fresh hold
      · exact hloose.out l hl hmember

/-- A container with a label and a leaf directive share a list: the container gets a new one, the leaf
keeps the old one. -/
theorem run_leaves_sharedNotes_frame :
    ∃ moments s',
      course (Choices.options {} slotLabel) 40 ⟨0⟩ ⟨sharedNotes, (), {}⟩ = moments ∧
      (left (run (Choices.options {} slotLabel) 40 ⟨0⟩ ⟨sharedNotes, (), {}⟩)).store = s' ∧
      Framed (Choices.options {} slotLabel) sharedNotes moments s' ∧
      moments.map (·.call.node) = [⟨1⟩, ⟨4⟩, ⟨2⟩] ∧
      (s'.node ⟨1⟩).children = ⟨4⟩ ∧ (s'.node ⟨2⟩).children = ⟨1⟩ := by
  have hquiet : (Choices.options {} slotLabel : Options Unit).Quiet (· = true) :=
    (Choices.follows_options {} slotLabel).quiet (Options.labels_of_eq rfl)
  exact ⟨_, _, rfl, rfl, run_leaves_frame hquiet closed_sharedNotes 40 ⟨0⟩ ((), {}),
    by decide +kernel, by decide +kernel, by decide +kernel⟩

end DirectiveLowering.Pass
