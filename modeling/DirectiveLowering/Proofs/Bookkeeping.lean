import DirectiveLowering.Proofs.Recording

/-!
# What lowering enters in the books

While an element is made for a directive, whatever the hooks do and wherever one of them fails, only the
counter of labels moves: by one, just before the label hook is called, and not at all when it is not. A
directive that is lowered is counted and reported once, at the end.

The hooks are arbitrary here. They may change the documents and fail, and do not see the books.

Results:
* `keeps_buildElement`, `books_buildElement`: the making of an element, with and without a record of the
  calls.
* `lower_apply`, `books_lower`: the lowering of a directive.
* `keeps_visit`: the label hook is called as often as labels are counted.
-/

namespace DirectiveLowering

/-- The event is a call of the label hook. -/
def HookEvent.isLabel : HookEvent → Bool
  | .label _ _ _ => true
  | _ => false

/-- Counts labels handed on. -/
def Stats.hand (s : Stats) (calls : Nat) : Stats := { s with labels := s.labels + calls }

@[simp] theorem Stats.hand_zero (s : Stats) : s.hand 0 = s := by
  simp [hand]

@[simp] theorem Stats.hand_one (s : Stats) : s.hand 1 = s.label := rfl

theorem Stats.hand_hand (s : Stats) (j k : Nat) : (s.hand j).hand k = s.hand (j + k) := by
  simp [hand, Int.add_assoc]

/-! ## Making the records of an element -/

section Records

variable {μ : Type} {R : World μ → World μ → Prop} (hrefl : ∀ w, R w w)
  (htrans : ∀ u v w, R u v → R v w → R u w) {rename : String → Effect μ (Option String)}
  (h : ∀ name, Keeps R (rename name))
include hrefl htrans h

theorem Keeps.renameEntries (entries : List (String × Option String)) :
    Keeps R (renameEntries rename entries) := by
  induction entries with
  | nil => exact Keeps.pure hrefl _
  | cons entry rest ih =>
    exact Keeps.bind htrans (h entry.1) fun _ => Keeps.bind htrans ih fun _ => Keeps.pure hrefl _

/-- What every renaming keeps is kept while the records are made. -/
theorem Keeps.buildAttributes (attributes : Option Attributes) :
    Keeps R (buildAttributes rename attributes) := by
  refine Keeps.bind htrans ?_ fun entries => Keeps.renameEntries hrefl htrans h entries
  cases attributeEntries attributes with
  | ok entries => exact Keeps.pure hrefl entries
  | error fault => exact Keeps.throw hrefl fault

end Records

namespace Pass

variable {σ α : Type} {o : Options σ} {u v w : World ((σ × List HookEvent) × Books)}

/-! ## Calls and counts -/

/-- One hook was called from the one world to the other, the label hook or another. -/
def Calls (label : Bool) (w v : World ((σ × List HookEvent) × Books)) : Prop :=
  ∃ e : HookEvent, e.isLabel = label ∧ v.memory.1.2 = w.memory.1.2 ++ [e] ∧ v.memory.2 = w.memory.2

/-- Hooks were called from the one world to the other, the label hook so many times; each of those calls
is counted, and nothing else is entered in the books. -/
def Hands (calls : Nat) (w v : World ((σ × List HookEvent) × Books)) : Prop :=
  ∃ events : List HookEvent, v.memory.1.2 = w.memory.1.2 ++ events ∧
    events.countP HookEvent.isLabel = calls ∧
    v.memory.2 = { w.memory.2 with stats := w.memory.2.stats.hand calls }

/-- As many calls of the label hook were made from the one world to the other as labels were counted. -/
def CountsLabels (w v : World ((σ × List HookEvent) × Books)) : Prop :=
  ∃ events : List HookEvent, v.memory.1.2 = w.memory.1.2 ++ events ∧
    v.memory.2.stats.labels = w.memory.2.stats.labels + events.countP HookEvent.isLabel

theorem Hands.of_same (hevents : v.memory.1.2 = w.memory.1.2) (hbooks : v.memory.2 = w.memory.2) :
    Hands 0 w v :=
  ⟨[], by rw [hevents, List.append_nil], rfl, by rw [hbooks, Stats.hand_zero]⟩

theorem Hands.refl (w : World ((σ × List HookEvent) × Books)) : Hands 0 w w :=
  .of_same rfl rfl

theorem Hands.trans {j k : Nat} (h₁ : Hands j u v) (h₂ : Hands k v w) : Hands (j + k) u w := by
  obtain ⟨events, hevents, hcalls, hbooks⟩ := h₁
  obtain ⟨events', hevents', hcalls', hbooks'⟩ := h₂
  refine ⟨events ++ events', ?_, ?_, ?_⟩
  · rw [hevents', hevents, List.append_assoc]
  · rw [List.countP_append, hcalls, hcalls']
  · rw [hbooks', hbooks]
    dsimp only
    rw [Stats.hand_hand]

theorem Calls.hands (h : Calls false w v) : Hands 0 w v := by
  obtain ⟨e, he, hevents, hbooks⟩ := h
  exact ⟨[e], hevents, by simp [he], by rw [hbooks, Stats.hand_zero]⟩

theorem Hands.countsLabels {calls : Nat} (h : Hands calls w v) : CountsLabels w v := by
  obtain ⟨events, hevents, hcalls, hbooks⟩ := h
  exact ⟨events, hevents, by rw [hbooks, hcalls]; rfl⟩

theorem CountsLabels.of_same (hevents : v.memory.1.2 = w.memory.1.2)
    (hlabels : v.memory.2.stats.labels = w.memory.2.stats.labels) : CountsLabels w v :=
  ⟨[], by rw [hevents, List.append_nil], by simp [hlabels]⟩

theorem CountsLabels.trans (u v w : World ((σ × List HookEvent) × Books)) (h₁ : CountsLabels u v)
    (h₂ : CountsLabels v w) : CountsLabels u w := by
  obtain ⟨events, hevents, hlabels⟩ := h₁
  obtain ⟨events', hevents', hlabels'⟩ := h₂
  refine ⟨events ++ events', ?_, ?_⟩
  · rw [hevents', hevents, List.append_assoc]
  · rw [hlabels', hlabels, List.countP_append, Int.natCast_add, Int.add_assoc]

/-- A hook that was called, whether or not it has failed, has seen neither the record nor the books. -/
theorem keeps_recorded {label : Bool} (e : Store → HookEvent) (he : ∀ s, (e s).isLabel = label)
    (x : Effect σ α) :
    Keeps (Calls label) (Effect.onFirst
      (Effect.readStore >>= fun s => record (e s) >>= fun _ => Effect.onFirst x) :
        PassEffect (σ × List HookEvent) α) := by
  rintro ⟨s, ⟨m, events⟩, books⟩
  refine ⟨e s, he s, ?_, ?_⟩ <;>
    simp only [Effect.onFirst, Bind.bind, EStateM.bind, Effect.readStore_apply, record_apply] <;>
    cases x ⟨s, m⟩ <;> rfl

/-! ## Making an element -/

section BuildElement

variable (o)

theorem keeps_tag (name : Option String) :
    Keeps (Hands 0) (Effect.onFirst (o.recorded.transformTag name) :
      PassEffect (σ × List HookEvent) (Option String)) := fun w =>
  (keeps_recorded (fun _ => .tag name) (fun _ => rfl) (o.transformTag name) w).hands

theorem keeps_attribute (tag : Option String) (name : String) :
    Keeps (Hands 0) (Effect.onFirst (o.recorded.transformAttribute tag name) :
      PassEffect (σ × List HookEvent) (Option String)) := fun w =>
  (keeps_recorded (fun _ => .attributeName tag name) (fun _ => rfl)
    (o.transformAttribute tag name) w).hands

theorem keeps_handleLabel (element : NodeId) (content : ListId) :
    Keeps (Calls true) (Effect.onFirst (o.recorded.handleLabel element content) :
      PassEffect (σ × List HookEvent) Unit) :=
  keeps_recorded (fun s => .label (s.node element) (s.children element) content) (fun _ => rfl)
    (o.handleLabel element content)

theorem hands_trans_zero (u v w : World ((σ × List HookEvent) × Books)) (h₁ : Hands 0 u v)
    (h₂ : Hands 0 v w) : Hands 0 u w :=
  h₁.trans h₂

theorem keeps_buildAttributes (tag : Option String) (attributes : Option Attributes) :
    Keeps (Hands 0) (buildAttributes
      (fun name => Effect.onFirst (o.recorded.transformAttribute tag name)) attributes :
        PassEffect (σ × List HookEvent) (List JsxAttribute)) :=
  Keeps.buildAttributes Hands.refl hands_trans_zero (keeps_attribute o tag) attributes

/-- The label is counted, then the label hook is called; the element is the answer unless it fails. -/
theorem keeps_hand (element label : NodeId) :
    Keeps (Hands 1) (do
      count Stats.label
      Effect.onFirst (o.recorded.handleLabel element (← Effect.readNode label).children)
      return element : PassEffect (σ × List HookEvent) NodeId) := by
  rintro ⟨s, ⟨m, events⟩, books⟩
  rw [Effect.bind_ok (count_apply _ _ _ _), Effect.bind_ok (Effect.readNode_apply _ _)]
  obtain ⟨e, he, hevents, hbooks⟩ := Keeps.seq (S := Eq) (fun _ _ h => h) (fun _ _ _ h heq => heq ▸ h)
    (keeps_handleLabel o element (s.node label).children) (fun _ => Keeps.pure (fun _ => rfl) element)
    ⟨s, (m, events), { books with stats := books.stats.label }⟩
  exact ⟨[e], hevents, by simp [he], by rw [hbooks, Stats.hand_one]⟩

/-- The label hook is called at most once while an element is made, and then a label is counted. -/
theorem keeps_buildElement (kind : DirectiveKind) (n : NodeId) :
    Keeps (fun w v => ∃ calls, calls ≤ 1 ∧ Hands calls w v) (buildElement o.recorded kind n) := by
  have hstop : ∀ w v : World ((σ × List HookEvent) × Books), Hands 0 w v →
      ∃ calls, calls ≤ 1 ∧ Hands calls w v := fun _ _ h => ⟨0, Nat.zero_le 1, h⟩
  have hthen : ∀ u v w : World ((σ × List HookEvent) × Books), Hands 0 u v →
      (∃ calls, calls ≤ 1 ∧ Hands calls v w) → ∃ calls, calls ≤ 1 ∧ Hands calls u w := by
    rintro u v w h₁ ⟨calls, hle, h₂⟩
    exact ⟨0 + calls, by omega, h₁.trans h₂⟩
  have hread : ∀ n, Keeps (Hands 0) (Effect.readNode n : PassEffect (σ × List HookEvent) Node) :=
    Keeps.readNode Hands.refl
  refine Keeps.seq hstop hthen (hread n) fun node => ?_
  refine Keeps.seq hstop hthen (keeps_tag o _) fun tag => ?_
  cases kind with
  | container =>
    refine Keeps.seq hstop hthen (hread n) fun node => ?_
    refine Keeps.seq hstop hthen (fun w => Hands.of_same rfl rfl) fun split => ?_
    refine Keeps.seq hstop hthen (hread n) fun node => ?_
    refine Keeps.seq hstop hthen (keeps_buildAttributes o tag _) fun records => ?_
    refine Keeps.seq hstop hthen (fun w => Hands.of_same rfl rfl) fun element => ?_
    obtain ⟨children, label⟩ := split
    cases label with
    | none => exact fun w => ⟨0, Nat.zero_le 1, Hands.refl w⟩
    | some label => exact fun w => ⟨1, Nat.le_refl 1, keeps_hand o element label w⟩
  | leaf | text =>
    refine Keeps.seq hstop hthen (hread n) fun node => ?_
    refine Keeps.seq hstop hthen (keeps_buildAttributes o tag _) fun records => ?_
    refine Keeps.seq hstop hthen (hread n) fun node => ?_
    exact fun w => ⟨0, Nat.zero_le 1, Hands.of_same rfl rfl⟩

end BuildElement

/-- Making an element enters one label in the books, or nothing. -/
theorem books_buildElement (o : Options σ) (kind : DirectiveKind) (n : NodeId)
    (w : World (σ × Books)) :
    ∃ calls, calls ≤ 1 ∧ (left (buildElement o kind n w)).memory.2 =
      { w.memory.2 with stats := w.memory.2.stats.hand calls } := by
  obtain ⟨calls, hle, -, -, -, hbooks⟩ :=
    keeps_buildElement o kind n ⟨w.store, (w.memory.1, []), w.memory.2⟩
  have hcovers := covers_buildElement o.extends_recorded kind n
    ⟨w.store, (w.memory.1, []), w.memory.2⟩
  refine ⟨calls, hle, ?_⟩
  have hsame : w = World.view (viewHooks Prod.fst)
    (⟨w.store, (w.memory.1, []), w.memory.2⟩ : World ((σ × List HookEvent) × Books)) := rfl
  rw [hsame, ← hcovers]
  cases hr : buildElement o.recorded kind n ⟨w.store, (w.memory.1, []), w.memory.2⟩ with
  | ok element v =>
    rw [hr] at hbooks
    exact hbooks
  | error fault v =>
    rw [hr] at hbooks
    exact hbooks

/-! ## Lowering a directive -/

/-- What is reported when a directive is overwritten with an element, as both are just before. -/
def loweredNotice (s : Store) (n element : NodeId) : Notice :=
  .lowered (s.node n).type (s.node n).name (s.node element).type (s.node element).name

theorem lower_apply (o : Options σ) (n : NodeId) (w : World (σ × Books)) :
    lower o n w =
      match DirectiveKind.ofType? (w.store.node n).type with
      | none => .error (.missingKey (w.store.node n).type) w
      | some kind =>
        match buildElement o kind n w with
        | .error fault v => .error fault v
        | .ok element v =>
          .ok () ⟨v.store.setNode n ((v.store.node n).overwrite (v.store.node element)), v.memory.1,
            { stats := v.memory.2.stats.transform
              notices := v.memory.2.notices.push (loweredNotice v.store n element) }⟩ := by
  rw [lower, Effect.bind_ok (Effect.readNode_apply _ _)]
  cases DirectiveKind.ofType? (w.store.node n).type with
  | none => rfl
  | some kind =>
    dsimp only
    cases hbuilt : buildElement o kind n w with
    | error fault v => rw [Effect.bind_error hbuilt]
    | ok element v => rw [Effect.bind_ok hbuilt]; rfl

/-- The notice of a lowering that is begun in a world and succeeds. -/
def LoweredAs (o : Options σ) (n : NodeId) (w : World (σ × Books)) (notice : Notice) : Prop :=
  ∃ kind element v, DirectiveKind.ofType? (w.store.node n).type = some kind ∧
    buildElement o kind n w = .ok element v ∧ notice = loweredNotice v.store n element

/-- A directive that is lowered is counted and reported, after at most one label. If the lowering fails
at most the label is. -/
theorem books_lower (o : Options σ) (n : NodeId) (w : World (σ × Books)) :
    ∃ calls, calls ≤ 1 ∧
      match lower o n w with
      | .ok _ v => ∃ notice, LoweredAs o n w notice ∧ v.memory.2 =
          { stats := (w.memory.2.stats.hand calls).transform
            notices := w.memory.2.notices.push notice }
      | .error _ v => v.memory.2 = { w.memory.2 with stats := w.memory.2.stats.hand calls } := by
  rw [lower_apply]
  cases hkind : DirectiveKind.ofType? (w.store.node n).type with
  | none => exact ⟨0, Nat.zero_le 1, by simp⟩
  | some kind =>
    obtain ⟨calls, hle, hbooks⟩ := books_buildElement o kind n w
    refine ⟨calls, hle, ?_⟩
    dsimp only
    cases hbuilt : buildElement o kind n w with
    | error fault v =>
      rw [hbuilt] at hbooks
      exact hbooks
    | ok element v =>
      rw [hbuilt] at hbooks
      have hbooks' : v.memory.2 = { w.memory.2 with stats := w.memory.2.stats.hand calls } := hbooks
      refine ⟨loweredNotice v.store n element, ⟨kind, element, v, hkind, hbuilt, rfl⟩, ?_⟩
      dsimp only
      rw [hbooks']

/-! ## Visiting a directive -/

section Visit

variable (o)

theorem keeps_count (f : Stats → Stats) (hf : ∀ s, (f s).labels = s.labels) :
    Keeps CountsLabels (count f : PassEffect (σ × List HookEvent) Unit) :=
  fun _ => .of_same rfl (hf _)

theorem keeps_note (notice : Notice) :
    Keeps CountsLabels (note notice : PassEffect (σ × List HookEvent) Unit) :=
  fun _ => .of_same rfl rfl

theorem keeps_lower (n : NodeId) : Keeps CountsLabels (lower o.recorded n) := by
  have hrefl : ∀ w : World ((σ × List HookEvent) × Books), CountsLabels w w := fun w => .of_same rfl rfl
  refine Keeps.bind CountsLabels.trans (Keeps.readNode hrefl n) fun node => ?_
  dsimp only
  cases DirectiveKind.ofType? node.type with
  | none => exact Keeps.throw hrefl _
  | some kind =>
    refine Keeps.bind CountsLabels.trans (fun w => ?_) fun element => ?_
    · obtain ⟨calls, -, h⟩ := keeps_buildElement o kind n w
      exact h.countsLabels
    refine Keeps.bind CountsLabels.trans (Keeps.readNode hrefl element) fun _ => ?_
    refine Keeps.bind CountsLabels.trans (Keeps.readNode hrefl n) fun _ => ?_
    refine Keeps.bind CountsLabels.trans (keeps_note _) fun _ => ?_
    exact Keeps.bind CountsLabels.trans (fun w => .of_same rfl rfl) fun _ => keeps_count _ fun _ => rfl

/-- In a visit the label hook is called as often as labels are counted. -/
theorem keeps_visit (n : NodeId) : Keeps CountsLabels (visit o.recorded n) := by
  have hrefl : ∀ w : World ((σ × List HookEvent) × Books), CountsLabels w w := fun w => .of_same rfl rfl
  have hpolicy : Keeps CountsLabels (Effect.onFirst (o.recorded.filter n) >>= fun taken =>
      if taken then lower o.recorded n else Effect.readNode n >>= fun node =>
        note (.rejected node.name) >>= fun _ => count Stats.reject) := by
    refine Keeps.bind CountsLabels.trans (fun w => ?_) fun taken => ?_
    · exact (keeps_recorded (fun s => .filter n (s.node n)) (fun _ => rfl) (o.filter n) w).hands.countsLabels
    cases taken with
    | true => exact keeps_lower o n
    | false =>
      refine Keeps.bind CountsLabels.trans (Keeps.readNode hrefl n) fun _ => ?_
      exact Keeps.bind CountsLabels.trans (keeps_note _) fun _ => keeps_count _ fun _ => rfl
  refine Keeps.bind CountsLabels.trans (keeps_count _ fun _ => rfl) fun _ => ?_
  refine Keeps.bind CountsLabels.trans (Keeps.readNode hrefl n) fun node => ?_
  cases o.recorded.skipTransformed.truthy with
  | false => exact hpolicy
  | true =>
    cases node.loweredName? with
    | none => exact hpolicy
    | some hName =>
      exact Keeps.bind CountsLabels.trans (keeps_note _) fun _ => keeps_count _ fun _ => rfl

theorem keeps_visitor (n : NodeId) (i : Option Nat) (p : Option NodeId) :
    Keeps CountsLabels (visitor o.recorded n i p) :=
  Keeps.bind CountsLabels.trans (keeps_visit o n) fun _ => Keeps.pure (fun _ => .of_same rfl rfl) _

end Visit

end Pass

end DirectiveLowering
