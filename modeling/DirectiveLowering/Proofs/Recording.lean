import DirectiveLowering.Lowering.Pass
import DirectiveLowering.Proofs.Recursion

/-!
# Recorded hooks

Any hooks can be made to record their calls, each before it is carried out, with what it was given: the
filter the directive as it is then, the label hook the new element and its children. A pass with
recorded hooks does to documents and statistics what the pass with the hooks themselves does.

Results:
* `covers_visit`, `covers_run`: a pass whose hooks cover other hooks covers the pass with those.
* `covers_run_recorded`: a pass with recorded hooks covers the pass without the record.
-/

namespace DirectiveLowering

/-- A call of a hook, with what the hook was given. -/
inductive HookEvent
  /-- The filter was asked about a directive, which looked like this. -/
  | filter (n : NodeId) (seen : Node)
  /-- The label hook received an element, which looked like this and had these children, and the list
  of a label's children. -/
  | label (seen : Node) (children : List NodeId) (content : ListId)
  /-- The tag hook was given a directive name. -/
  | tag (name : Option String)
  /-- The attribute hook was given an element name and an attribute name. -/
  | attributeName (tag : Option String) (name : String)

/-- The directive name that the tag hook was given, if it was the tag hook. -/
def HookEvent.tag? : HookEvent → Option (Option String)
  | .tag name => some name
  | _ => none

variable {σ : Type}

/-- Adds a call to the record. -/
def record (e : HookEvent) : Effect (σ × List HookEvent) Unit :=
  Effect.changeMemory fun (memory, events) => (memory, events ++ [e])

/-- The options with hooks that record their calls. -/
def Options.recorded (o : Options σ) : Options (σ × List HookEvent) where
  skipTransformed := o.skipTransformed
  filter n := do
    record (.filter n (← Effect.readNode n))
    Effect.onFirst (o.filter n)
  handleLabel element content := do
    let seen ← Effect.readNode element
    record (.label seen (← Effect.readList seen.children) content)
    Effect.onFirst (o.handleLabel element content)
  transformTag name := do
    record (.tag name)
    Effect.onFirst (o.transformTag name)
  transformAttribute tag name := do
    record (.attributeName tag name)
    Effect.onFirst (o.transformAttribute tag name)

@[simp] theorem record_apply (e : HookEvent) (s : Store) (m : σ) (events : List HookEvent) :
    record e ⟨s, m, events⟩ = .ok () ⟨s, m, events ++ [e]⟩ := rfl

/-! ## The record changes nothing -/

namespace Covers

variable {μ ν κ α : Type}

/-- A computation that knows the first part of a larger memory covers one that knows as much of a
smaller one. -/
theorem onFirst {g : ν → μ} {x : Effect ν α} {y : Effect μ α} (h : Covers g x y) :
    Covers (fun m : ν × κ => (g m.1, m.2)) (Effect.onFirst x) (Effect.onFirst y) := by
  intro w
  obtain ⟨s, m, k⟩ := w
  have hw := h ⟨s, m⟩
  simp only [Effect.onFirst, view_mk] at hw ⊢
  rw [← hw]
  cases x ⟨s, m⟩ <;> rfl

/-- A record that is made before a computation and left alone by it does not show. -/
theorem recorded {x : Effect σ α} (event : Store → HookEvent) :
    Covers (Prod.fst : σ × List HookEvent → σ)
      (Effect.readStore >>= fun s => record (event s) >>= fun _ => Effect.onFirst x) x := by
  intro w
  obtain ⟨s, m, events⟩ := w
  simp only [Bind.bind, EStateM.bind, Effect.readStore_apply, record_apply, Effect.onFirst, view_mk]
  cases x ⟨s, m⟩ <;> rfl

end Covers

/-- The hooks do what those of other options do, and may remember more than they. -/
structure Options.Extends {ν : Type} (g : ν → σ) (o' : Options ν) (o : Options σ) : Prop where
  skipTransformed : o'.skipTransformed = o.skipTransformed
  filter : ∀ n, Covers g (o'.filter n) (o.filter n)
  handleLabel : ∀ element content,
    Covers g (o'.handleLabel element content) (o.handleLabel element content)
  transformTag : ∀ name, Covers g (o'.transformTag name) (o.transformTag name)
  transformAttribute : ∀ tag name,
    Covers g (o'.transformAttribute tag name) (o.transformAttribute tag name)

theorem Options.extends_recorded (o : Options σ) : o.recorded.Extends Prod.fst o where
  skipTransformed := rfl
  filter n := Covers.recorded fun s => .filter n (s.node n)
  handleLabel element content :=
    Covers.recorded fun s => .label (s.node element) (s.children element) content
  transformTag name := Covers.recorded fun _ => .tag name
  transformAttribute tag name := Covers.recorded fun _ => .attributeName tag name

namespace Pass

/-! ## Passes whose hooks remember more -/

section Extends

variable {ν : Type} {g : ν → σ} {o' : Options ν} {o : Options σ}

/-- The memory of a pass, with as much of the hooks' memory as a view shows. -/
def viewHooks (g : ν → σ) (memory : ν × Books) : σ × Books :=
  (g memory.1, memory.2)

theorem covers_count (f : Stats → Stats) :
    Covers (viewHooks g) (count f) (count f) :=
  Covers.changeMemory fun _ => rfl

theorem covers_note (n : Notice) :
    Covers (viewHooks g) (note n) (note n) :=
  Covers.changeMemory fun _ => rfl

theorem covers_readStats :
    Covers (viewHooks g) readStats readStats :=
  fun _ => rfl

theorem covers_renameEntries {rename : String → PassEffect ν (Option String)}
    {rename' : String → PassEffect σ (Option String)}
    (h : ∀ name, Covers (viewHooks g) (rename name) (rename' name))
    (entries : List (String × Option String)) :
    Covers (viewHooks g) (renameEntries rename entries) (renameEntries rename' entries) := by
  induction entries with
  | nil => exact Covers.pure _
  | cons entry rest ih =>
    exact Covers.bind (h entry.1) fun _ => Covers.bind ih fun _ => Covers.pure _

theorem covers_buildAttributes {rename : String → PassEffect ν (Option String)}
    {rename' : String → PassEffect σ (Option String)}
    (h : ∀ name, Covers (viewHooks g) (rename name) (rename' name))
    (attributes : Option Attributes) :
    Covers (viewHooks g) (buildAttributes rename attributes) (buildAttributes rename' attributes) :=
  Covers.bind (Covers.ofExcept _) fun entries => covers_renameEntries h entries

variable (h : o'.Extends g o)
include h

theorem covers_buildElement (kind : DirectiveKind) (n : NodeId) :
    Covers (viewHooks g) (buildElement o' kind n) (buildElement o kind n) := by
  refine Covers.bind (Covers.readNode n) fun node => ?_
  refine Covers.bind (h.transformTag node.name).onFirst fun tag => ?_
  have hrename : ∀ name, Covers (viewHooks g) (Effect.onFirst (o'.transformAttribute tag name))
      (Effect.onFirst (o.transformAttribute tag name)) :=
    fun name => (h.transformAttribute tag name).onFirst
  cases kind with
  | container =>
    refine Covers.bind (Covers.readNode n) fun node => ?_
    refine Covers.bind (Covers.onStore _) fun split => Covers.bind (Covers.readNode n) fun node => ?_
    refine Covers.bind (covers_buildAttributes hrename _) fun records => ?_
    refine Covers.bind (Covers.onStore _) fun element => ?_
    obtain ⟨children, label⟩ := split
    cases label with
    | none => exact Covers.pure _
    | some label =>
      refine Covers.bind (covers_count _) fun _ => Covers.bind (Covers.readNode label) fun node => ?_
      exact Covers.bind (h.handleLabel element _).onFirst fun _ => Covers.pure _
  | leaf | text =>
    refine Covers.bind (Covers.readNode n) fun node => ?_
    refine Covers.bind (covers_buildAttributes hrename _) fun records => ?_
    exact Covers.bind (Covers.readNode n) fun node => Covers.onStore _

theorem covers_lower (n : NodeId) : Covers (viewHooks g) (lower o' n) (lower o n) := by
  refine Covers.bind (Covers.readNode n) fun node => ?_
  dsimp only
  cases DirectiveKind.ofType? node.type with
  | none => exact Covers.throw _
  | some kind =>
    refine Covers.bind (covers_buildElement h kind n) fun element => ?_
    refine Covers.bind (Covers.readNode element) fun _ => Covers.bind (Covers.readNode n) fun _ => ?_
    exact Covers.bind (covers_note _) fun _ => Covers.bind (Covers.changeNode n _) fun _ =>
      covers_count _

theorem covers_visit (n : NodeId) : Covers (viewHooks g) (visit o' n) (visit o n) := by
  have hpolicy : Covers (viewHooks g)
      (Effect.onFirst (o'.filter n) >>= fun taken =>
        if taken then lower o' n else Effect.readNode n >>= fun node =>
          note (.rejected node.name) >>= fun _ => count Stats.reject)
      (Effect.onFirst (o.filter n) >>= fun taken =>
        if taken then lower o n else Effect.readNode n >>= fun node =>
          note (.rejected node.name) >>= fun _ => count Stats.reject) := by
    refine Covers.bind (h.filter n).onFirst fun taken => Covers.ite (covers_lower h n) ?_
    exact Covers.bind (Covers.readNode n) fun _ => Covers.bind (covers_note _) fun _ => covers_count _
  refine Covers.bind (covers_count _) fun _ => Covers.bind (Covers.readNode n) fun node => ?_
  rw [h.skipTransformed]
  cases o.skipTransformed.truthy with
  | false => exact hpolicy
  | true =>
    cases node.loweredName? with
    | none => exact hpolicy
    | some hName => exact Covers.bind (covers_note _) fun _ => covers_count _

theorem covers_visitor (n : NodeId) (i : Option Nat) (p : Option NodeId) :
    Covers (viewHooks g) (visitor o' n i p) (visitor o n i p) :=
  Covers.bind (covers_visit h n) fun _ => Covers.pure _

/-- A pass whose hooks remember more leaves the documents and the books that the other leaves, and
ends alike. -/
theorem covers_run (budget : Nat) (root : NodeId) :
    Covers (viewHooks g) (run o' budget root) (run o budget root) := by
  refine Covers.bind (covers_note _).toRun fun _ => ?_
  refine Covers.bind (Covers.run (covers_visitor h) budget root) fun _ => ?_
  exact (Covers.bind covers_readStats fun _ => covers_note _).toRun

end Extends

/-- The memory of a pass without the record of the hooks' calls. -/
def unrecorded (memory : (σ × List HookEvent) × Books) : σ × Books :=
  (memory.1.1, memory.2)

/-- **Recording changes nothing**: a pass with recorded hooks leaves the documents, the memory of the
hooks and the books that the pass leaves, and ends alike. -/
theorem covers_run_recorded {o : Options σ} (budget : Nat) (root : NodeId) :
    Covers unrecorded (run o.recorded budget root) (run o budget root) :=
  covers_run o.extends_recorded budget root

/-- A pass that comes to its end does so with recorded hooks as well. -/
theorem exists_run_recorded {o : Options σ} {budget : Nat} {root : NodeId} {s : Store} {m : σ}
    {w : World (σ × Books)} (hrun : run o budget root ⟨s, m, {}⟩ = .ok () w) :
    ∃ v, run o.recorded budget root ⟨s, (m, []), {}⟩ = .ok () v ∧ w = v.view unrecorded :=
  exists_ok_of_viewed ((covers_run_recorded budget root _).trans hrun)

end Pass

end DirectiveLowering
