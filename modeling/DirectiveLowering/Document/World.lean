import DirectiveLowering.Document.Store
import DirectiveLowering.Fault

/-!
# Worlds and effects

A computation over documents reads and changes a store, and beside it a memory of its own: a log, a
trace, counters. It may stop with a fault, and then keeps what it changed before.

Results:
* `Effect.bind_ok`, `Effect.bind_error`: a computation goes on where the one before it returned, and
  stops where it stopped.
* `Effect.onFirst_ok`, `Effect.onFirst_error`: a computation that knows a part of the memory leaves
  the rest of it alone.
-/

namespace DirectiveLowering

/-- A store, and what else a computation remembers. -/
structure World (μ : Type) where
  store : Store
  memory : μ

/-- A computation over a world, which may stop with a fault and keeps what it changed before. -/
abbrev Effect (μ : Type) := EStateM Fault (World μ)

namespace Effect

variable {μ ν α : Type}

/-! ## Reading -/

/-- The store as it is now. -/
def readStore : Effect μ Store := do
  return (← get).store

/-- A node as it is now. -/
def readNode (n : NodeId) : Effect μ Node := do
  return (← readStore).node n

/-- A list of children as it is now. -/
def readList (l : ListId) : Effect μ (List NodeId) := do
  return (← readStore).list l

/-! ## Changing -/

/-- Changes the store and answers something about the change. -/
def onStore (f : Store → α × Store) : Effect μ α := fun w =>
  match w with
  | ⟨store, memory⟩ =>
    match f store with
    | (a, store) => .ok a ⟨store, memory⟩

/-- Changes the store. -/
def changeStore (f : Store → Store) : Effect μ Unit := fun w =>
  match w with
  | ⟨store, memory⟩ => .ok () ⟨f store, memory⟩

/-- Changes the memory. -/
def changeMemory (f : μ → μ) : Effect μ Unit := fun w =>
  match w with
  | ⟨store, memory⟩ => .ok () ⟨store, f memory⟩

/-- Changes a node in place. -/
def changeNode (n : NodeId) (f : Node → Node) : Effect μ Unit :=
  changeStore fun s => s.setNode n (f (s.node n))

/-- The value, or the fault that there is none. -/
def ofExcept : Except Fault α → Effect μ α
  | .ok a => pure a
  | .error fault => throw fault

/-- Runs a computation that knows the first part of the memory alone. -/
def onFirst (x : Effect μ α) : Effect (μ × ν) α := fun w =>
  match w with
  | ⟨store, inner, outer⟩ =>
    match x ⟨store, inner⟩ with
    | .ok a v => .ok a ⟨v.store, v.memory, outer⟩
    | .error fault v => .error fault ⟨v.store, v.memory, outer⟩

/-! ## What the operations do -/

variable {β : Type} {x : Effect μ α} {f : α → Effect μ β} {w v : World μ}

theorem bind_ok {a : α} (h : x w = .ok a v) : (x >>= f) w = f a v := by
  simp [bind, EStateM.bind, h]

theorem bind_error {fault : Fault} (h : x w = .error fault v) :
    (x >>= f) w = .error fault v := by
  simp [bind, EStateM.bind, h]

@[simp] theorem pure_apply (a : α) (w : World μ) : (pure a : Effect μ α) w = .ok a w := rfl

@[simp] theorem throw_apply (fault : Fault) (w : World μ) :
    (throw fault : Effect μ α) w = .error fault w := rfl

@[simp] theorem readStore_apply (w : World μ) : (readStore : Effect μ Store) w = .ok w.store w :=
  rfl

@[simp] theorem readNode_apply (n : NodeId) (w : World μ) :
    (readNode n : Effect μ Node) w = .ok (w.store.node n) w := rfl

@[simp] theorem readList_apply (l : ListId) (w : World μ) :
    (readList l : Effect μ (List NodeId)) w = .ok (w.store.list l) w := rfl

@[simp] theorem onStore_apply (g : Store → α × Store) (w : World μ) :
    onStore g w = .ok (g w.store).1 ⟨(g w.store).2, w.memory⟩ := rfl

@[simp] theorem changeStore_apply (g : Store → Store) (w : World μ) :
    changeStore g w = .ok () ⟨g w.store, w.memory⟩ := rfl

@[simp] theorem changeMemory_apply (g : μ → μ) (w : World μ) :
    changeMemory g w = .ok () ⟨w.store, g w.memory⟩ := rfl

@[simp] theorem changeNode_apply (n : NodeId) (g : Node → Node) (w : World μ) :
    changeNode n g w = .ok () ⟨w.store.setNode n (g (w.store.node n)), w.memory⟩ := rfl

@[simp] theorem ofExcept_ok (a : α) (w : World μ) : ofExcept (.ok a) w = .ok a w := rfl

@[simp] theorem ofExcept_error (fault : Fault) (w : World μ) :
    (ofExcept (.error fault) : Effect μ α) w = .error fault w := rfl

theorem onFirst_ok {x : Effect μ α} {store : Store} {inner : μ} {outer : ν} {a : α} {v : World μ}
    (h : x ⟨store, inner⟩ = .ok a v) :
    onFirst x ⟨store, inner, outer⟩ = .ok a ⟨v.store, v.memory, outer⟩ := by
  simp [onFirst, h]

theorem onFirst_error {x : Effect μ α} {store : Store} {inner : μ} {outer : ν} {fault : Fault}
    {v : World μ} (h : x ⟨store, inner⟩ = .error fault v) :
    onFirst x ⟨store, inner, outer⟩ = .error fault ⟨v.store, v.memory, outer⟩ := by
  simp [onFirst, h]

end Effect

end DirectiveLowering
