import DirectiveLowering.Document.World

/-!
# Walks

A walk visits the nodes below a root in document order, each before its children. The children of a
node are read after its visitor has returned, so a visitor that gives its node other children has those
walked; a list is read by position, and its length afresh before each position, so that a list which
grows while it is walked is walked to its new end.

Open lists are kept on a stack of frames, and a budget bounds the number of steps on it: a visitor
may feed a walk for ever.

Results:
* `loop_nil`, `loop_cons`: the loop, step by step.
* `loop_of_le`: a larger budget does not change how a walk ends.
-/

namespace DirectiveLowering

/-! ## Which nodes are visited -/

/-- Which types of nodes a walk calls its visitor on (`NodeTest`). -/
inductive TypeTest
  | any
  | only (type : String)
  | oneOf (types : List String)
deriving DecidableEq, Repr

/-- Whether the test accepts a type (`nodeType_matches`). -/
def TypeTest.accepts : TypeTest → String → Bool
  | any, _ => true
  | only type, t => t == type
  | oneOf types, t => types.contains t

/-! ## Visitors -/

/-- How a walk goes on after a visitor has returned (`VisitAction`). -/
inductive Action
  /-- With the children of the node, then its siblings. -/
  | proceed
  /-- With the siblings of the node. -/
  | skip
  /-- Not at all. -/
  | exit
deriving DecidableEq, Repr

namespace Action

/-- Every action. -/
def all : List Action := [proceed, skip, exit]

/-- Name of an action. -/
def name : Action → String
  | proceed => "continue"
  | skip => "skip"
  | exit => "exit"

/-- The action of a name. -/
def ofName? (s : String) : Option Action :=
  all.find? (·.name == s)

end Action

/-- What is done at a node, at a position below a parent; the root has neither (`Visitor`). -/
abbrev Visitor (μ : Type) := NodeId → Option Nat → Option NodeId → Effect μ Action

/-! ## Stopping short -/

/-- Why a computation did not come to its end. -/
inductive Halt
  | raised (fault : Fault)
  /-- The budget of steps was used up. -/
  | outOfBudget
deriving Repr

/-- A computation over a world that may also use up a budget. -/
abbrev Run (μ : Type) := EStateM Halt (World μ)

/-- An effect as a computation that uses up no budget. -/
def Effect.toRun {μ α : Type} (x : Effect μ α) : Run μ α := fun w =>
  match x w with
  | .ok a w => .ok a w
  | .error fault w => .error (.raised fault) w

namespace Walk

variable {μ : Type}

/-- A list that is being walked: the node it was read from, the list, and the next position. The
`frame` of `tree_visit`. -/
structure Frame where
  parent : NodeId
  list : ListId
  position : Nat
deriving DecidableEq, Repr

/-- Calls the visitor on a node whose type passes the test now; any other node is walked into
(`node_enter`). -/
def enter (test : TypeTest) (visit : Visitor μ) (n : NodeId) (index : Option Nat)
    (parent : Option NodeId) : Effect μ Action := do
  if test.accepts (← Effect.readNode n).type then visit n index parent else return .proceed

/-- The frame of a node's children, as the node is now. -/
def openFrame (n : NodeId) : Effect μ Frame := do
  return ⟨n, (← Effect.readNode n).children, 0⟩

/-- The node at a position of a list, or the fault that the list does not reach so far. -/
def nodeAt (items : List NodeId) (position : Nat) : Except Fault NodeId :=
  match items[position]? with
  | some n => .ok n
  | none => .error .indexOutOfRange

/-- The frame one position further on. -/
def Frame.advance (f : Frame) : Frame :=
  { f with position := f.position + 1 }

/-- One step on the stack of frames, the innermost first; an empty stack ends the walk. It is one turn
of the loop of `tree_visit`. -/
def step (test : TypeTest) (visit : Visitor μ) : List Frame → Effect μ (List Frame)
  | [] => return []
  | f :: rest => do
    let items ← Effect.readList f.list
    if items.length ≤ f.position then return rest
    let n ← Effect.ofExcept (nodeAt items f.position)
    match ← enter test visit n (some f.position) (some f.parent) with
    | .exit => return []
    | .skip => return f.advance :: rest
    | .proceed => return (← openFrame n) :: f.advance :: rest

/-- Steps until the stack is empty, as far as the budget goes: the loop of `tree_visit`. -/
def loop (test : TypeTest) (visit : Visitor μ) : (budget : Nat) → List Frame → Run μ Unit
  | _, [] => return ()
  | 0, _ :: _ => throw .outOfBudget
  | budget + 1, f :: rest => do
    loop test visit budget (← (step test visit (f :: rest)).toRun)

/-- Walks the document below a root, which is visited as well (`tree_visit`). -/
def run (test : TypeTest) (visit : Visitor μ) (budget : Nat) (root : NodeId) : Run μ Unit := do
  match ← (enter test visit root none none).toRun with
  | .proceed => loop test visit budget [← (openFrame root).toRun]
  | .skip => return ()
  | .exit => return ()

/-! ## The loop -/

variable {test : TypeTest} {visit : Visitor μ}

@[simp] theorem loop_nil (budget : Nat) (w : World μ) :
    loop test visit budget [] w = .ok () w := by
  cases budget <;> rfl

theorem loop_zero_cons (f : Frame) (rest : List Frame) (w : World μ) :
    loop test visit 0 (f :: rest) w = .error .outOfBudget w := rfl

theorem loop_cons (budget : Nat) (f : Frame) (rest : List Frame) (w : World μ) :
    loop test visit (budget + 1) (f :: rest) w =
      match step test visit (f :: rest) w with
      | .ok frames w => loop test visit budget frames w
      | .error fault w => .error (.raised fault) w := by
  simp only [loop, bind, EStateM.bind, Effect.toRun]
  cases step test visit (f :: rest) w <;> rfl

theorem loop_of_le {b b' : Nat} (h : b ≤ b') {frames : List Frame} {w : World μ}
    {r : EStateM.Result Halt (World μ) Unit} (hr : loop test visit b frames w = r)
    (hfinished : ∀ v, r ≠ .error .outOfBudget v) : loop test visit b' frames w = r := by
  induction b generalizing b' frames w with
  | zero =>
    cases frames with
    | nil => simpa using hr
    | cons f rest => exact absurd hr.symm (by simpa [loop_zero_cons] using hfinished w)
  | succ b ih =>
    cases frames with
    | nil => simpa using hr
    | cons f rest =>
      obtain ⟨c, rfl⟩ : ∃ c, b' = c + 1 := ⟨b' - 1, by omega⟩
      rw [loop_cons] at hr ⊢
      split at hr
      · exact ih (by omega) hr
      · exact hr

end Walk

end DirectiveLowering
