import DirectiveLowering.Proofs.Bracket

/-!
# Stages that use the log

A stage may write messages, connect states, undo connections whose tokens are at hand, run further
processors and fail, in any order and to any depth. The token of a run is never at hand for its stages;
tokens from before the run may be.

What such stages do is told here without tokens: a connection remembers the state from just before it, and
undoing it makes that state current again, in whatever order connections are undone; a run begins with its
own processor current and ends with what was current before it. What is said is told with the state that
is current then.
-/

namespace DirectiveLowering

/-! ## Steps -/

/-- A step of a stage. -/
inductive LogStep
  /-- Writes a message. -/
  | say (message : String) (level : Int)
  /-- Connects a state; its token is at hand from then on. -/
  | connect (state : RunState)
  /-- Undoes the connection whose token is at this place at hand. -/
  | disconnect (place : Nat)
  /-- Runs a processor on stages. -/
  | run (p : ProcessorId) (stages : List (List LogStep))
  /-- Takes some steps, and goes on if they fail. -/
  | attempt (steps : List LogStep)
  /-- Fails. -/
  | fail (fault : Fault)

namespace Session

/-- Goes on if a computation fails. -/
def recovering {σ : Type} (x : Session σ Unit) : Session σ Unit := fun w =>
  match x w with
  | .error (.raised _) v => .ok () v
  | r => r

/-- Connects a state and keeps the token at hand. -/
def connectKept (state : RunState) : Session (List TokenId) Unit := do
  let t ← connect state
  modify fun w => { w with memory := w.memory ++ [t] }

/-- Undoes the connection whose token is at a place at hand. -/
def disconnectKept (place : Nat) : Session (List TokenId) Unit := do
  match (← get).memory[place]? with
  | none => raise .indexOutOfRange
  | some t => disconnect t

end Session

mutual

/-- Takes a step, on a tree that nested runs are given. The memory holds the tokens at hand. -/
def LogStep.perform : LogStep → NodeId → Session (List TokenId) Unit
  | .say message level, _ => Session.log message (some (.int level)) []
  | .connect state, _ => Session.connectKept state
  | .disconnect place, _ => Session.disconnectKept place
  | .run p stages, tree => do let _ ← Session.runStages p (stagesOf stages) tree
  | .attempt steps, tree => Session.recovering (performAll steps tree)
  | .fail fault, _ => Session.raise fault

/-- Takes some steps, one after the other. -/
def performAll : List LogStep → NodeId → Session (List TokenId) Unit
  | [], _ => return ()
  | step :: rest, tree => do
    step.perform tree
    performAll rest tree

/-- Stages that take steps; the tree stays. -/
def stagesOf : List (List LogStep) → List (NodeId → Session (List TokenId) (Option NodeId))
  | [] => []
  | steps :: rest =>
    (fun tree => do
      performAll steps tree
      return none) :: stagesOf rest

end

/-! ## What is told of them -/

/-- What is current, what undoing each connection at hand makes current, unless it is undone already, and
what has been said, each with what was current then. -/
structure Scene where
  current : RunState
  undo : List (Option RunState)
  said : List (RunState × Notice)

/-- What is told of some steps. -/
abbrev Telling := EStateM Fault Scene Unit

namespace Scene

/-- Something is said. -/
def say (sc : Scene) (n : Notice) : Scene :=
  { sc with said := sc.said ++ [(sc.current, n)] }

/-- A connection is made. -/
def connect (sc : Scene) (state : RunState) : Scene :=
  { sc with current := state, undo := sc.undo ++ [some sc.current] }

/-- A connection is undone. -/
def disconnect (sc : Scene) (place : Nat) : EStateM.Result Fault Scene Unit :=
  match sc.undo[place]? with
  | none => .error .indexOutOfRange sc
  | some none => .error .tokenReused sc
  | some (some state) => .ok () { sc with current := state, undo := sc.undo.set place none }

/-- A processor begins its stages. -/
def begin (sc : Scene) (p : ProcessorId) (stages : Nat) : Scene :=
  say { sc with current := .processor p } (.running stages)

/-- Steps were attempted: what they have done stays, also if they have failed. -/
def attempted : EStateM.Result Fault Scene Unit → EStateM.Result Fault Scene Unit
  | .ok _ v => .ok () v
  | .error _ v => .ok () v

/-- A run has ended, in whatever way: what was current before it is current again. -/
def finish (sc : Scene) : EStateM.Result Fault Scene Unit → EStateM.Result Fault Scene Unit
  | .ok _ v => .ok () { v with current := sc.current }
  | .error fault v => .error fault { v with current := sc.current }

end Scene

mutual

/-- What is told of a step. -/
def LogStep.tell : LogStep → Telling
  | .say message level => modify (·.say (.custom message level))
  | .connect state => modify (·.connect state)
  | .disconnect place => (·.disconnect place)
  | .run p stages => fun sc => sc.finish (tellStages stages (sc.begin p stages.length))
  | .attempt steps => fun sc => Scene.attempted (tellAll steps sc)
  | .fail fault => throw fault

/-- What is told of some steps. -/
def tellAll : List LogStep → Telling
  | [] => return ()
  | step :: rest => do
    step.tell
    tellAll rest

/-- What is told of some stages. -/
def tellStages : List (List LogStep) → Telling
  | [] => return ()
  | steps :: rest => do
    tellAll steps
    tellStages rest

end

end DirectiveLowering
