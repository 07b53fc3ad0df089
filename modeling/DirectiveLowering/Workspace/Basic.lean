import DirectiveLowering.Document.Walk
import DirectiveLowering.Lowering.Pass
import DirectiveLowering.Lowering.Policy
import DirectiveLowering.Template.Fill
import DirectiveLowering.Workspace.Logger

/-!
# Workspaces

A workspace holds documents, options, transformers, processors and the log. Options are shared: a
transformer keeps to the options it was made with, and sees later changes to them. The statistics of a
pass stay in the ledger when a later pass begins.

Results:
* `noted_of_not_allows`: a notice above the verbosity in force changes nothing.
-/

namespace DirectiveLowering

/-! ## Identities -/

/-- Identity of options. -/
structure OptionsId where
  index : Nat
deriving DecidableEq, Repr, Inhabited

/-- Identity of a transformer. -/
structure TransformerId where
  index : Nat
deriving DecidableEq, Repr, Inhabited

/-- Identity of the statistics of a pass. -/
structure StatsId where
  index : Nat
deriving DecidableEq, Repr, Inhabited

/-! ## Contents -/

/-- A transformer (`DirectiveTransformer`): its options, and the statistics of its latest pass. -/
structure Transformer where
  options : OptionsId
  stats : StatsId
deriving DecidableEq, Repr, Inhabited

/-- A step of a processor or a pipeline. -/
inductive Stage
  /-- A pass of a transformer; the tree stays. -/
  | transform (transformer : TransformerId)
  /-- A message; the tree stays. -/
  | log (message : String) (level : Int)
  /-- A failure. -/
  | fail (failure : Failure)
  /-- The tree is replaced with another. -/
  | replace (tree : NodeId)
  /-- The tree becomes the only child of a new node. -/
  | wrap (type : String)
  /-- The tree is replaced with one of its children. -/
  | child (index : Int)
  /-- The root gets another name; the tree stays. -/
  | rename (name : Option String)
deriving Inhabited

/-- A processor (`Processor`): its verbosity, and its stages in the order in which they are applied. -/
structure Processor where
  verbosity : Int
  stages : Array Stage := #[]
deriving Inhabited

/-- Everything there is, with a memory of the hooks. -/
structure Workspace (σ : Type) where
  store : Store := {}
  memory : σ
  options : Array (Options σ) := #[]
  ledger : Array Stats := #[]
  transformers : Array Transformer := #[]
  processors : Array Processor := #[]
  logger : Logger := {}

/-- A computation over a workspace. -/
abbrev Session (σ : Type) := EStateM Halt (Workspace σ)

namespace Session

variable {σ α : Type}

/-! ## Running computations of other kinds -/

/-- Stops with a fault. -/
def raise (fault : Fault) : Session σ α :=
  throw (.raised fault)

/-- The value, or the fault that there is none. -/
def ofExcept : Except Fault α → Session σ α
  | .ok a => return a
  | .error fault => raise fault

/-- Changes the store and answers something about the change. -/
def onStore (f : Store → α × Store) : Session σ α :=
  modifyGet fun w =>
    match f w.store with
    | (a, store) => (a, { w with store })

/-- Runs an effect of a hook. -/
def ofEffect (x : Effect σ α) : Session σ α := fun w =>
  match x ⟨w.store, w.memory⟩ with
  | .ok a v => .ok a { w with store := v.store, memory := v.memory }
  | .error fault v => .error (.raised fault) { w with store := v.store, memory := v.memory }

/-! ## The log -/

/-- The verbosity in force, if a state that has one is connected, as `LOG` asks for it. -/
def verbosity (w : Workspace σ) : Option Int :=
  match w.logger.connected with
  | .processor p => w.processors[p.index]?.map (·.verbosity)
  | .silent => none
  | .absent => none

/-- Whether messages of a level are written now. -/
def allows (w : Workspace σ) (level : Int) : Bool :=
  (verbosity w).any fun v => level ≤ v

/-- The workspace after a notice. -/
def noted (w : Workspace σ) (n : Notice) : Workspace σ :=
  if allows w n.level then { w with logger := w.logger.write n.text } else w

/-- Reports something: a call of `LOG` by the library itself. -/
def emit (n : Notice) : Session σ Unit :=
  modify (noted · n)

/-- Makes something, reporting what is made. -/
def ofMaking (x : Making α) : Session σ α := fun w =>
  match x #[] with
  | .ok a notices => .ok a (notices.foldl noted w)
  | .error fault notices => .error (.raised fault) (notices.foldl noted w)

/-- The number that a level is; a truth value counts as zero or one. -/
def levelOf : Datum → Except Fault Int
  | .int n => .ok n
  | .bool b => .ok (if b then 1 else 0)
  | d => .error (.levelNotNumber d.kind)

/-- The arguments that a message is logged with by position, level and values apart. -/
def placedArguments (level : Option Datum) : List String :=
  if level.isSome then ["level", "message"] else ["message"]

/-- Writes a message, filling the values in if there are any (`LOG`). A message that is not written
is not filled either. The level is one unless it is given, in its place or among the values; it is
looked at only when there is a verbosity to compare it with. -/
def log (message : String) (level : Option Datum) (values : List (String × Datum)) :
    Session σ Unit := do
  ofExcept (Operation.log.check (placedArguments level) (values.map (·.1)))
  if (verbosity (← get)).isSome then
    let level ← ofExcept (levelOf ((level <|> values.lookup "level").getD (.int 1)))
    if allows (← get) level then
      match values.filter (·.1 ≠ "level") with
      | [] => emit (.custom message level)
      | values =>
        match Template.fill values message with
        | .ok text => emit (.custom text level)
        | .error problem => raise (.template problem)

/-- Connects a run state to the log. -/
def connect (state : RunState) : Session σ TokenId :=
  modifyGet fun w =>
    match w.logger.connect state with
    | (t, logger) => (t, { w with logger })

/-- Puts back the run state from before a token was issued. -/
def disconnect (t : TokenId) : Session σ Unit := do
  let logger ← ofExcept ((← get).logger.disconnect t)
  modify ({ · with logger })

/-- Adds an error stream to the log. -/
def attach (level : Except Fault SinkLevel) : Session σ Unit := do
  let logger ← ofExcept ((← get).logger.attach level)
  modify ({ · with logger })

theorem noted_of_not_allows {w : Workspace σ} {n : Notice} (h : allows w n.level = false) :
    noted w n = w := by
  simp [noted, h]

/-! ## Options -/

/-- The options of an identity. -/
def options (w : Workspace σ) (o : OptionsId) : Options σ :=
  w.options.getD o.index default

/-- Puts new options into the workspace. -/
def addOptions (o : Options σ) : Session σ OptionsId :=
  modifyGet fun w => (⟨w.options.size⟩, { w with options := w.options.push o })

/-- Changes options in place. -/
def setOptions (o : OptionsId) (value : Options σ) : Session σ Unit :=
  modify fun w => { w with options := w.options.setIfInBounds o.index value }

end Session

end DirectiveLowering
