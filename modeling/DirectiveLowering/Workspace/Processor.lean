import DirectiveLowering.Document.Edit
import DirectiveLowering.Workspace.Transformer

/-!
# Processors

A processor applies its stages to a tree, one after the other. A stage that answers a tree puts it in
the place of the one it was given. While a processor runs it is connected to the log; when it has come
to an end, in whatever way, the state from before is connected again.

Results:
* `pipeline_cons`: a pipeline, stage by stage.
-/

namespace DirectiveLowering

namespace Session

variable {σ α : Type}

/-! ## Pipelines -/

/-- Applies stages to a tree in order (`pipeline`, with `stage_apply` for each of them). -/
def pipeline : List (NodeId → Session σ (Option NodeId)) → NodeId → Session σ NodeId
  | [], tree => return tree
  | stage :: rest, tree => do
    pipeline rest ((← stage tree).getD tree)

theorem pipeline_cons (stage : NodeId → Session σ (Option NodeId))
    (rest : List (NodeId → Session σ (Option NodeId))) (tree : NodeId) :
    pipeline (stage :: rest) tree = stage tree >>= fun next => pipeline rest (next.getD tree) := rfl

/-! ## Connections -/

/-- Runs a computation while a run state is connected, and puts back the state from before however it
ends, as `Processor.run` does. -/
def connected (state : RunState) (x : Session σ α) : Session σ α := do
  let t ← connect state
  fun w =>
    match x w with
    | .ok a w =>
      match disconnect t w with
      | .ok () w => .ok a w
      | .error halt w => .error halt w
    | .error halt w =>
      match disconnect t w with
      | .ok () w => .error halt w
      | .error halt w => .error halt w

/-! ## Running -/

/-- Puts a new processor into the workspace. -/
def addProcessor (verbosity : Int) : Session σ ProcessorId :=
  modifyGet fun w => (⟨w.processors.size⟩, { w with processors := w.processors.push { verbosity } })

/-- Changes a processor in place. -/
def changeProcessor (p : ProcessorId) (f : Processor → Processor) : Session σ Unit :=
  modify fun w => { w with processors := w.processors.modify p.index f }

/-- The stages of a processor. -/
def stages (w : Workspace σ) (p : ProcessorId) : List Stage :=
  (w.processors.getD p.index default).stages.toList

/-- Applies stages to a tree under the connection of a processor (`Processor.run`). -/
def runStages (p : ProcessorId) (stages : List (NodeId → Session σ (Option NodeId)))
    (tree : NodeId) : Session σ NodeId :=
  connected (.processor p) do
    emit (.running stages.length)
    pipeline stages tree

end Session

/-- Applies a stage to a tree, with a budget for walks. -/
def Stage.apply {σ : Type} (budget : Nat) (tree : NodeId) : Stage → Session σ (Option NodeId)
  | transform t => do
    let _ ← Session.transform budget t tree
    return none
  | log message level => do
    Session.emit (.custom message level)
    return none
  | fail failure => Session.raise failure.fault
  | replace other => return some other
  | wrap type => do
    let root ← Session.onStore fun s => s.addTree { type } [tree]
    return some root
  | child index => do
    let s := (← get).store
    let n ← Session.ofExcept (elementAt (s.children tree) index)
    return some n
  | rename name => do
    modify fun w =>
      { w with store := w.store.setNode tree { w.store.node tree with name := name } }
    return none

/-- Applies the stages of a processor to a tree, with a budget for walks. -/
def Session.process {σ : Type} (budget : Nat) (p : ProcessorId) (tree : NodeId) :
    Session σ NodeId := do
  runStages p ((stages (← get) p).map fun stage tree => stage.apply budget tree) tree

end DirectiveLowering
