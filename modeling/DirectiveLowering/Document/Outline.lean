import DirectiveLowering.Document.World

/-!
# Outlines

A document written down as nested descriptions of nodes. A description may give its node a handle, and
may stand for a node that has a handle already, so that a node can have several parents. Each new node
is one call of `node_make`.
-/

namespace DirectiveLowering

/-- Nodes by handle, the latest first. -/
abbrev Handles := List (String × NodeId)

/-- A description of a node and what is below it. -/
inductive Outline
  /-- A new node. -/
  | node (handle : Option String) (fields : Fields) (children : List Outline)
  /-- The node that has the handle. -/
  | reference (handle : String)
  /-- A description that is faulty. -/
  | faulty (fault : Fault)
deriving Inhabited

namespace Outline

/-- The node of a handle. -/
def find (handle : String) : Effect Handles NodeId := do
  match (← get).memory.lookup handle with
  | some n => return n
  | none => throw (.missingKey handle)

/-- Gives a node a handle. -/
def name (handle : Option String) (n : NodeId) : Effect Handles Unit :=
  match handle with
  | some handle => Effect.changeMemory ((handle, n) :: ·)
  | none => return ()

mutual

/-- Puts the described nodes into the store, a node and its handle before its children. -/
def build : Outline → Effect Handles NodeId
  | node handle fields children => do
    let n ← Effect.onStore (Store.addTree · fields [])
    name handle n
    buildUnder n children
    return n
  | reference handle => find handle
  | faulty fault => throw fault

/-- Puts the nodes of several descriptions into the store, each becoming the last child of a node as
soon as it is complete. -/
def buildUnder (parent : NodeId) : List Outline → Effect Handles Unit
  | [] => return ()
  | o :: rest => do
    let n ← build o
    Effect.changeStore fun s => s.append (s.node parent).children n
    buildUnder parent rest

end

/-- Puts the nodes of several descriptions into the store, in order. -/
def buildAll : List Outline → Effect Handles (List NodeId)
  | [] => return []
  | o :: rest => do
    let n ← build o
    let others ← buildAll rest
    return n :: others

end Outline

end DirectiveLowering
