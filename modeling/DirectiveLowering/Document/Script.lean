import DirectiveLowering.Document.Edit
import DirectiveLowering.Document.Walk

/-!
# Scripted visitors

A script says what a visitor does at the nodes it meets: at a node with a caption it amends the
document, perhaps fails, and decides how the walk goes on. A rule serves a limited number of times. Every
call of the visitor is recorded, as it finds the node.
-/

namespace DirectiveLowering

namespace Script

/-- What a visitor does at the nodes of a caption. -/
structure Rule where
  /-- Caption of the nodes it applies to. -/
  caption : String
  /-- How often it may still be applied. -/
  times : Int := 1
  amendments : List Amendment := []
  /-- Text of the failure it ends in, if any. -/
  failure : Option String := none
  action : Action := .proceed

/-- A call of a visitor: captions of the node and its parent, and the position. -/
structure Call where
  node : String
  index : Option Nat
  parent : Option String
deriving DecidableEq, Repr

/-- Rules still to be applied, and calls so far. -/
structure Progress where
  rules : List Rule
  calls : Array Call := #[]

/-- The first rule for a caption that may still be applied, and the rules with that use counted. -/
def takeRule (caption : String) : List Rule → Option (Rule × List Rule)
  | [] => none
  | rule :: rest =>
    if rule.caption = caption ∧ 0 < rule.times then
      some (rule, { rule with times := rule.times - 1 } :: rest)
    else (takeRule caption rest).map fun (found, rest) => (found, rule :: rest)

/-- Applies a rule at a node below a parent. -/
def Rule.apply (n : NodeId) (parent : Option NodeId) (rule : Rule) : Effect Handles Action := do
  rule.amendments.forM (Amendment.apply n parent)
  match rule.failure with
  | some text => throw (.raised .runtime text)
  | none => return rule.action

/-- The visitor that follows the rules. -/
def visitor : Visitor (Handles × Progress) := fun n index parent => do
  let s ← Effect.readStore
  let caption := (s.node n).caption
  let call := ⟨caption, index, parent.map fun p => (s.node p).caption⟩
  Effect.changeMemory fun (handles, p) => (handles, { p with calls := p.calls.push call })
  match takeRule caption (← get).memory.2.rules with
  | none => return .proceed
  | some (rule, rules) =>
    Effect.changeMemory fun (handles, p) => (handles, { p with rules := rules })
    Effect.onFirst (rule.apply n parent)

end Script

end DirectiveLowering
