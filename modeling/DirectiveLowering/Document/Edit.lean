import DirectiveLowering.Document.Outline

/-!
# Edits

Changes to a node and to the list of its children. An index counts from the front or, if it is
negative, from the end, and has to fit into 64 bits. A child is inserted before the child at an
index, at the nearest end if there is none; a child can only be removed where there is one. Edits are
what a visitor of `tree_visit` may do to the tree that is being walked.

Results:
* `removeAt_eq_error_iff`: when nothing can be removed.
-/

namespace DirectiveLowering

/-! ## Positions -/

/-- Whether a number can be an index. -/
def isIndex (index : Int) : Bool :=
  -Int.pow 2 63 ≤ index && index < Int.pow 2 63

/-- The position that an index stands for in a list of a length. -/
def resolveIndex (length : Nat) (index : Int) : Option Nat :=
  let i := if index < 0 then index + length else index
  if 0 ≤ i ∧ i < length then some i.toNat else none

/-- The position that an index stands for when something is inserted into a list of a length. -/
def clampIndex (length : Nat) (index : Int) : Nat :=
  let i := if index < 0 then index + length else index
  min i.toNat length

/-- The list with an element inserted at an index. -/
def insertAt {α : Type} (s : List α) (index : Int) (a : α) : Except Fault (List α) :=
  if isIndex index then .ok (s.insertIdx (clampIndex s.length index) a)
  else .error .insertionTooLarge

/-- The list without the element at an index. -/
def removeAt {α : Type} (s : List α) (index : Int) : Except Fault (List α) :=
  if isIndex index then
    match resolveIndex s.length index with
    | some i => .ok (s.eraseIdx i)
    | none => .error .removalOutOfRange
  else .error .indexTooLarge

/-- The element at an index. -/
def elementAt {α : Type} (s : List α) (index : Int) : Except Fault α :=
  if isIndex index then
    match (resolveIndex s.length index).bind (s[·]?) with
    | some a => .ok a
    | none => .error .indexOutOfRange
  else .error .indexTooLarge

theorem removeAt_eq_error_iff {α : Type} {s : List α} {index : Int} {fault : Fault} :
    removeAt s index = .error fault ↔
      fault = .indexTooLarge ∧ isIndex index = false ∨
        fault = .removalOutOfRange ∧ isIndex index = true ∧
          resolveIndex s.length index = none := by
  unfold removeAt
  cases isIndex index <;> cases resolveIndex s.length index <;> simp [eq_comm]

/-! ## Edits of a node -/

/-- A change to a node. -/
inductive Edit
  /-- A child is added at the end, in place. -/
  | append (child : Outline)
  /-- A child is inserted at an index, in place. -/
  | insert (index : Int) (child : Outline)
  /-- The child at an index is removed, in place. -/
  | remove (index : Int)
  /-- All children are removed, in place. -/
  | clear
  /-- The node gets another list of children. -/
  | assign (children : List Outline)
  | setType (type : String)
  | setName (name : Option String)
  | setValue (value : Option String)
  /-- The node is overwritten with another one, value and position excepted. -/
  | overwrite (source : Outline)

namespace Edit

/-- Changes the list that holds the children of a node. -/
def changeChildren (target : NodeId) (f : List NodeId → Except Fault (List NodeId)) :
    Effect Handles Unit := do
  let l := (← Effect.readNode target).children
  let items ← Effect.ofExcept (f (← Effect.readList l))
  Effect.changeStore (Store.setList · l items)

/-- Carries out an edit of a node. -/
def apply (target : NodeId) : Edit → Effect Handles Unit
  | append child => do
    let n ← child.build
    changeChildren target fun s => .ok (s ++ [n])
  | insert index child => do
    let n ← child.build
    changeChildren target (insertAt · index n)
  | remove index => changeChildren target (removeAt · index)
  | clear => changeChildren target fun _ => .ok []
  | assign children => do
    let items ← Outline.buildAll children
    let l ← Effect.onStore (Store.addList · items)
    Effect.changeNode target fun n => { n with children := l }
  | setType type => Effect.changeNode target fun n => { n with type := type }
  | setName name => Effect.changeNode target fun n => { n with name := name }
  | setValue value => Effect.changeNode target fun n => { n with value := value }
  | overwrite source => do
    let source ← Effect.readNode (← source.build)
    Effect.changeNode target fun n => n.overwrite source

/-- What an edit needs of the node that it changes. -/
def part : Edit → String
  | append _ | insert _ _ | remove _ | clear | assign _ => "children"
  | setType _ => "type"
  | setName _ => "name"
  | setValue _ => "value"
  | overwrite _ => "contents_replace"

/-- Fails for want of a node to edit. A new list of children is built all the same; any other edit
turns to its node first. -/
def applyToNothing : Edit → Effect Handles Unit
  | assign children => do
    let _ ← Outline.buildAll children
    throw (.noParent (assign children).part)
  | edit => throw (.noParent edit.part)

end Edit

/-- An edit of a node or of its parent. -/
structure Amendment where
  onParent : Bool
  edit : Edit

/-- Carries out an amendment at a node below a parent. -/
def Amendment.apply (n : NodeId) (parent : Option NodeId) (a : Amendment) : Effect Handles Unit :=
  match a.onParent, parent with
  | false, _ => a.edit.apply n
  | true, some parent => a.edit.apply parent
  | true, none => a.edit.applyToNothing

end DirectiveLowering
