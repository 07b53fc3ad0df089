import DirectiveLowering.Document.Walk
import DirectiveLowering.Lowering.Notice
import DirectiveLowering.Lowering.Options

/-!
# A lowering pass

A pass walks a document and lowers its directives to elements, in place. A directive that another
pass has lowered may be left alone, and so is one that the filter rejects; any other is overwritten
with the element made of it, so that its parents hold the element from then on. The walk goes on with
the children of the element, so a directive inside a directive is lowered in the same pass.

A failing hook ends the pass; what it has done up to there remains.

Results:
* `count_apply`, `note_apply`: keeping the books touches neither documents nor the memory of hooks.
-/

namespace DirectiveLowering

/-- What a pass keeps account of. -/
structure Books where
  stats : Stats := {}
  notices : Array Notice := #[]

/-- A computation of a pass, over the memory of the hooks and the books. -/
abbrev PassEffect (σ : Type) := Effect (σ × Books)

namespace Pass

variable {σ : Type}

/-! ## Keeping the books -/

/-- Changes the statistics. -/
def count (f : Stats → Stats) : PassEffect σ Unit :=
  Effect.changeMemory fun (hooks, books) => (hooks, { books with stats := f books.stats })

/-- Reports something. -/
def note (n : Notice) : PassEffect σ Unit :=
  Effect.changeMemory fun (hooks, books) => (hooks, { books with notices := books.notices.push n })

/-- Statistics so far. -/
def readStats : PassEffect σ Stats := do
  return (← get).memory.2.stats

@[simp] theorem count_apply (f : Stats → Stats) (s : Store) (hooks : σ) (books : Books) :
    count f ⟨s, hooks, books⟩ = .ok () ⟨s, hooks, { books with stats := f books.stats }⟩ := rfl

@[simp] theorem note_apply (n : Notice) (s : Store) (hooks : σ) (books : Books) :
    note n ⟨s, hooks, books⟩ =
      .ok () ⟨s, hooks, { books with notices := books.notices.push n }⟩ := rfl

/-! ## Lowering a directive -/

/-- Makes the element for a directive of a kind (`containerDirective_transform`,
`leafDirective_transform`, `textDirective_transform`). The element takes over the list of children of the
directive, except that the label of a container is taken out and handed to the label hook. -/
def buildElement (o : Options σ) (kind : DirectiveKind) (n : NodeId) : PassEffect σ NodeId := do
  let tag ← Effect.onFirst (o.transformTag (← Effect.readNode n).name)
  let rename := fun name => Effect.onFirst (o.transformAttribute tag name)
  match kind with
  | .container =>
    let (children, label) ← Effect.onStore (Store.extractLabel (← Effect.readNode n).children)
    let attributes ← buildAttributes rename (← Effect.readNode n).attributes
    let element ← Effect.onStore (Store.addElement · kind.elementType tag attributes children)
    match label with
    | none => return element
    | some label =>
      count Stats.label
      Effect.onFirst (o.handleLabel element (← Effect.readNode label).children)
      return element
  | .leaf | .text =>
    let attributes ← buildAttributes rename (← Effect.readNode n).attributes
    let children := (← Effect.readNode n).children
    Effect.onStore (Store.addElement · kind.elementType tag attributes children)

/-- Overwrites a directive with the element made of it, by the type that the node has now
(`node_transform`, with the look-up in `handlers`). -/
def lower (o : Options σ) (n : NodeId) : PassEffect σ Unit := do
  let type := (← Effect.readNode n).type
  match DirectiveKind.ofType? type with
  | none => throw (.missingKey type)
  | some kind =>
    let element ← Effect.readNode (← buildElement o kind n)
    let directive ← Effect.readNode n
    note (.lowered directive.type directive.name element.type element.name)
    Effect.changeNode n (·.overwrite element)
    count Stats.transform

/-- Deals with a directive: leaves it alone, rejects it or lowers it (`node_visit`). -/
def visit (o : Options σ) (n : NodeId) : PassEffect σ Unit := do
  count Stats.visit
  let node ← Effect.readNode n
  match o.skipTransformed.truthy, node.loweredName? with
  | true, some hName =>
    note (.skipped node.name hName)
    count Stats.skip
  | _, _ =>
    if ← Effect.onFirst (o.filter n) then
      lower o n
    else
      note (.rejected (← Effect.readNode n).name)
      count Stats.reject

/-- Deals with a directive and goes on with its children: `node_visit` as a visitor, which answers
nothing. -/
def visitor (o : Options σ) : Visitor (σ × Books) := fun n _ _ => do
  visit o n
  return .proceed

/-- A pass over the document below a root: the body of `tree_transform`. -/
def run (o : Options σ) (budget : Nat) (root : NodeId) : Run (σ × Books) Unit := do
  (note .started).toRun
  Walk.run (.oneOf directiveTypes) (visitor o) budget root
  (do note (.finished (← readStats))).toRun

end Pass

end DirectiveLowering
