import DirectiveLowering.Lowering.Making

/-!
# Ready-made hooks

A policy describes a hook by data, so that a document can be lowered with hooks that a script names.
Hooks made of policies other than the defaults record each of their calls in a trace, in the order in
which they are made. Policies are callers of the library and no part of `directive_mdx`.
-/

namespace DirectiveLowering

/-! ## Traces -/

/-- A call of a hook. -/
inductive HookCall
  /-- The filter was asked about a directive of a type and name. -/
  | filter (type : String) (name : Option String)
  /-- The label hook received an element of a type and name, and content with these captions. -/
  | label (type : String) (name : Option String) (content : List String)
  /-- The tag hook was given a directive name. -/
  | tag (name : Option String)
  /-- The attribute hook was given an element name and an attribute name. -/
  | attributeName (tag : Option String) (name : String)
deriving DecidableEq, Repr

/-- Calls of hooks, in order. -/
abbrev Trace := Array HookCall

/-- Records a call before it is carried out. -/
def recorded {α : Type} (call : HookCall) (x : Effect Trace α) : Effect Trace α := do
  Effect.changeMemory (·.push call)
  x

/-! ## Failures -/

/-- What a failing hook or stage raises. -/
structure Failure where
  kind : FailureClass := .runtime
  text : String := "hook failed"
deriving DecidableEq, Repr

/-- The fault of a failure. -/
def Failure.fault (f : Failure) : Fault :=
  .raised f.kind f.text

/-! ## Filters -/

/-- Which directives to take. -/
inductive FilterPolicy
  /-- Every one. -/
  | all
  /-- Those of these names. -/
  | names (listed : List (Option String))
  /-- Those of other names. -/
  | notNames (listed : List (Option String))
  /-- Those of these types. -/
  | types (listed : List String)
  /-- Every one or none, by the truth of a value. -/
  | const (value : Datum)
  /-- Every one, failing at those of a name. -/
  | failOn (name : Option String) (failure : Failure)
  /-- Every one, changing the type of those of a name. -/
  | retype (name : Option String) (type : String)

/-- The decision of a filter other than the default. -/
def FilterPolicy.decide (n : NodeId) (node : Fields) : FilterPolicy → Effect Trace Bool
  | all => return true
  | names listed => return listed.contains node.name
  | notNames listed => return !listed.contains node.name
  | types listed => return listed.contains node.type
  | const value => return value.truthy
  | failOn name failure => if node.name = name then throw failure.fault else return true
  | retype name type => do
    if node.name = name then
      Effect.changeNode n fun m => { m with type := type }
    return true

/-- The hook of a filter policy. -/
def FilterPolicy.hook : FilterPolicy → FilterHook Trace
  | all => takeAll
  | policy => fun n => do
    let node ← Effect.readNode n
    recorded (.filter node.type node.name) (policy.decide n node.toFields)

/-! ## Labels -/

/-- What becomes of a label. -/
inductive LabelPolicy
  /-- It is dropped. -/
  | discard
  /-- It becomes a fragment in the slot `label`. -/
  | slot
  /-- Its content goes to the front of the element's children. -/
  | prepend
  /-- The text of its content becomes an attribute. -/
  | asAttribute (name : String)
  /-- Its content is emptied in place. -/
  | clear
  /-- It becomes two fragments that hold one list. -/
  | slotTwice
  /-- The element gets another name. -/
  | rename (name : Option String)
  /-- The element gets another type. -/
  | retype (type : String)
  /-- Elements of a name fail. -/
  | failOn (name : Option String) (failure : Failure)

/-- The node with one more attribute record, if it carries records. -/
def Node.addAttribute (n : Node) (added : JsxAttribute) : Except Fault Node :=
  match n.attributes with
  | some (.records records) => .ok { n with attributes := some (.records (records ++ [added])) }
  | some (.mapping _) => .error (.attributesNotRecords true)
  | none => .error (.attributesNotRecords false)

/-- What a label policy other than the defaults does. -/
def LabelPolicy.carryOut (element : NodeId) (content : ListId) : LabelPolicy → Effect Trace Unit
  | discard => return ()
  | slot => slotLabel element content
  | prepend => do
    let children := (← Effect.readNode element).children
    Effect.changeStore fun s => s.setList children (s.list content ++ s.list children)
  | asAttribute name => do
    let s ← Effect.readStore
    let value := String.join ((s.list content).map fun n => (s.node n).value.getD "")
    let node ← Effect.ofExcept ((s.node element).addAttribute ⟨some name, some value⟩)
    Effect.changeNode element fun _ => node
  | clear => Effect.changeStore fun s => s.setList content []
  | slotTwice => do
    slotLabel element content
    slotLabel element content
  | rename name => Effect.changeNode element fun n => { n with name := name }
  | retype type => Effect.changeNode element fun n => { n with type := type }
  | failOn name failure => do
    if (← Effect.readNode element).name = name then throw failure.fault

/-- The hook of a label policy. -/
def LabelPolicy.hook : LabelPolicy → LabelHook Trace
  | discard => discardLabel
  | slot => slotLabel
  | policy => fun element content => do
    let s ← Effect.readStore
    let node := s.node element
    let captions := (s.list content).map fun n => (s.node n).caption
    recorded (.label node.type node.name captions) (policy.carryOut element content)

/-! ## Names of elements -/

/-- Which element name a directive name gives. -/
inductive TagPolicy
  /-- The same. -/
  | keep
  /-- The normalized one, by the name of a casing. -/
  | normalize (casing : Datum)
  /-- The name in a casing, by the name of the casing. -/
  | cased (casing : Datum)
  /-- The name behind a text. -/
  | prefixed (text : String)
  /-- The last partner of the name in a table, or the same. -/
  | mapped (table : List (Option String × Option String))
  /-- The same, failing at a name. -/
  | failOn (name : Option String) (failure : Failure)

/-- The hook of a tag policy. -/
def TagPolicy.hook : TagPolicy → Making (TagHook Trace)
  | keep => return keepTag
  | normalize casing => do
    let normalizer ← Making.tagNormalizer casing
    return fun tag => recorded (.tag tag) (Effect.ofExcept (normalizer tag))
  | cased casing => do
    let casing ← Making.casing casing
    return fun tag => recorded (.tag tag) (Effect.ofExcept (casing.tryApply tag))
  | prefixed text => return fun tag => recorded (.tag tag) <|
    match tag with
    | some name => return some (text ++ name)
    | none => throw .joinWithNull
  | mapped table => return fun tag => recorded (.tag tag) do
    return (table.reverse.lookup tag).getD tag
  | failOn name failure => return fun tag => recorded (.tag tag) do
    if tag = name then throw failure.fault else return tag

/-! ## Names of attributes -/

/-- Which output name an attribute name gives. -/
inductive AttributePolicy
  /-- The same. -/
  | keep
  /-- The normalized one, by the name of a casing. -/
  | normalize (casing renameClass : Datum)
  /-- The name behind the element name and a text. -/
  | tagged (separator : String)
  /-- A name of its own. -/
  | const (name : Option String)
  /-- The same, failing at a name. -/
  | failOn (name : Option String) (failure : Failure)

/-- The hook of an attribute policy. -/
def AttributePolicy.hook : AttributePolicy → Making (AttributeHook Trace)
  | keep => return keepAttribute
  | normalize casing renameClass => do
    let normalizer ← Making.attributeNormalizer casing renameClass
    return fun tag name => recorded (.attributeName tag name) (Effect.ofExcept (normalizer (some name)))
  | tagged separator => return fun tag name => recorded (.attributeName tag name) do
    return some (shownName tag ++ separator ++ name)
  | const value => return fun tag name => recorded (.attributeName tag name) do
    return value
  | failOn failing failure => return fun tag name => recorded (.attributeName tag name) do
    if some name = failing then throw failure.fault else return some name

end DirectiveLowering
