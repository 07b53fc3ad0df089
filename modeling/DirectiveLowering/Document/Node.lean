import DirectiveLowering.Datum

/-!
# Nodes

A document is made of nodes with identity. A node has seven fields: its type, name, attributes,
literal value, metadata, position, and the list of its children, which has an identity of its own so
that several nodes may hold the same list.

Directives carry an attribute mapping, elements a list of attribute records; nothing but the type
tells the two apart. The record types `Node`, `NodeData` and `JsxAttribute` and the enumeration
`NodeType` are those of the document model of `directive_mdx`.

Results:
* `DirectiveKind.ofType?_type`: a kind is found under its own type.
* `DirectiveKind.isSome_ofType?`: the directive types are those that have a kind.
-/

namespace DirectiveLowering

/-! ## Identities -/

/-- Identity of a node. -/
structure NodeId where
  index : Nat
deriving DecidableEq, Repr, Inhabited

/-- Identity of a list of children. -/
structure ListId where
  index : Nat
deriving DecidableEq, Repr, Inhabited

/-! ## Fields -/

/-- An attribute of an element (`JsxAttribute`); one without a value is written bare. -/
structure JsxAttribute where
  name : Option String
  value : Option String
deriving DecidableEq, Repr

/-- Attributes of a node (`Node.attributes`). -/
inductive Attributes
  /-- Names, which are distinct, with their values: the form that directives carry. -/
  | mapping (entries : List (String × Option String))
  /-- Records: the form that elements carry. -/
  | records (attributes : List JsxAttribute)
deriving DecidableEq, Repr

/-- Metadata shared between passes (`NodeData`). -/
structure NodeData where
  /-- Element name set by a pass that already lowered the directive. -/
  hName : Option String := none
  /-- Marks a child of a container directive as its label. -/
  directiveLabel : Bool := false
  /-- Marks an element that was authored, not inferred. -/
  explicitJsx : Bool := false
  /-- Metadata owned by other passes. -/
  extra : Datum := .object []

/-- The fields of a node other than its children. -/
structure Fields where
  type : String
  name : Option String := none
  attributes : Option Attributes := none
  value : Option String := none
  data : Option NodeData := none
  position : Option Datum := none

/-- A node (`Node`): its fields and the identity of the list of its children. -/
structure Node extends Fields where
  children : ListId

instance : Inhabited Fields := ⟨{ type := "" }⟩

instance : Inhabited Node := ⟨{ type := "", children := ⟨0⟩ }⟩

/-! ## Types -/

namespace NodeType

/-- Type of a block-level element. -/
def flowElement : String := "mdxJsxFlowElement"

/-- Type of an inline element. -/
def textElement : String := "mdxJsxTextElement"

/-- Type of an attribute record. -/
def jsxAttribute : String := "mdxJsxAttribute"

/-- Type of a container directive, `:::name[label]{…}`. -/
def containerDirective : String := "containerDirective"

/-- Type of a leaf directive, `::name{…}`. -/
def leafDirective : String := "leafDirective"

/-- Type of a text directive, `:name[…]{…}`. -/
def textDirective : String := "textDirective"

/-- The types that have a meaning of their own (`NodeType`). Every other text is a type as well; nodes
of such a type are walked and never lowered. -/
def known : List String :=
  ["root", "paragraph", "text", containerDirective, leafDirective, textDirective, flowElement,
    textElement, jsxAttribute]

end NodeType

/-- The three kinds of directives. -/
inductive DirectiveKind
  | container
  | leaf
  | text
deriving DecidableEq, Repr

namespace DirectiveKind

/-- Node type of a kind of directive. -/
def type : DirectiveKind → String
  | container => NodeType.containerDirective
  | leaf => NodeType.leafDirective
  | text => NodeType.textDirective

/-- The kind of directive that a node type stands for. -/
def ofType? (s : String) : Option DirectiveKind :=
  [container, leaf, text].find? (·.type == s)

/-- Type of the element that a directive of this kind is lowered to. -/
def elementType : DirectiveKind → String
  | container => NodeType.flowElement
  | leaf => NodeType.flowElement
  | text => NodeType.textElement

theorem ofType?_type (kind : DirectiveKind) : ofType? kind.type = some kind := by
  cases kind <;> rfl

end DirectiveKind

/-- The types of directives (`DIRECTIVE_TYPES`), in alphabetical order. -/
def directiveTypes : List String :=
  [NodeType.containerDirective, NodeType.leafDirective, NodeType.textDirective]

theorem DirectiveKind.isSome_ofType? {s : String} :
    (ofType? s).isSome = true ↔ s ∈ directiveTypes := by
  simp only [ofType?, List.find?_isSome, directiveTypes, beq_iff_eq]
  simp [type, eq_comm]

/-! ## Questions about a node -/

namespace Fields

/-- Whether the node is a directive (`directive_is`). -/
def isDirective (n : Fields) : Bool :=
  directiveTypes.contains n.type

theorem exists_kind {n : Fields} (h : n.isDirective = true) :
    ∃ kind, DirectiveKind.ofType? n.type = some kind := by
  rw [← Option.isSome_iff_exists, DirectiveKind.isSome_ofType?]
  simpa [isDirective] using h

/-- The element name that another pass set, if one did. -/
def loweredName? (n : Fields) : Option String :=
  n.data.bind (·.hName)

/-- Whether another pass already lowered the node (`lowered_is`). -/
def isLowered (n : Fields) : Bool :=
  n.loweredName?.isSome

/-- Whether the node is marked as a label (`label_isMarked`), whatever its type. -/
def isLabel (n : Fields) : Bool :=
  n.data.any (·.directiveLabel)

/-- A short text by which a reader recognises the node: the first of its name, value and type that
is there and not empty, and otherwise its type. -/
def caption (n : Fields) : String :=
  ([n.name, n.value].filterMap id |>.find? (· ≠ "")).getD n.type

end Fields

/-- The fields and children of a node replaced by those of another, its value and position kept
(`contents_replace`). -/
def Node.overwrite (n source : Node) : Node :=
  { source with value := n.value, position := n.position }

/-- Fields of a new element of a type, which is marked as authored: what `flowElement_make` and
`textElement_make` have in common. -/
def elementFields (type : String) (name : Option String) (attributes : List JsxAttribute) :
    Fields where
  type := type
  name := name
  attributes := some (.records attributes)
  data := some { explicitJsx := true }

end DirectiveLowering
