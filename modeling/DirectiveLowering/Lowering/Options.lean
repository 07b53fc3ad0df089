import DirectiveLowering.Document.Label

/-!
# Options of a lowering

A lowering leaves four decisions to hooks: which directives to take, what becomes of a label, and the
names of elements and attributes. A hook sees the documents and a memory of the hooks' own; it may
change both, and it may fail. It sees neither the statistics nor the log.

By default every directive is taken that no other pass has lowered, labels are dropped and names stay.
-/

namespace DirectiveLowering

/-- Decides whether to take a directive (`FilterHook`). -/
abbrev FilterHook (σ : Type) := NodeId → Effect σ Bool

/-- Receives the element made of a container directive, and the list of children of its label
(`LabelHook`). -/
abbrev LabelHook (σ : Type) := NodeId → ListId → Effect σ Unit

/-- Gives the element name for a directive name (`TagHook`). -/
abbrev TagHook (σ : Type) := Option String → Effect σ (Option String)

/-- Gives the output name for an attribute name, at an element of a name (`AttributeHook`). -/
abbrev AttributeHook (σ : Type) := Option String → String → Effect σ (Option String)

variable {σ : Type}

/-- Takes every directive (`filter_acceptAll`). -/
def takeAll : FilterHook σ := fun _ => return true

/-- Drops the label (`label_discard`). -/
def discardLabel : LabelHook σ := fun _ _ => return ()

/-- Appends the label as a fragment in the slot `label` (`label_appendAsSlot`). -/
def slotLabel : LabelHook σ := fun element content =>
  Effect.changeStore (Store.appendSlot element content)

/-- Keeps the name of a directive (`tag_identity`). -/
def keepTag : TagHook σ := fun tag => return tag

/-- Keeps the name of an attribute (`attribute_identity`). -/
def keepAttribute : AttributeHook σ := fun _ name => return some name

/-- The choices that a lowering is made with (`Options`). -/
structure Options (σ : Type) where
  /-- Whether directives that another pass has lowered are left alone: any value, by its truth. -/
  skipTransformed : Datum := .bool true
  filter : FilterHook σ := takeAll
  handleLabel : LabelHook σ := discardLabel
  transformTag : TagHook σ := keepTag
  transformAttribute : AttributeHook σ := keepAttribute

instance : Inhabited (Options σ) := ⟨{}⟩

end DirectiveLowering
