import DirectiveLowering.Document.World

/-!
# Elements

Elements are built from a name, attribute records and a list of children, which they take over as it
is. The records of an element come from the attribute mapping of a directive, entry by entry.

Results:
* `attributeEntries_eq_error_iff`: only attribute records that are there are refused.
-/

namespace DirectiveLowering

/-- The entries of a directive's attributes, as `attributes_build` goes through them. Missing attributes
have none; attribute records are no mapping, unless there are none of them. -/
def attributeEntries : Option Attributes → Except Fault (List (String × Option String))
  | none => .ok []
  | some (.mapping entries) => .ok entries
  | some (.records []) => .ok []
  | some (.records (_ :: _)) => .error .attributesNotMapping

theorem attributeEntries_eq_error_iff {attributes : Option Attributes} {fault : Fault} :
    attributeEntries attributes = .error fault ↔
      fault = .attributesNotMapping ∧ ∃ a rest, attributes = some (.records (a :: rest)) := by
  unfold attributeEntries
  split <;> simp [eq_comm]

variable {μ : Type}

/-- One record per entry, in order, under the name that `rename` gives it: one
`attribute_make` for each entry. -/
def renameEntries (rename : String → Effect μ (Option String)) :
    List (String × Option String) → Effect μ (List JsxAttribute)
  | [] => pure []
  | (name, value) :: rest => do
    let renamed ← rename name
    let others ← renameEntries rename rest
    return ⟨renamed, value⟩ :: others

/-- Attribute records of an element, from a directive's attributes (`attributes_build`). -/
def buildAttributes (rename : String → Effect μ (Option String)) (attributes : Option Attributes) :
    Effect μ (List JsxAttribute) := do
  let entries ← Effect.ofExcept (attributeEntries attributes)
  renameEntries rename entries

/-- Puts a new element into the store, with a list of children that is there already: by its type
`flowElement_make` or `textElement_make`. -/
def Store.addElement (s : Store) (type : String) (name : Option String)
    (attributes : List JsxAttribute) (children : ListId) : NodeId × Store :=
  s.addNode { elementFields type name attributes with children := children }

end DirectiveLowering
