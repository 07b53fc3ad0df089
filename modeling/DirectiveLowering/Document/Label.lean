import DirectiveLowering.Document.Element

/-!
# Labels

A container directive may have a label, a child that is marked as such. When the directive becomes
an element every marked child leaves its children, and the content of the first one is handed on,
for instance to become a fragment in the slot `label`.

Results:
* `findLabel_eq_none_iff`: there is no label exactly when no child is marked.
* `extractLabel_of_none`: without a label the list itself is the answer.
-/

namespace DirectiveLowering

namespace Store

/-- Whether the node is marked as a label, as it is now (`label_isMarked`). -/
def isLabel (s : Store) (n : NodeId) : Bool :=
  (s.node n).isLabel

/-- The first label among some children (`label_find`). -/
def findLabel (s : Store) (children : List NodeId) : Option NodeId :=
  children.find? s.isLabel

/-- The children that are no labels: the `remaining` of `label_extract`. -/
def withoutLabels (s : Store) (children : List NodeId) : List NodeId :=
  children.filter fun n => !s.isLabel n

/-- Takes the labels out of a list of children (`label_extract`). The answer is the list of what remains
and the first label: a new list, or the very list given when it has no label. -/
def extractLabel (l : ListId) (s : Store) : (ListId × Option NodeId) × Store :=
  match s.findLabel (s.list l) with
  | none => ((l, none), s)
  | some label =>
    let (remaining, s) := s.addList (s.withoutLabels (s.list l))
    ((remaining, some label), s)

/-- Adds a fragment in the slot `label`, holding the list `content` itself, at the end of the
children of an element (`label_appendAsSlot`). -/
def appendSlot (element : NodeId) (content : ListId) (s : Store) : Store :=
  let (fragment, s) :=
    s.addElement NodeType.flowElement (some "Fragment") [⟨some "slot", some "label"⟩] content
  s.append (s.node element).children fragment

theorem findLabel_eq_none_iff {s : Store} {children : List NodeId} :
    s.findLabel children = none ↔ ∀ n ∈ children, s.isLabel n = false := by
  simp [findLabel]

theorem extractLabel_of_none {s : Store} {l : ListId} (h : s.findLabel (s.list l) = none) :
    s.extractLabel l = ((l, none), s) := by
  simp [extractLabel, h]

theorem extractLabel_of_some {s : Store} {l : ListId} {label : NodeId}
    (h : s.findLabel (s.list l) = some label) :
    s.extractLabel l =
      (((s.addList (s.withoutLabels (s.list l))).1, some label),
        (s.addList (s.withoutLabels (s.list l))).2) := by
  simp [extractLabel, h]

end Store

end DirectiveLowering
