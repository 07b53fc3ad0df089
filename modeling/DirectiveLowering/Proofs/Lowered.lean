import DirectiveLowering.Proofs.Tree
import DirectiveLowering.Proofs.Visit

/-!
# Lowered trees

What a pass is meant to make of a tree, by recursion on the tree: a directive that the choices take
becomes an element over its lowered children, and every other node stays as it is, over its own. The
labels of a container leave its children; the first of them may come back at the end, as a fragment.

Results:
* `lowerAll_eq_map`, `lowerBody_eq_map`, `lowerLabel_cons`: the recursion in terms of the children.
* `lowerTree_slot`: a fragment made of a label is lowered like any other node.
-/

namespace DirectiveLowering

/-- A directive with these fields has no attributes or a mapping of them. -/
def Fields.PlainAttributes (f : Fields) : Prop :=
  f.isDirective = true → f.attributes = none ∨ ∃ entries, f.attributes = some (.mapping entries)

namespace Choices

variable (c : Choices) (slot : Bool)

/-- What kind of directive a node with these fields is lowered as, if it is. -/
def fate (f : Fields) : Option DirectiveKind :=
  if c.leavesAlone f then none else DirectiveKind.ofType? f.type

mutual

/-- The tree with its directives lowered. -/
def lowerTree : Tree → Tree
  | .node f ts =>
    match c.fate f with
    | none => .node f (lowerAll ts)
    | some kind =>
      .node (c.lowered kind f)
        (if kind = .container then lowerBody ts ++ lowerLabel ts else lowerAll ts)

/-- Trees, each with its directives lowered. -/
def lowerAll : List Tree → List Tree
  | [] => []
  | t :: ts => lowerTree t :: lowerAll ts

/-- The children of a lowered container that are no labels. -/
def lowerBody : List Tree → List Tree
  | [] => []
  | t :: ts => if t.isLabel then lowerBody ts else lowerTree t :: lowerBody ts

/-- What becomes of the first label among the children of a lowered container. -/
def lowerLabel : List Tree → List Tree
  | [] => []
  | .node f content :: ts =>
    if f.isLabel then
      if slot then [.node Store.slotFields (lowerAll content)] else []
    else lowerLabel ts

end

/-- A label's content before it is lowered, as it is handed on. -/
def slotTrees (content : List Tree) : List Tree :=
  if slot then [.node Store.slotFields content] else []

/-! ## The recursion in terms of the children -/

variable {c slot}

theorem fate_eq_some {f : Fields} {kind : DirectiveKind} (h : c.fate f = some kind) :
    c.leavesAlone f = false ∧ DirectiveKind.ofType? f.type = some kind := by
  rw [fate] at h
  by_cases ha : c.leavesAlone f = true
  · rw [if_pos ha] at h
    cases h
  · rw [if_neg ha] at h
    exact ⟨by simpa using ha, h⟩

theorem fate_of_other {f : Fields} (h : f.isDirective = false) : c.fate f = none := by
  have hkind : DirectiveKind.ofType? f.type = none := by
    rw [← Option.not_isSome_iff_eq_none, DirectiveKind.isSome_ofType?]
    simpa [Fields.isDirective] using h
  rw [fate, hkind, ite_self]

theorem fate_of_directive {f : Fields} (h : f.isDirective = true)
    (htaken : ¬ c.leavesAlone f = true) : ∃ kind, c.fate f = some kind := by
  obtain ⟨kind, hkind⟩ := Fields.exists_kind h
  exact ⟨kind, by rw [fate, if_neg htaken, hkind]⟩

theorem lowerTree_of_none {f : Fields} (h : c.fate f = none) (ts : List Tree) :
    c.lowerTree slot (.node f ts) = .node f (c.lowerAll slot ts) := by
  rw [lowerTree, h]

theorem lowerTree_of_some {f : Fields} {kind : DirectiveKind} (h : c.fate f = some kind)
    (ts : List Tree) :
    c.lowerTree slot (.node f ts) = .node (c.lowered kind f)
      (if kind = .container then c.lowerBody slot ts ++ c.lowerLabel slot ts
        else c.lowerAll slot ts) := by
  rw [lowerTree, h]

theorem lowerAll_eq_map (ts : List Tree) : c.lowerAll slot ts = ts.map (c.lowerTree slot) := by
  induction ts with
  | nil => rw [lowerAll, List.map_nil]
  | cons t ts ih => rw [lowerAll, ih, List.map_cons]

theorem lowerBody_eq_map (ts : List Tree) :
    c.lowerBody slot ts = (ts.filter fun t => !t.isLabel).map (c.lowerTree slot) := by
  induction ts with
  | nil => rw [lowerBody, List.filter_nil, List.map_nil]
  | cons t ts ih =>
    rw [lowerBody, ih]
    by_cases ht : t.isLabel = true
    · rw [if_pos ht, List.filter_cons_of_neg (by simp [ht])]
    · rw [if_neg ht, List.filter_cons_of_pos (by simp [ht]), List.map_cons]

theorem fate_slotFields : c.fate Store.slotFields = none :=
  fate_of_other rfl

theorem lowerTree_slot (content : List Tree) :
    c.lowerTree slot (.node Store.slotFields content) =
      .node Store.slotFields (c.lowerAll slot content) :=
  lowerTree_of_none fate_slotFields content

theorem lowerLabel_nil {ts : List Tree} (h : ts.filter Tree.isLabel = []) :
    c.lowerLabel slot ts = [] := by
  induction ts with
  | nil => rw [lowerLabel]
  | cons t ts ih =>
    obtain ⟨f, content⟩ := t
    by_cases hf : f.isLabel = true
    · rw [List.filter_cons_of_pos (by exact hf)] at h
      cases h
    · rw [List.filter_cons_of_neg (by exact hf)] at h
      rw [lowerLabel, if_neg hf, ih h]

theorem lowerLabel_cons {ts more : List Tree} {f : Fields} {content : List Tree}
    (h : ts.filter Tree.isLabel = .node f content :: more) :
    c.lowerLabel slot ts = (slotTrees slot content).map (c.lowerTree slot) := by
  induction ts with
  | nil => cases h
  | cons t ts ih =>
    obtain ⟨g, below⟩ := t
    by_cases hg : g.isLabel = true
    · rw [List.filter_cons_of_pos (by exact hg)] at h
      cases h
      rw [lowerLabel, if_pos hg, slotTrees]
      cases slot with
      | true => rw [if_pos rfl, if_pos rfl, List.map_singleton, lowerTree_slot]
      | false => rfl
    · rw [List.filter_cons_of_neg (by exact hg)] at h
      rw [lowerLabel, if_neg hg, ih h]

/-- A container without a label is lowered like any other directive. -/
theorem lowerTree_plain {f : Fields} {kind : DirectiveKind} {ts : List Tree}
    (h : c.fate f = some kind) (hlabel : kind = .container → ts.filter Tree.isLabel = []) :
    c.lowerTree slot (.node f ts) = .node (c.lowered kind f) (ts.map (c.lowerTree slot)) := by
  rw [lowerTree_of_some h]
  by_cases hkind : kind = .container
  · have hnone := hlabel hkind
    have hbody : (ts.filter fun t => !t.isLabel) = ts := by
      rw [List.filter_eq_self]
      intro t ht
      have := List.filter_eq_nil_iff.1 hnone t ht
      simpa using this
    rw [if_pos hkind, lowerBody_eq_map, hbody, lowerLabel_nil hnone, List.append_nil]
  · rw [if_neg hkind, lowerAll_eq_map]

theorem lowerTree_labelled {f g : Fields} {ts content more : List Tree}
    (h : c.fate f = some .container) (hlabel : ts.filter Tree.isLabel = .node g content :: more) :
    c.lowerTree slot (.node f ts) = .node (c.lowered .container f)
      (((ts.filter fun t => !t.isLabel) ++ slotTrees slot content).map (c.lowerTree slot)) := by
  rw [lowerTree_of_some h, if_pos rfl, lowerBody_eq_map, lowerLabel_cons hlabel, List.map_append]

end Choices

end DirectiveLowering
