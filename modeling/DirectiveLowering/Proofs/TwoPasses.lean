import DirectiveLowering.Proofs.TreePass

/-!
# Two passes over a tree

Passes that differ in their filters alone may follow each other in either order, and leave what a single
pass leaves whose filter accepts whatever either of theirs does. A container that the second pass takes
was walked by the first one with its label still inside, and a container that the first pass takes has
handed its label on before the second one comes to what is in it.

Results:
* `joins_accepting`: filters that are joined.
* `run_joins_passes`: two passes as one, in either order.
-/

namespace DirectiveLowering

namespace Choices

/-- The same choices with another filter. -/
def accepting (c : Choices) (accepts : Fields → Bool) : Choices :=
  { c with accepts := accepts }

/-- A filter that accepts what either of two filters accepts takes what either of them takes. -/
theorem joins_accepting (c : Choices) (f g : Fields → Bool) :
    (c.accepting f).Joins (c.accepting g) (c.accepting fun x => f x || g x) where
  fate x := by
    have hleft : ∀ accepts, (c.accepting accepts).leavesAlone x =
        ((c.skipTransformed.truthy && x.isLowered) || !accepts x) := fun _ => rfl
    simp only [fate, hleft]
    by_cases hskip : (c.skipTransformed.truthy && x.isLowered) = true
    · simp [hskip]
    · by_cases hf : f x = true <;> by_cases hg : g x = true <;> simp [hskip, hf, hg]
  left _ _ := rfl
  right _ _ := rfl

end Choices

namespace Pass

open Store

variable {σ : Type} {o o₁ o₂ : Options σ} {c : Choices} {slot : Bool} {s : Store} {n : NodeId}
  {t : Tree}

/-- One pass after the other, as one lowering. -/
theorem run_leaves_joined {d e : Choices} (h₁ : o₁.Follows c) (h₂ : o₂.Follows d)
    (hhook₁ : o₁.Labels slot) (hhook₂ : o₂.Labels slot) (hjoins : c.Joins d e)
    (hheld : s.HoldsTree n t) (hplain : t.Everywhere Fields.PlainAttributes)
    (hlabels : t.Everywhere fun f => f.isLabel = true → f.isDirective = false) (m : σ) :
    ∃ w w', Completed o₁ n ⟨s, m⟩ w ∧ Completed o₂ n w w' ∧
      w'.store.HoldsTree n (e.lowerTree slot t) := by
  obtain ⟨w, hfirst, hheld₁⟩ := run_leaves_tree h₁ hhook₁ hheld hplain m
  obtain ⟨w', hsecond, hheld₂⟩ :=
    run_leaves_tree h₂ hhook₂ hheld₁ (plain_lowerTree hplain) w.memory
  refine ⟨w, w', hfirst, hsecond, ?_⟩
  rwa [Choices.lowerTree_lowerTree hjoins (Or.inr (hlabels.imp fun f hf hmark =>
    Choices.fate_of_other (hf hmark)))] at hheld₂

/-- **Two passes are one**: a pass with one filter and then a pass with another leave the tree that one
pass leaves with the filter that accepts what either of them accepts, and so do the two passes in the
other order. No label may be a directive itself. -/
theorem run_joins_passes {f g : Fields → Bool} (h₁ : o₁.Follows (c.accepting f))
    (h₂ : o₂.Follows (c.accepting g)) (h : o.Follows (c.accepting fun x => f x || g x))
    (hhook₁ : o₁.Labels slot) (hhook₂ : o₂.Labels slot) (hhook : o.Labels slot)
    (hheld : s.HoldsTree n t) (hplain : t.Everywhere Fields.PlainAttributes)
    (hlabels : t.Everywhere fun x => x.isLabel = true → x.isDirective = false) (m : σ) :
    ∃ u, (∃ w, Completed o n ⟨s, m⟩ w ∧ w.store.HoldsTree n u) ∧
      (∃ w w', Completed o₁ n ⟨s, m⟩ w ∧ Completed o₂ n w w' ∧ w'.store.HoldsTree n u) ∧
      ∃ w w', Completed o₂ n ⟨s, m⟩ w ∧ Completed o₁ n w w' ∧ w'.store.HoldsTree n u := by
  refine ⟨_, run_leaves_tree h hhook hheld hplain m,
    run_leaves_joined h₁ h₂ hhook₁ hhook₂ (c.joins_accepting f g) hheld hplain hlabels m, ?_⟩
  have hcomm : (fun x => f x || g x) = fun x => g x || f x := by
    funext x
    exact Bool.or_comm _ _
  rw [hcomm]
  exact run_leaves_joined h₂ h₁ hhook₂ hhook₁ (c.joins_accepting g f) hheld hplain hlabels m

/-- The text directive in the label is taken by one pass, the container by the other. -/
theorem run_joins_passes_labelledNote :
    ∃ u, (∃ w, Completed (Choices.options (Choices.accepting {} fun x =>
        x.name == some "abbr" || x.name == some "note") slotLabel) ⟨0⟩ ⟨labelledNoteStore, ()⟩ w ∧
        w.store.HoldsTree ⟨0⟩ u) ∧
      (∃ w w', Completed (Choices.options (Choices.accepting {} (·.name == some "abbr")) slotLabel) ⟨0⟩
          ⟨labelledNoteStore, ()⟩ w ∧
        Completed (Choices.options (Choices.accepting {} (·.name == some "note")) slotLabel) ⟨0⟩ w w' ∧
        w'.store.HoldsTree ⟨0⟩ u) ∧
      ∃ w w', Completed (Choices.options (Choices.accepting {} (·.name == some "note")) slotLabel) ⟨0⟩
          ⟨labelledNoteStore, ()⟩ w ∧
        Completed (Choices.options (Choices.accepting {} (·.name == some "abbr")) slotLabel) ⟨0⟩ w w' ∧
        w'.store.HoldsTree ⟨0⟩ u := by
  have hlabels : ∀ c : Choices, (c.options slotLabel : Options Unit).Labels true :=
    fun _ => Options.labels_of_eq rfl
  refine run_joins_passes (Choices.follows_options _ slotLabel) (Choices.follows_options _ slotLabel)
    (Choices.follows_options _ slotLabel) (hlabels _) (hlabels _) (hlabels _)
    ⟨labelledNoteCells, holds_labelledNote, by decide⟩ plain_labelledNote ?_ ()
  simp only [labelledNote, Tree.everywhere_node, List.forall_mem_cons, List.not_mem_nil, false_implies,
    implies_true, and_true]
  decide

end Pass

end DirectiveLowering
