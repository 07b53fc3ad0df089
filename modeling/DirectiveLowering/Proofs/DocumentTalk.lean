import DirectiveLowering.Proofs.Finished
import DirectiveLowering.Proofs.QuietVisit
import DirectiveLowering.Proofs.Skeleton

/-!
# What a pass asks about a document

The talk of a pass with its hooks, about a document without sharing, can be told from the document as it
is before the pass. A directive is asked about before anything below it. If it is left alone or has no
label, the talk goes on with its children, in order. If it is opened, the talk goes on with the children
that are no labels, and then with the content of its first label, if the label is appended; about other
labels, and about a label that is dropped, nothing is asked.

Results:
* `talk_node`, `talkOf_append`: the talk about a node and what is below it.
* `talk_congr`: the talk depends on the nodes of the document alone.
-/

namespace DirectiveLowering

/-! ## Talks one after another -/

theorem Talk.bind_assoc {α β γ : Type} (t : Talk α) (f : α → Talk β) (g : β → Talk γ) :
    t >>= f >>= g = t >>= fun a => f a >>= g := by
  induction t with
  | done a => rfl
  | fault e => rfl
  | ask q next ih =>
    show Talk.ask q (fun a => next a >>= f >>= g) = Talk.ask q fun a => next a >>= fun b => f b >>= g
    congr
    funext a
    exact ih a

namespace Store

/-- What is asked when the walk comes to a node. -/
def arrival (skip : Bool) (s : Store) (n : NodeId) : Talk Outcome :=
  if (s.node n).isDirective then s.interview skip n else return .leftAlone

/-- The content of the label among some children of a container. -/
def contentOf (s : Store) (ks : List Skeleton) : List Skeleton :=
  match ks.find? fun k => s.isLabel k.root with
  | none => []
  | some label => label.children

/-- What is left of the children of a node, once this has become of it. -/
def remaining (s : Store) : Outcome → List Skeleton → List Skeleton
  | .leftAlone, ks => ks
  | .lowered _, ks => ks
  | .opened _ _ slotted, ks =>
    (ks.filter fun k => !s.isLabel k.root) ++ if slotted then s.contentOf ks else []

theorem mem_remaining {s : Store} {outcome : Outcome} {ks : List Skeleton} {u : Skeleton}
    (h : u ∈ s.remaining outcome ks) : u ∈ ks ∨ ∃ k ∈ ks, u ∈ k.children := by
  cases outcome with
  | leftAlone => exact Or.inl h
  | lowered g => exact Or.inl h
  | opened g label slotted =>
    rcases List.mem_append.1 h with hbody | hcontent
    · exact Or.inl (List.mem_filter.1 hbody).1
    · cases slotted with
      | false => cases hcontent
      | true =>
        have hin : u ∈ s.contentOf ks := hcontent
        rw [contentOf] at hin
        split at hin
        · cases hin
        · rename_i label hlabel
          exact Or.inr ⟨label, List.mem_of_find?_eq_some hlabel, hin⟩

open Skeleton in
theorem length_body_content (s : Store) (ks : List Skeleton) :
    (nodesOf (ks.filter fun k => !s.isLabel k.root)).length + (nodesOf (s.contentOf ks)).length ≤
      (nodesOf ks).length := by
  induction ks with
  | nil => exact Nat.le_refl 0
  | cons k ks ih =>
    by_cases hlabel : s.isLabel k.root = true
    · have hbody : (nodesOf (ks.filter fun k => !s.isLabel k.root)).length ≤ (nodesOf ks).length :=
        (nodesOf_sublist List.filter_sublist).length_le
      obtain ⟨n, us⟩ := k
      simp only [contentOf, List.find?_cons, hlabel, List.filter_cons, Bool.not_true, Bool.false_eq_true,
        if_false, nodesOf_cons, nodes_node, children_node, List.length_append, List.length_cons]
      omega
    · have hplain : s.isLabel k.root = false := by simpa using hlabel
      simp only [contentOf, List.find?_cons, hplain, List.filter_cons, Bool.not_false, if_true,
        nodesOf_cons, List.length_append] at ih ⊢
      omega

theorem length_remaining (s : Store) (outcome : Outcome) (ks : List Skeleton) :
    (Skeleton.nodesOf (s.remaining outcome ks)).length ≤ (Skeleton.nodesOf ks).length := by
  cases outcome with
  | leftAlone => exact Nat.le_refl _
  | lowered g => exact Nat.le_refl _
  | opened g label slotted =>
    have hparts := s.length_body_content ks
    rw [remaining, Skeleton.nodesOf_append, List.length_append]
    cases slotted with
    | false => exact Nat.le_trans (Nat.add_le_add_left (Nat.zero_le _) _) hparts
    | true => exact hparts

end Store

namespace Skeleton

open Store

theorem length_nodes_pos (sk : Skeleton) : 0 < sk.nodes.length :=
  List.length_pos_of_mem sk.root_mem_nodes

/-! ## The talk about a document -/

mutual

/-- What a pass asks about a document: first about its root, then about what is left below it. -/
def talk (skip : Bool) (s : Store) : Skeleton → Talk Unit
  | node n ks => do
    let outcome ← s.arrival skip n
    talkOf skip s (s.remaining outcome ks)
termination_by sk => (sk.nodes.length, 0)
decreasing_by
  have hlength := s.length_remaining outcome ks
  simp only [nodes_node, List.length_cons]
  exact Prod.Lex.left _ _ (by omega)

/-- What a pass asks about some documents, one after another. -/
def talkOf (skip : Bool) (s : Store) : List Skeleton → Talk Unit
  | [] => return ()
  | k :: ks => do
    talk skip s k
    talkOf skip s ks
termination_by ks => ((nodesOf ks).length, 1)
decreasing_by
  · simp only [nodesOf_cons, List.length_append]
    rcases Nat.eq_zero_or_pos (nodesOf ks).length with hrest | hrest
    · rw [hrest]
      exact Prod.Lex.right _ (by omega)
    · exact Prod.Lex.left _ _ (by omega)
  · have hfirst := k.length_nodes_pos
    simp only [nodesOf_cons, List.length_append]
    exact Prod.Lex.left _ _ (by omega)

end

variable {skip : Bool} {s s' : Store}

theorem talk_node (n : NodeId) (ks : List Skeleton) :
    (node n ks).talk skip s =
      s.arrival skip n >>= fun outcome => talkOf skip s (s.remaining outcome ks) := by
  rw [talk]

@[simp] theorem talkOf_nil : talkOf skip s [] = return () := by
  rw [talkOf]

theorem talkOf_cons (k : Skeleton) (ks : List Skeleton) :
    talkOf skip s (k :: ks) = k.talk skip s >>= fun _ => talkOf skip s ks := by
  rw [talkOf]

theorem talkOf_singleton (k : Skeleton) : talkOf skip s [k] = k.talk skip s := by
  rw [talkOf_cons, talkOf_nil]
  exact Talk.bind_pure _

theorem talkOf_append (ks us : List Skeleton) :
    talkOf skip s (ks ++ us) = talkOf skip s ks >>= fun _ => talkOf skip s us := by
  induction ks with
  | nil =>
    rw [talkOf_nil]
    rfl
  | cons k ks ih => rw [List.cons_append, talkOf_cons, talkOf_cons, Talk.bind_assoc, ih]

/-- About a node that is no directive nothing is asked. -/
theorem talk_other {n : NodeId} {ks : List Skeleton} (h : (s.node n).isDirective = false) :
    (node n ks).talk skip s = talkOf skip s ks := by
  rw [talk_node, arrival, h]
  rfl

/-! ## What the talk depends on -/

theorem talkOf_congr {ks : List Skeleton} (h : ∀ k ∈ ks, k.talk skip s' = k.talk skip s) :
    talkOf skip s' ks = talkOf skip s ks := by
  induction ks with
  | nil => rw [talkOf_nil, talkOf_nil]
  | cons k ks ih =>
    rw [talkOf_cons, talkOf_cons, h k List.mem_cons_self,
      ih fun k hk => h k (List.mem_cons_of_mem _ hk)]

end Skeleton

namespace Store

variable {s s' : Store} {n : NodeId}

/-- What is asked about a directive depends on it and its children. -/
theorem interview_congr (skip : Bool) (h : SameFamily s s' n) :
    s'.interview skip n = s.interview skip n := by
  have hbuilding : ∀ kind, s'.building n kind = s.building n kind := by
    intro kind
    have hlabelOf : s'.labelOf n kind = s.labelOf n kind := by
      cases kind with
      | container => exact h.findLabel
      | leaf | text => rfl
    rw [building, building, hlabelOf, h.node, h.withoutLabels]
    cases hlabel : s.labelOf n kind with
    | none => rfl
    | some label =>
      have hmem : label ∈ s.children n := by
        cases kind with
        | container => exact List.mem_of_find?_eq_some hlabel
        | leaf | text => cases hlabel
      dsimp only
      rw [h.child label hmem]
  rw [interview, interview, lowering, lowering, h.node]
  simp only [hbuilding]

theorem arrival_congr (skip : Bool) (h : SameFamily s s' n) :
    s'.arrival skip n = s.arrival skip n := by
  rw [arrival, arrival, h.node, interview_congr skip h]

theorem remaining_congr {ks : List Skeleton} (outcome : Outcome)
    (h : ∀ k ∈ ks, s'.isLabel k.root = s.isLabel k.root) :
    s'.remaining outcome ks = s.remaining outcome ks := by
  cases outcome with
  | leftAlone => rfl
  | lowered g => rfl
  | opened g label slotted =>
    have hbody : (ks.filter fun k => !s'.isLabel k.root) = ks.filter fun k => !s.isLabel k.root :=
      List.filter_congr fun k hk => by rw [h k hk]
    have hcontent : s'.contentOf ks = s.contentOf ks := by
      rw [contentOf, contentOf, ← List.head?_filter, ← List.head?_filter, List.filter_congr h]
    rw [remaining, remaining, hbody, hcontent]

/-- The talk about a document depends on its nodes alone. -/
theorem talk_congr (skip : Bool) {sk : Skeleton} (hspells : s.Spells sk)
    (h : ∀ x ∈ sk.nodes, SameFamily s s' x) : sk.talk skip s' = sk.talk skip s := by
  induction sk using Skeleton.induct with
  | node n ks ih =>
    obtain ⟨-, -, -, hbelow⟩ := spells_node.1 hspells
    have hchild : ∀ k ∈ ks, ∀ x ∈ k.nodes, SameFamily s s' x := fun k hk x hx =>
      h x (List.mem_cons_of_mem _ (Skeleton.mem_nodesOf.2 ⟨k, hk, hx⟩))
    have hlabels : ∀ k ∈ ks, s'.isLabel k.root = s.isLabel k.root := fun k hk => by
      rw [isLabel, (hchild k hk _ k.root_mem_nodes).node, isLabel]
    rw [Skeleton.talk_node, Skeleton.talk_node, arrival_congr skip (h n List.mem_cons_self)]
    congr
    funext outcome
    rw [remaining_congr outcome hlabels]
    refine Skeleton.talkOf_congr fun u hu => ?_
    rcases mem_remaining hu with hu | ⟨k, hk, hu⟩
    · exact (ih u hu).1 (hbelow u hu) (hchild u hu)
    · obtain ⟨m, us⟩ := k
      obtain ⟨-, -, -, hcontent⟩ := spells_node.1 (hbelow _ hk)
      exact (ih _ hk).2 u hu (hcontent u hu) fun x hx => hchild _ hk x
        (List.mem_cons_of_mem _ (Skeleton.mem_nodesOf.2 ⟨u, hu, hx⟩))

end Store

end DirectiveLowering
