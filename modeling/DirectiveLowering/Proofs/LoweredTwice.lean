import DirectiveLowering.Proofs.Lowered

/-!
# Trees that are lowered twice

What one lowering leaves alone another one may take. The second finds every directive that is left with
the fields it had, so both together do what a lowering does that takes whatever either of them takes.
One thing could come between them: a label that the first lowering turned into an element is no label
any more when the second one takes the container.

Results:
* `lowerTree_taken`: a lowered directive, in terms of the trees that are below it from then on.
* `fate_lowerTree`, `everywhere_lowerTree`: the root and the nodes of a lowered tree.
* `lowerTree_lowerTree`: two lowerings as one.
* `lowerTree_idem`: a lowered tree is lowered to itself.
-/

namespace DirectiveLowering.Choices

variable {c d e : Choices} {slot : Bool} {kind : DirectiveKind} {f : Fields} {ts : List Tree}

/-! ## Below a lowered directive -/

/-- The trees that are below a directive of a kind once it is lowered, before they are lowered. -/
def opened (slot : Bool) (kind : DirectiveKind) (ts : List Tree) : List Tree :=
  match if kind = .container then ts.filter Tree.isLabel else [] with
  | [] => ts
  | label :: _ => (ts.filter fun t => !t.isLabel) ++ slotTrees slot label.children

theorem opened_of_nil (h : kind = .container → ts.filter Tree.isLabel = []) :
    opened slot kind ts = ts := by
  have hnone : (if kind = .container then ts.filter Tree.isLabel else []) = [] := by
    split
    · next hkind => exact h hkind
    · rfl
  rw [opened, hnone]

theorem opened_of_cons {label : Tree} {more : List Tree}
    (h : ts.filter Tree.isLabel = label :: more) :
    opened slot .container ts =
      (ts.filter fun t => !t.isLabel) ++ slotTrees slot label.children := by
  rw [opened, if_pos rfl, h]

theorem lowerTree_taken (h : c.fate f = some kind) :
    c.lowerTree slot (.node f ts) =
      .node (c.lowered kind f) ((opened slot kind ts).map (c.lowerTree slot)) := by
  by_cases hlabel : kind = .container → ts.filter Tree.isLabel = []
  · rw [lowerTree_plain h hlabel, opened_of_nil hlabel]
  · obtain ⟨rfl, hsome⟩ := Classical.not_imp.1 hlabel
    obtain ⟨⟨g, content⟩, more, hmarked⟩ := List.exists_cons_of_ne_nil hsome
    rw [lowerTree_labelled h hmarked, opened_of_cons hmarked]
    rfl

/-- They were below the directive before, but for the fragment over the content of its label. -/
theorem mem_opened {u : Tree} (h : u ∈ opened slot kind ts) :
    u ∈ ts ∨ ∃ label ∈ ts, u = .node Store.slotFields label.children := by
  by_cases hlabel : kind = .container → ts.filter Tree.isLabel = []
  · rw [opened_of_nil hlabel] at h
    exact Or.inl h
  · obtain ⟨rfl, hsome⟩ := Classical.not_imp.1 hlabel
    obtain ⟨label, more, hmarked⟩ := List.exists_cons_of_ne_nil hsome
    rw [opened_of_cons hmarked] at h
    rcases List.mem_append.1 h with h | h
    · exact Or.inl (List.mem_filter.1 h).1
    · have hmem : label ∈ ts := (List.mem_filter.1 (hmarked ▸ List.mem_cons_self)).1
      rw [slotTrees] at h
      cases slot with
      | false => cases h
      | true => exact Or.inr ⟨label, hmem, List.mem_singleton.1 h⟩

/-! ## Nodes of a lowered tree -/

/-- An element is lowered no more, by whatever choices. -/
theorem fate_lowered (d c : Choices) (kind : DirectiveKind) (f : Fields) :
    d.fate (c.lowered kind f) = none :=
  fate_of_other (isDirective_lowered c kind f)

/-- The root of a lowered tree is lowered no more. -/
theorem fate_lowerTree (t : Tree) : c.fate (c.lowerTree slot t).fields = none := by
  obtain ⟨f, ts⟩ := t
  cases hfate : c.fate f with
  | none =>
    rw [lowerTree_of_none hfate]
    exact hfate
  | some kind =>
    rw [lowerTree_of_some hfate]
    exact fate_lowered c c kind f

/-- What holds of the nodes of a tree, of every element made of a directive and of the fragment of a
label holds of the nodes of the lowered tree. -/
theorem everywhere_lowerTree {p : Fields → Prop} (hlowered : ∀ kind f, p (c.lowered kind f))
    (hslot : p Store.slotFields) {t : Tree} (h : t.Everywhere p) :
    (c.lowerTree slot t).Everywhere p := by
  induction t using Tree.induct with
  | node f ts ih =>
    cases h with
    | node hf hts =>
      cases hfate : c.fate f with
      | none =>
        rw [lowerTree_of_none hfate, lowerAll_eq_map]
        refine .node hf fun v hv => ?_
        obtain ⟨t, ht, rfl⟩ := List.mem_map.1 hv
        exact (ih t ht).1 (hts t ht)
      | some kind =>
        rw [lowerTree_taken hfate]
        refine .node (hlowered kind f) fun v hv => ?_
        obtain ⟨u, hu, rfl⟩ := List.mem_map.1 hv
        rcases mem_opened hu with hu | ⟨label, hlabel, rfl⟩
        · exact (ih u hu).1 (hts u hu)
        · rw [lowerTree_slot, lowerAll_eq_map]
          refine .node hslot fun v hv => ?_
          obtain ⟨u, hu, rfl⟩ := List.mem_map.1 hv
          cases hts label hlabel with
          | node _ hcontent => exact (ih _ hlabel).2 u hu (hcontent u hu)

/-! ## Two lowerings as one -/

/-- The third choices take whatever the first or the second take, and make the same of it. -/
structure Joins (c d e : Choices) : Prop where
  fate : ∀ f, e.fate f = (c.fate f).or (d.fate f)
  left : ∀ kind f, c.lowered kind f = e.lowered kind f
  right : ∀ kind f, d.lowered kind f = e.lowered kind f

theorem Joins.self (c : Choices) : c.Joins c c where
  fate f := by cases c.fate f <;> rfl
  left _ _ := rfl
  right _ _ := rfl

/-- A node that is no label, or is not lowered, has its mark after the lowering if it had it before. -/
theorem isLabel_lowerTree {t : Tree} (h : t.isLabel = true → c.fate t.fields = none) :
    (c.lowerTree slot t).isLabel = t.isLabel := by
  obtain ⟨f, ts⟩ := t
  cases hfate : c.fate f with
  | none =>
    rw [lowerTree_of_none hfate]
    rfl
  | some kind =>
    have hmark : (Tree.node f ts).isLabel = false := by
      rw [← Bool.not_eq_true]
      intro hmark
      rw [Tree.fields, hfate] at h
      cases h hmark
    rw [lowerTree_of_some hfate, hmark]
    rfl

theorem filter_map_lowerTree {q : Tree → Bool} (h : ∀ t ∈ ts, q (c.lowerTree slot t) = q t) :
    (ts.map (c.lowerTree slot)).filter q = (ts.filter q).map (c.lowerTree slot) := by
  rw [List.filter_map]
  congr 1
  exact List.filter_congr h

/-- A container whose labels the first lowering has left alone is opened by the second one as it would
have been by the first. -/
theorem opened_map_lowerTree (h : ∀ t ∈ ts, t.isLabel = true → c.fate t.fields = none) :
    opened slot kind (ts.map (c.lowerTree slot)) =
      (opened slot kind ts).map (c.lowerTree slot) := by
  have hmark : ∀ t ∈ ts, (c.lowerTree slot t).isLabel = t.isLabel :=
    fun t ht => isLabel_lowerTree (h t ht)
  have hlabels := filter_map_lowerTree hmark
  have hbody := filter_map_lowerTree (q := fun t => !t.isLabel) fun t ht => by rw [hmark t ht]
  by_cases hlabel : kind = .container → ts.filter Tree.isLabel = []
  · rw [opened_of_nil hlabel, opened_of_nil fun hkind => by rw [hlabels, hlabel hkind, List.map_nil]]
  · obtain ⟨rfl, hsome⟩ := Classical.not_imp.1 hlabel
    obtain ⟨⟨g, content⟩, more, hmarked⟩ := List.exists_cons_of_ne_nil hsome
    obtain ⟨hmem, hg⟩ : Tree.node g content ∈ ts ∧ g.isLabel = true :=
      List.mem_filter.1 (hmarked ▸ List.mem_cons_self)
    have hkept : c.fate g = none := h _ hmem hg
    rw [hmarked, List.map_cons, lowerTree_of_none hkept, lowerAll_eq_map] at hlabels
    rw [opened_of_cons hmarked, opened_of_cons hlabels, hbody, List.map_append]
    congr 1
    dsimp only [Tree.children]
    cases slot with
    | false => rfl
    | true =>
      rw [slotTrees, slotTrees, if_pos rfl, if_pos rfl, List.map_singleton, lowerTree_slot,
        lowerAll_eq_map]

/-- Two lowerings do what one does that takes whatever either of them takes, provided that the first
lowers no label or the second takes nothing more. -/
theorem lowerTree_lowerTree (h : c.Joins d e) {t : Tree}
    (hlabels : (∀ f, c.fate f = none → d.fate f = none) ∨
      t.Everywhere fun f => f.isLabel = true → c.fate f = none) :
    d.lowerTree slot (c.lowerTree slot t) = e.lowerTree slot t := by
  induction t using Tree.induct with
  | node f ts ih =>
    have hbelow : ∀ t ∈ ts, (∀ f, c.fate f = none → d.fate f = none) ∨
        t.Everywhere fun f => f.isLabel = true → c.fate f = none :=
      fun t ht => hlabels.imp_right fun | .node _ hts => hts t ht
    have hcontent : ∀ t ∈ ts, ∀ u ∈ t.children,
        d.lowerTree slot (c.lowerTree slot u) = e.lowerTree slot u :=
      fun t ht u hu => (ih t ht).2 u hu ((hbelow t ht).imp_right fun | .node _ hus => hus u hu)
    have hts : ∀ t ∈ ts, d.lowerTree slot (c.lowerTree slot t) = e.lowerTree slot t :=
      fun t ht => (ih t ht).1 (hbelow t ht)
    have hopened : ∀ kind, ∀ u ∈ opened slot kind ts,
        d.lowerTree slot (c.lowerTree slot u) = e.lowerTree slot u := by
      intro kind u hu
      rcases mem_opened hu with hu | ⟨label, hlabel, rfl⟩
      · exact hts u hu
      · simp only [lowerTree_slot, lowerAll_eq_map, List.map_map]
        congr 1
        exact List.map_congr_left (hcontent label hlabel)
    have hjoined := h.fate f
    cases hfate : c.fate f with
    | some kind =>
      rw [hfate, Option.some_or] at hjoined
      rw [lowerTree_taken hfate, lowerTree_taken hjoined, lowerTree_of_none (fate_lowered d c kind f),
        lowerAll_eq_map, List.map_map, h.left]
      congr 1
      exact List.map_congr_left (hopened kind)
    | none =>
      rw [hfate, Option.none_or] at hjoined
      rw [lowerTree_of_none hfate, lowerAll_eq_map]
      cases hfate' : d.fate f with
      | none =>
        rw [hfate'] at hjoined
        rw [lowerTree_of_none hfate', lowerTree_of_none hjoined, lowerAll_eq_map, lowerAll_eq_map,
          List.map_map]
        congr 1
        exact List.map_congr_left hts
      | some kind =>
        -- only here does it matter what the first lowering has made of labels
        have hkept : ∀ t ∈ ts, t.isLabel = true → c.fate t.fields = none := by
          intro t ht hmark
          rcases hbelow t ht with hmore | hlabels
          · rw [hmore f hfate] at hfate'
            cases hfate'
          · cases hlabels with
            | node hg _ => exact hg hmark
        rw [hfate'] at hjoined
        rw [lowerTree_taken hfate', lowerTree_taken hjoined, opened_map_lowerTree hkept,
          List.map_map, h.right]
        congr 1
        exact List.map_congr_left (hopened kind)

/-- A lowered tree is lowered to itself. -/
theorem lowerTree_idem (t : Tree) :
    c.lowerTree slot (c.lowerTree slot t) = c.lowerTree slot t :=
  lowerTree_lowerTree (Joins.self c) (Or.inl fun _ => id)

end DirectiveLowering.Choices
