import DirectiveLowering.Proofs.Skeleton
import Mathlib.Data.List.Nodup
import Mathlib.Data.List.Perm.Basic

/-!
# Labels moved behind their siblings

Containers in a document lose a child, the label, and the content of the label comes back at the end of
their children, below a new node, the fragment. This is done at many containers at once, also in the
content of labels. A partial function tells at which containers, which child is the label and which node
is the fragment; a label that is cut out is itself no such container.

Results:
* `Moves.perm`: nothing is lost but the labels, and nothing is new but the fragments.
* `Moves.order_kept`, `Moves.order_changed`: two nodes change places only if one is in a label and the
  other below a later sibling of the label.
-/

namespace DirectiveLowering.Skeleton

open scoped List

/-! ## Pairs in lists -/

section Pairs

variable {α : Type} {a b x : α} {l l₁ l₂ : List α}

theorem pair_append (h : [a, b] <+ l₁ ++ l₂) :
    [a, b] <+ l₁ ∨ (a ∈ l₁ ∧ b ∈ l₂) ∨ [a, b] <+ l₂ := by
  obtain ⟨r₁, r₂, hr, h₁, h₂⟩ := List.sublist_append_iff.1 h
  match r₁, r₂, hr with
  | [], _, hr => exact Or.inr (Or.inr (hr ▸ h₂))
  | [c], _, hr =>
    obtain ⟨rfl, rfl⟩ := List.cons.inj hr
    exact Or.inr (Or.inl ⟨List.singleton_sublist.1 h₁, List.singleton_sublist.1 h₂⟩)
  | [c, d], [], hr =>
    rw [List.append_nil] at hr
    exact Or.inl (hr ▸ h₁)

theorem pair_cons (h : [a, b] <+ x :: l) : (a = x ∧ b ∈ l) ∨ [a, b] <+ l := by
  rcases List.sublist_cons_iff.1 h with hl | ⟨r, hr, hl⟩
  · exact Or.inr hl
  · obtain ⟨rfl, rfl⟩ := List.cons.inj hr
    exact Or.inl ⟨rfl, List.singleton_sublist.1 hl⟩

theorem pair_of_mem (ha : a ∈ l₁) (hb : b ∈ l₂) : [a, b] <+ l₁ ++ l₂ :=
  (List.singleton_sublist.2 ha).append (List.singleton_sublist.2 hb)

theorem pair_head (hb : b ∈ l) : [a, b] <+ a :: l :=
  (List.singleton_sublist.2 hb).cons_cons a

end Pairs

/-! ## Moving labels -/

/-- The second documents are the first, with the labels moved. -/
inductive Moves (cut : NodeId → Option (NodeId × NodeId)) : List Skeleton → List Skeleton → Prop
  | nil : Moves cut [] []
  /-- A node that keeps its children. -/
  | kept {n : NodeId} {ks us rest rest' : List Skeleton} : cut n = none → Moves cut ks us →
      Moves cut rest rest' → Moves cut (node n ks :: rest) (node n us :: rest')
  /-- A container whose label is moved. -/
  | moved {n label fragment : NodeId} {before content behind us vs rest rest' : List Skeleton} :
      cut n = some (label, fragment) → cut label = none → Moves cut (before ++ behind) us →
      Moves cut content vs → Moves cut rest rest' →
      Moves cut (node n (before ++ node label content :: behind) :: rest)
        (node n (us ++ [node fragment vs]) :: rest')

/-- One node is in the label of a container, and the other below a later sibling of the label. -/
inductive Crosses (cut : NodeId → Option (NodeId × NodeId)) (a b : NodeId) : List Skeleton → Prop
  | here {n label fragment : NodeId} {before content behind rest : List Skeleton} :
      cut n = some (label, fragment) → a ∈ nodesOf content → b ∈ nodesOf behind →
      Crosses cut a b (node n (before ++ node label content :: behind) :: rest)
  | inside {n : NodeId} {ks rest : List Skeleton} : Crosses cut a b ks →
      Crosses cut a b (node n ks :: rest)
  | later {k : Skeleton} {rest : List Skeleton} : Crosses cut a b rest → Crosses cut a b (k :: rest)

variable {cut : NodeId → Option (NodeId × NodeId)} {ks us vs : List Skeleton} {a b x n label : NodeId}

theorem Moves.cons {k k' : Skeleton} (h : Moves cut [k] [k']) (hrest : Moves cut ks us) :
    Moves cut (k :: ks) (k' :: us) := by
  cases h with
  | kept hcut hbelow _ => exact .kept hcut hbelow hrest
  | moved hcut hlabel hbody hcontent _ => exact .moved hcut hlabel hbody hcontent hrest

/-! ## What is there afterwards -/

/-- The labels of the containers of some documents. -/
def labelsOf (cut : NodeId → Option (NodeId × NodeId)) (ns : List NodeId) : List NodeId :=
  ns.filterMap fun n => (cut n).map Prod.fst

/-- The fragments of the containers of some documents. -/
def fragmentsOf (cut : NodeId → Option (NodeId × NodeId)) (ns : List NodeId) : List NodeId :=
  ns.filterMap fun n => (cut n).map Prod.snd

theorem nodesOf_split (before content behind : List Skeleton) (label : NodeId) :
    nodesOf (before ++ node label content :: behind) =
      nodesOf before ++ label :: nodesOf content ++ nodesOf behind := by
  rw [nodesOf_append, nodesOf_cons, nodes_node, List.append_assoc]

/-- Nothing is lost but the labels, and nothing is new but the fragments. -/
theorem Moves.perm (h : Moves cut ks us) :
    nodesOf us ++ labelsOf cut (nodesOf ks) ~ nodesOf ks ++ fragmentsOf cut (nodesOf ks) := by
  rw [List.perm_iff_count]
  intro x
  induction h with
  | nil => rfl
  | kept hcut _ _ ih₁ ih₂ =>
    simp only [labelsOf, fragmentsOf, nodesOf_cons, nodes_node, List.filterMap_append,
      List.filterMap_cons, hcut, Option.map_none, List.count_append, List.count_cons] at ih₁ ih₂ ⊢
    omega
  | moved hcut hlabel _ _ _ ih₁ ih₂ ih₃ =>
    simp only [labelsOf, fragmentsOf, nodesOf_cons, nodesOf_nil, nodes_node, nodesOf_append,
      List.filterMap_append, List.filterMap_cons, hcut, hlabel, Option.map_none, Option.map_some,
      List.count_append, List.count_cons, List.count_nil] at ih₁ ih₂ ih₃ ⊢
    omega

theorem mem_labelsOf {ns : List NodeId} :
    x ∈ labelsOf cut ns ↔ ∃ c ∈ ns, ∃ fragment, cut c = some (x, fragment) := by
  simp [labelsOf]

theorem mem_fragmentsOf {ns : List NodeId} :
    x ∈ fragmentsOf cut ns ↔ ∃ c ∈ ns, ∃ label, cut c = some (label, x) := by
  simp [fragmentsOf]

section Fresh

variable (h : Moves cut ks us) (hnodup : (nodesOf ks ++ fragmentsOf cut (nodesOf ks)).Nodup)
include h hnodup

/-- Nothing is duplicated. -/
theorem Moves.nodup : (nodesOf us).Nodup :=
  (List.nodup_append.1 (h.perm.nodup_iff.2 hnodup)).1

theorem Moves.mem_iff : x ∈ nodesOf us ↔
    (x ∈ nodesOf ks ∨ x ∈ fragmentsOf cut (nodesOf ks)) ∧ x ∉ labelsOf cut (nodesOf ks) := by
  have hall : x ∈ nodesOf us ∨ x ∈ labelsOf cut (nodesOf ks) ↔
      x ∈ nodesOf ks ∨ x ∈ fragmentsOf cut (nodesOf ks) := by
    simpa only [List.mem_append] using h.perm.mem_iff
  constructor
  · intro hx
    refine ⟨hall.1 (Or.inl hx), fun hlabel => ?_⟩
    exact (List.nodup_append.1 (h.perm.nodup_iff.2 hnodup)).2.2 x hx x hlabel rfl
  · rintro ⟨hx, hlabel⟩
    exact (hall.2 hx).resolve_right hlabel

end Fresh

/-! ## Parts of documents -/

section Parts

variable {before content behind rest : List Skeleton}

theorem subset_below : nodesOf ks ⊆ nodesOf (node n ks :: rest) :=
  fun _ hx => List.mem_append_left _ (List.mem_cons_of_mem _ hx)

theorem subset_rest {k : Skeleton} : nodesOf rest ⊆ nodesOf (k :: rest) :=
  fun _ hx => List.mem_append_right _ hx

theorem body_sublist : before ++ behind <+ before ++ node label content :: behind :=
  (List.Sublist.refl before).append (List.sublist_cons_self _ behind)

theorem subset_body : nodesOf (before ++ behind) ⊆
    nodesOf (node n (before ++ node label content :: behind) :: rest) :=
  fun _ hx => subset_below ((nodesOf_sublist body_sublist).subset hx)

theorem subset_content : nodesOf content ⊆
    nodesOf (node n (before ++ node label content :: behind) :: rest) := by
  intro x hx
  refine subset_below ?_
  rw [nodesOf_split]
  exact List.mem_append_left _ (List.mem_append_right _ (List.mem_cons_of_mem _ hx))

end Parts

/-- A node is no label of the containers among some others. -/
def Survives (cut : NodeId → Option (NodeId × NodeId)) (ns : List NodeId) (x : NodeId) : Prop :=
  ∀ c ∈ ns, ∀ fragment, cut c ≠ some (x, fragment)

theorem survives_iff {ns : List NodeId} : Survives cut ns x ↔ x ∉ labelsOf cut ns := by
  simp [Survives, mem_labelsOf]

theorem Survives.of_subset {ns ms : List NodeId} (h : Survives cut ns x) (hsub : ms ⊆ ns) :
    Survives cut ms x :=
  fun c hc => h c (hsub hc)

/-- A node that is no label is still there. -/
theorem Moves.mem (h : Moves cut ks us) (hx : x ∈ nodesOf ks) (hkept : Survives cut (nodesOf ks) x) :
    x ∈ nodesOf us := by
  induction h with
  | nil => exact hx
  | kept hcut _ _ ih₁ ih₂ =>
    rcases List.mem_append.1 hx with hx | hx
    · rcases List.mem_cons.1 hx with rfl | hx
      · exact List.mem_append_left _ List.mem_cons_self
      · exact subset_below (ih₁ hx (hkept.of_subset subset_below))
    · exact subset_rest (ih₂ hx (hkept.of_subset subset_rest))
  | @moved n label fragment before content behind us vs rest rest' hcut _ _ _ _ ih₁ ih₂ ih₃ =>
    have hbody : ∀ y ∈ nodesOf us, y ∈ nodesOf (node n (us ++ [node fragment vs]) :: rest') :=
      fun y hy => subset_below (nodesOf_append us _ ▸ List.mem_append_left _ hy)
    rcases List.mem_append.1 hx with hin | hin
    · rcases List.mem_cons.1 hin with rfl | hin
      · exact List.mem_append_left _ List.mem_cons_self
      · rw [nodesOf_split] at hin
        rcases List.mem_append.1 hin with hin | hin
        · rcases List.mem_append.1 hin with hin | hin
          · exact hbody x (ih₁ (nodesOf_append _ _ ▸ List.mem_append_left _ hin)
              (hkept.of_subset subset_body))
          · rcases List.mem_cons.1 hin with rfl | hin
            · exact absurd hcut (hkept n (List.mem_append_left _ List.mem_cons_self) fragment)
            · exact subset_content (ih₂ hin (hkept.of_subset subset_content))
        · exact hbody x (ih₁ (nodesOf_append _ _ ▸ List.mem_append_right _ hin)
            (hkept.of_subset subset_body))
    · exact subset_rest (ih₃ hin (hkept.of_subset subset_rest))

/-! ## The order -/

theorem Crosses.of_sublist (h : Crosses cut a b ks) (hsub : ks <+ us) : Crosses cut a b us := by
  induction hsub with
  | slnil => exact h
  | cons k _ ih => exact .later (ih h)
  | @cons_cons rest rest' k hsub ih =>
    cases h with
    | here hcut ha hb => exact .here hcut ha hb
    | inside hbelow => exact .inside hbelow
    | later hrest => exact .later (ih hrest)

theorem Crosses.cases_append (h : Crosses cut a b (ks ++ us)) :
    Crosses cut a b ks ∨ Crosses cut a b us := by
  induction ks with
  | nil => exact Or.inr h
  | cons k ks ih =>
    cases h with
    | here hcut ha hb => exact Or.inl (.here hcut ha hb)
    | inside hbelow => exact Or.inl (.inside hbelow)
    | later hrest => exact (ih hrest).imp_left .later

theorem Crosses.cases_cons {rest : List Skeleton} (h : Crosses cut a b (node n ks :: rest)) :
    (∃ label fragment before content behind, ks = before ++ node label content :: behind ∧
      cut n = some (label, fragment) ∧ a ∈ nodesOf content ∧ b ∈ nodesOf behind) ∨
    Crosses cut a b ks ∨ Crosses cut a b rest := by
  generalize hks : node n ks :: rest = l at h
  cases h with
  | here hcut ha hb =>
    cases hks
    exact Or.inl ⟨_, _, _, _, _, rfl, hcut, ha, hb⟩
  | inside hbelow =>
    cases hks
    exact Or.inr (Or.inl hbelow)
  | later hrest =>
    cases hks
    exact Or.inr (Or.inr hrest)

section Order

variable {k k' : Skeleton} {rest rest' : List Skeleton} (hrest : Moves cut rest rest')
  (ha : Survives cut (nodesOf (k :: rest)) a) (hb : Survives cut (nodesOf (k :: rest)) b)
include hrest ha hb

/-- A document, and then others. -/
theorem order_cons (hfirst : Moves cut [k] [k']) (hab : [a, b] <+ nodesOf (k :: rest))
    (h₁ : [a, b] <+ k.nodes → [a, b] <+ k'.nodes ∨ Crosses cut a b [k])
    (h₂ : [a, b] <+ nodesOf rest → [a, b] <+ nodesOf rest' ∨ Crosses cut a b rest) :
    [a, b] <+ nodesOf (k' :: rest') ∨ Crosses cut a b (k :: rest) := by
  rcases pair_append hab with hab | ⟨hina, hinb⟩ | hab
  · refine (h₁ hab).imp (fun h => h.trans (List.sublist_append_left _ _)) fun h => ?_
    exact h.of_sublist (List.singleton_sublist.2 List.mem_cons_self)
  · have ha' : a ∈ nodesOf [k'] := hfirst.mem (List.mem_append_left _ hina)
      (ha.of_subset (nodesOf_sublist (List.singleton_sublist.2 List.mem_cons_self)).subset)
    rw [nodesOf_singleton] at ha'
    exact Or.inl (pair_of_mem ha' (hrest.mem hinb (hb.of_subset subset_rest)))
  · exact (h₂ hab).imp (fun h => h.trans (List.sublist_append_right _ _)) .later

end Order

section Moved

variable {fragment : NodeId} {before content behind rest : List Skeleton}
  (hcut : cut n = some (label, fragment)) (hbody : Moves cut (before ++ behind) us)
  (hcontent : Moves cut content vs)

include hcut in
theorem Survives.ne_label
    (h : Survives cut (nodesOf (node n (before ++ node label content :: behind) :: rest)) x) :
    x ≠ label := by
  rintro rfl
  exact h n (List.mem_append_left _ List.mem_cons_self) fragment hcut

include hbody in
theorem mem_body (h : Survives cut (nodesOf (node n (before ++ node label content :: behind) :: rest)) x)
    (hx : x ∈ nodesOf before ∨ x ∈ nodesOf behind) : x ∈ nodesOf us :=
  hbody.mem (nodesOf_append before behind ▸ List.mem_append.2 hx) (h.of_subset subset_body)

include hcontent in
theorem mem_content
    (h : Survives cut (nodesOf (node n (before ++ node label content :: behind) :: rest)) x)
    (hx : x ∈ nodesOf content) : x ∈ nodesOf vs :=
  hcontent.mem hx (h.of_subset subset_content)

variable (ha : Survives cut (nodesOf (node n (before ++ node label content :: behind) :: rest)) a)
  (hb : Survives cut (nodesOf (node n (before ++ node label content :: behind) :: rest)) b)
include hcut hbody hcontent ha hb

/-- Below a container the body comes first and the content of the label last. -/
theorem order_below
    (h₁ : [a, b] <+ nodesOf (before ++ behind) →
      [a, b] <+ nodesOf us ∨ Crosses cut a b (before ++ behind))
    (h₂ : [a, b] <+ nodesOf content → [a, b] <+ nodesOf vs ∨ Crosses cut a b content)
    (hab : [a, b] <+ nodesOf before ++ label :: nodesOf content ++ nodesOf behind) :
    [a, b] <+ nodesOf us ++ fragment :: nodesOf vs ∨
      Crosses cut a b [node n (before ++ node label content :: behind)] := by
  have hwithin : [a, b] <+ nodesOf before ++ nodesOf behind →
      [a, b] <+ nodesOf us ++ fragment :: nodesOf vs ∨
        Crosses cut a b [node n (before ++ node label content :: behind)] := fun hab =>
    (h₁ (nodesOf_append before behind ▸ hab)).imp (fun h => h.trans (List.sublist_append_left _ _))
      fun h => .inside (h.of_sublist body_sublist)
  rcases pair_append hab with hab | ⟨hina, hinb⟩ | hab
  · rcases pair_append hab with hab | ⟨hina, hinb⟩ | hab
    · exact hwithin (hab.trans (List.sublist_append_left _ _))
    · have hinb' := (List.mem_cons.1 hinb).resolve_left (hb.ne_label hcut)
      exact Or.inl (pair_of_mem (mem_body hbody ha (Or.inl hina))
        (List.mem_cons_of_mem _ (mem_content hcontent hb hinb')))
    · rcases pair_cons hab with ⟨hna, -⟩ | hab
      · exact absurd hna (ha.ne_label hcut)
      · refine (h₂ hab).imp
          (fun h => (h.cons fragment).trans (List.sublist_append_right _ _)) fun h => ?_
        have hlabelled : Crosses cut a b [node label content] := .inside h
        exact .inside (hlabelled.of_sublist (List.singleton_sublist.2 (by simp)))
  · rcases List.mem_append.1 hina with hina | hina
    · exact hwithin (pair_of_mem hina hinb)
    · have hina' := (List.mem_cons.1 hina).resolve_left (ha.ne_label hcut)
      exact Or.inr (.here hcut hina' hinb)
  · exact hwithin (hab.trans (List.sublist_append_right _ _))

end Moved

/-- Two nodes keep their order, or one is in a label and the other below a later sibling. -/
theorem Moves.order_kept (h : Moves cut ks us) (ha : Survives cut (nodesOf ks) a)
    (hb : Survives cut (nodesOf ks) b) (hab : [a, b] <+ nodesOf ks) :
    [a, b] <+ nodesOf us ∨ Crosses cut a b ks := by
  induction h with
  | nil => exact Or.inl hab
  | @kept n ks us rest rest' hcut hbelow hrest ih₁ ih₂ =>
    have ha' := ha.of_subset subset_below
    have hb' := hb.of_subset subset_below
    refine order_cons hrest ha hb (.kept hcut hbelow .nil) hab (fun hab => ?_)
      (ih₂ (ha.of_subset subset_rest) (hb.of_subset subset_rest))
    rcases pair_cons hab with ⟨rfl, hinb⟩ | hab
    · exact Or.inl (pair_head (hbelow.mem hinb hb'))
    · exact (ih₁ ha' hb' hab).imp (fun h => h.cons n) .inside
  | @moved n label fragment before content behind us vs rest rest' hcut hlabel hbody hcontent hrest
      ih₁ ih₂ ih₃ =>
    refine order_cons hrest ha hb (.moved hcut hlabel hbody hcontent .nil) hab (fun hab => ?_)
      (ih₃ (ha.of_subset subset_rest) (hb.of_subset subset_rest))
    rw [nodes_node, nodesOf_split] at hab
    rw [nodes_node, nodesOf_append, nodesOf_singleton, nodes_node]
    rcases pair_cons hab with ⟨rfl, hinb⟩ | hab
    · refine Or.inl (pair_head ?_)
      simp only [List.mem_append, List.mem_cons] at hinb ⊢
      rcases hinb with (hinb | hinb | hinb) | hinb
      · exact Or.inl (mem_body hbody hb (Or.inl hinb))
      · exact absurd hinb (hb.ne_label hcut)
      · exact Or.inr (Or.inr (mem_content hcontent hb hinb))
      · exact Or.inl (mem_body hbody hb (Or.inr hinb))
    · exact (order_below hcut hbody hcontent ha hb
        (ih₁ (ha.of_subset subset_body) (hb.of_subset subset_body))
        (ih₂ (ha.of_subset subset_content) (hb.of_subset subset_content)) hab).imp_left
          (List.Sublist.cons n)

theorem map_root_sublist (ks : List Skeleton) : ks.map root <+ nodesOf ks := by
  induction ks with
  | nil => exact List.Sublist.refl _
  | cons k ks ih =>
    exact (List.singleton_sublist.2 k.root_mem_nodes).append ih

/-- A label is found in one place among the children. -/
theorem split_unique {before before' content content' behind behind' : List Skeleton}
    (h : before ++ node label content :: behind = before' ++ node label content' :: behind')
    (hnodup : (nodesOf (before ++ node label content :: behind)).Nodup) :
    content = content' ∧ behind = behind' := by
  have hroots := hnodup.sublist (map_root_sublist _)
  induction before generalizing before' with
  | nil =>
    cases before' with
    | nil =>
      cases h
      exact ⟨rfl, rfl⟩
    | cons k before' =>
      obtain ⟨rfl, hrest⟩ := List.cons.inj h
      refine absurd ?_ (List.nodup_cons.1 hroots).1
      rw [hrest]
      simp
  | cons k before ih =>
    cases before' with
    | nil =>
      obtain ⟨rfl, hrest⟩ := List.cons.inj h
      refine absurd ?_ (List.nodup_cons.1 hroots).1
      simp
    | cons k' before' =>
      obtain ⟨rfl, hrest⟩ := List.cons.inj h
      have htail := hnodup.sublist (nodesOf_sublist (List.sublist_cons_self k _))
      exact ih hrest htail (hroots.sublist (List.sublist_cons_self _ _))

/-- If one node is in a label and the other below a later sibling, they have changed places. -/
theorem Moves.order_changed (h : Moves cut ks us) (ha : Survives cut (nodesOf ks) a)
    (hb : Survives cut (nodesOf ks) b) (hnodup : (nodesOf ks).Nodup) (hab : Crosses cut a b ks) :
    [b, a] <+ nodesOf us := by
  induction h with
  | nil => cases hab
  | @kept n ks us rest rest' hcut hbelow hrest ih₁ ih₂ =>
    have hparts := List.nodup_append.1 hnodup
    rcases hab.cases_cons with ⟨label, fragment, _, _, _, -, hsome, -⟩ | hab | hab
    · rw [hcut] at hsome
      cases hsome
    · have hchanged := ih₁ (ha.of_subset subset_below) (hb.of_subset subset_below)
        (List.nodup_cons.1 hparts.1).2 hab
      exact (hchanged.cons n).trans (List.sublist_append_left _ _)
    · have hchanged := ih₂ (ha.of_subset subset_rest) (hb.of_subset subset_rest) hparts.2.1 hab
      exact hchanged.trans (List.sublist_append_right _ _)
  | @moved n label fragment before content behind us vs rest rest' hcut hlabel hbody hcontent hrest
      ih₁ ih₂ ih₃ =>
    have hparts := List.nodup_append.1 hnodup
    have hbelow := (List.nodup_cons.1 hparts.1).2
    have hnodes : nodesOf (node n (us ++ [node fragment vs]) :: rest') =
        n :: (nodesOf us ++ fragment :: nodesOf vs) ++ nodesOf rest' := by
      rw [nodesOf_cons, nodes_node, nodesOf_append, nodesOf_singleton, nodes_node]
    rw [hnodes]
    have hbodynodup := hbelow.sublist (nodesOf_sublist body_sublist)
    have hcontentnodup : (nodesOf content).Nodup := by
      rw [nodesOf_split] at hbelow
      exact (List.nodup_cons.1 (List.nodup_append.1 (List.nodup_append.1 hbelow).1).2.1).2
    have hlift : [b, a] <+ nodesOf us ++ fragment :: nodesOf vs →
        [b, a] <+ n :: (nodesOf us ++ fragment :: nodesOf vs) ++ nodesOf rest' := fun h =>
      (h.cons n).trans (List.sublist_append_left _ _)
    have hwithin : Crosses cut a b (before ++ behind) →
        [b, a] <+ n :: (nodesOf us ++ fragment :: nodesOf vs) ++ nodesOf rest' := fun h =>
      hlift ((ih₁ (ha.of_subset subset_body) (hb.of_subset subset_body) hbodynodup h).trans
        (List.sublist_append_left _ _))
    rcases hab.cases_cons with ⟨label', fragment', before', content', behind', hsplit, hsome, hina, hinb⟩ |
      hab | hab
    · rw [hcut] at hsome
      cases hsome
      obtain ⟨rfl, rfl⟩ := split_unique hsplit hbelow
      exact hlift (pair_of_mem (mem_body hbody hb (Or.inr hinb))
        (List.mem_cons_of_mem _ (mem_content hcontent ha hina)))
    · rcases hab.cases_append with hab | hab
      · exact hwithin (hab.of_sublist (List.sublist_append_left _ _))
      · rcases hab.cases_cons with ⟨_, _, _, _, _, -, hsome, -⟩ | hab | hab
        · rw [hlabel] at hsome
          cases hsome
        · have hchanged := ih₂ (ha.of_subset subset_content) (hb.of_subset subset_content)
            hcontentnodup hab
          exact hlift ((hchanged.cons fragment).trans (List.sublist_append_right _ _))
        · exact hwithin (hab.of_sublist (List.sublist_append_right _ _))
    · have hchanged := ih₃ (ha.of_subset subset_rest) (hb.of_subset subset_rest) hparts.2.1 hab
      exact hchanged.trans (List.sublist_append_right _ _)

end DirectiveLowering.Skeleton
