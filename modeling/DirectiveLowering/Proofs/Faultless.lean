import DirectiveLowering.Proofs.Harmless
import DirectiveLowering.Proofs.PassHistory

/-!
# Passes raise nothing of their own

With harmless hooks a pass over documents without cycles, in which the attributes of directives are
mappings or missing, comes to its end: a fault can only be raised by a hook. That is so for any number of
passes by any transformers, one after the other, though nodes are shared and an element keeps its
attributes as records, which no pass could read as a mapping. The invariant that carries this is that a
directive which is met is as it was before the first pass; what has been lowered is no directive any more,
so it is not dealt with again.

Results:
* `run_returns_untouched`: one pass.
* `passesOf_return`: any sequence of passes.
-/

namespace DirectiveLowering

namespace Pass

open Store Walk

variable {σ : Type} {o : Options σ} {named : Option String → Prop} {s₀ s : Store}

/-! ## One pass -/

/-- A visit to a directive that was in the first store, and is as it was there. -/
structure Untouched (s₀ : Store) (moment : Moment (σ × Books)) : Prop where
  hasNode : s₀.HasNode moment.call.node
  directive : (s₀.node moment.call.node).isDirective = true
  same : moment.before.store.node moment.call.node = s₀.node moment.call.node

/-- Every directive has a name such as is said, and attributes that are a mapping or missing. -/
def Tidy (named : Option String → Prop) (s : Store) : Prop :=
  ∀ n, s.HasNode n → (s.node n).isDirective = true → named (s.node n).name ∧ (s.node n).Readable

/-- The documents refer to nothing that is missing, and no visit so far was to a node that had been
changed. -/
def Calm (s₀ : Store) (w : World ((σ × Books) × List (Moment (σ × Books)))) : Prop :=
  w.store.Closed ∧ ∀ moment ∈ w.memory.2, Untouched s₀ moment

variable (h : o.Harmless named) (htidy : Tidy named s₀)
include h htidy

/-- Every visit returns, is to a directive as it was at first, and spares what can be walked. -/
theorem observed_returns :
    Returns (.oneOf directiveTypes) (observed (visitor o)) s₀ (Calm (σ := σ) s₀) := by
  intro depth n i p w hn hdirective hcalm
  obtain ⟨hclosed, hmoments⟩ := hcalm
  obtain ⟨hold, hsame⟩ := hn.same hdirective
  obtain ⟨hname, hreadable⟩ := htidy n hold (hsame ▸ hdirective)
  rw [← hsame] at hname hreadable
  obtain ⟨_, v, hvisit, hv⟩ := visit_yields h (w := w.view Prod.fst) hclosed hn.hasNode hname
    hreadable hdirective
  have hending : visitor o n i p (w.view Prod.fst) = .ok .proceed v := by
    rw [visitor_apply, hvisit]
  refine ⟨⟨v.store, v.memory, w.memory.2 ++ [moment (visitor o) n i p (w.view Prod.fst)]⟩, ?_,
    ⟨?_, fun m hm => ?_⟩, ?_⟩
  · simp only [observed, moment]
    rw [hending]
  · rcases hv with hv | hv
    · rw [hv]
      exact hclosed
    · exact hv.closed
  · rcases List.mem_append.1 hm with hm | hm
    · exact hmoments m hm
    · rw [List.mem_singleton.1 hm]
      exact ⟨hold, hsame ▸ hdirective, hsame⟩
  · rcases hv with hv | hv
    · rw [hv]
      exact .refl _ _
    · exact hv.spares hclosed s₀

/-- **A pass returns**, within any budget that is large enough. -/
theorem run_returns_untouched (hclosed : s.Closed) {depth : Nat} {root : NodeId}
    (hroot : Walkable s₀ s depth root) (memory : σ × Books) :
    ∃ v budget, (∀ b, budget ≤ b → run o b root ⟨s, memory⟩ = .ok () v ∧
        ∀ moment ∈ course o b root ⟨s, memory⟩, Untouched s₀ moment) ∧
      v.store.Closed ∧ Spares s₀ s v.store := by
  obtain ⟨m, books⟩ := memory
  obtain ⟨u, budget, hwalk, ⟨hclosed', hmoments⟩, hspares⟩ := Walk.run_returns
    (w := ⟨s, (m, { books with notices := books.notices.push .started }), []⟩)
    (observed_returns h htidy) (fun _ hw => hw.1) hroot ⟨hclosed, by simp⟩
  refine ⟨concluded (u.view Prod.fst), budget, fun b hb => ⟨?_, ?_⟩, hclosed', hspares⟩
  · have hplain := run_observed (.oneOf directiveTypes) (visitor o) b root
      ⟨s, m, { books with notices := books.notices.push .started }⟩
    dsimp only at hplain hwalk
    rw [hwalk b hb] at hplain
    rw [run_apply, ← hplain]
    rfl
  · have hcourse : course o b root ⟨s, m, books⟩ = u.memory.2 := by
      have hobserved := hwalk b hb
      dsimp only at hobserved
      rw [course, started, momentsOf, hobserved]
      rfl
    rw [hcourse]
    exact hmoments

end Pass

namespace Session

open Pass Store

variable {σ : Type} {w : Workspace σ}

/-! ## Sequences of passes -/

/-- A transformer makes a pass over the document below a root. -/
structure Errand where
  transformer : TransformerId
  root : NodeId

/-- The passes that are made for some errands, one after the other. -/
def passesOf (budget : Nat) : List Errand → Workspace σ → List (Made σ)
  | [], _ => []
  | e :: rest, w =>
    ⟨e.transformer, budget, e.root, w⟩ ::
      passesOf budget rest (Made.after ⟨e.transformer, budget, e.root, w⟩)

/-- The options were made of settings, whichever these are: their casings are casings that exist. -/
def MadeOfSettings (o : Options σ) : Prop :=
  ∃ settings notices notices', Making.optionsOfSettings settings notices = .ok o notices'

theorem MadeOfSettings.harmless {o : Options σ} (h : MadeOfSettings o) :
    o.Harmless (·.isSome = true) := by
  obtain ⟨settings, notices, notices', h⟩ := h
  obtain ⟨notices'', hsettings⟩ := Making.optionsOfSettings_ok (σ := σ) settings notices
  rw [hsettings] at h
  cases h
  exact harmless_ofSettings settings

/-- The passes return, by the documents that they begin with and those that there were at first. -/
theorem passesOf_return_of_tidy {s₀ : Store} {errands : List Errand} (hclosed : w.store.Closed)
    (hfit : ∀ e ∈ errands, (∃ depth, Walkable s₀ w.store depth e.root) ∧
      ∃ named, (optionsOf w e.transformer).Harmless named ∧ Tidy named s₀) :
    ∃ enough, ∀ budget, enough ≤ budget → ∀ p ∈ passesOf budget errands w,
      (∃ account v, p.ending = .ok account v) ∧ ∀ moment ∈ p.course, Untouched s₀ moment := by
  induction errands generalizing w with
  | nil => exact ⟨0, fun _ _ _ hp => absurd hp List.not_mem_nil⟩
  | cons e rest ih =>
    obtain ⟨⟨depth, hroot⟩, named, hharmless, htidy⟩ := hfit e List.mem_cons_self
    obtain ⟨v, enough, hrun, hclosed', hspares⟩ :=
      run_returns_untouched hharmless htidy hclosed hroot (w.memory, {})
    have hafter : ∀ budget, enough ≤ budget → Made.after ⟨e.transformer, budget, e.root, w⟩ =
        closed (entered w e.transformer) ⟨w.ledger.size⟩ v := by
      intro budget hbudget
      have hleft := (hrun budget hbudget).1
      rw [Made.after_eq, atStart, hleft]
      rfl
    -- for the later passes what could be walked can be walked, and the options are the same
    obtain ⟨enough', hrest⟩ := ih (w := closed (entered w e.transformer) ⟨w.ledger.size⟩ v)
      (by rw [store_closed]; exact hclosed') fun e' he' => by
        obtain ⟨⟨depth', hroot'⟩, hhooks⟩ := hfit e' (List.mem_cons_of_mem _ he')
        rw [store_closed, optionsOf_closed]
        exact ⟨⟨depth', hspares.walkable _ _ hroot'⟩, hhooks⟩
    refine ⟨max enough enough', fun budget hbudget p hp => ?_⟩
    have hfirst := Nat.le_trans (Nat.le_max_left _ _) hbudget
    rcases List.mem_cons.1 hp with rfl | hp
    · obtain ⟨hends, hcourse⟩ := hrun budget hfirst
      refine ⟨⟨⟨w.ledger.size⟩, closed (entered w e.transformer) ⟨w.ledger.size⟩ v, ?_⟩, hcourse⟩
      rw [Made.ending, transform_apply, atStart, hends]
    · rw [hafter budget hfirst] at hp
      exact hrest budget (Nat.le_trans (Nat.le_max_right _ _) hbudget) p hp

/-- **Passes raise nothing of their own**: over documents without cycles in which the attributes of
directives are mappings or missing, every pass returns, of any number of passes by any transformers, if
their hooks are harmless, or were made of settings and directives have names. Whatever a pass deals with is
a directive that was there before the first pass and is as it was then. -/
theorem passesOf_return (errands : List Errand) (hclosed : w.store.Closed)
    (hacyclic : w.store.Acyclic)
    (hreadable : ∀ n, w.store.HasNode n → (w.store.node n).isDirective = true →
      (w.store.node n).Readable)
    (hroots : ∀ e ∈ errands, w.store.HasNode e.root)
    (hhooks : ∀ e ∈ errands, (optionsOf w e.transformer).Harmless (fun _ => True) ∨
      MadeOfSettings (optionsOf w e.transformer) ∧ ∀ n, w.store.HasNode n →
        (w.store.node n).isDirective = true → (w.store.node n).name.isSome = true) :
    ∃ enough, ∀ budget, enough ≤ budget → ∀ p ∈ passesOf budget errands w,
      (∃ account v, p.ending = .ok account v) ∧ ∀ moment ∈ p.course, Untouched w.store moment := by
  refine passesOf_return_of_tidy hclosed fun e he => ⟨exists_walkable hclosed hacyclic (hroots e he), ?_⟩
  rcases hhooks e he with hharmless | ⟨hsettings, hnames⟩
  · exact ⟨_, hharmless, fun n hn hdirective => ⟨trivial, hreadable n hn hdirective⟩⟩
  · exact ⟨_, hsettings.harmless, fun n hn hdirective =>
      ⟨hnames n hn hdirective, hreadable n hn hdirective⟩⟩

/-- The shared notes, with attributes: a mapping, no records, and none. -/
def taggedNotes : Store where
  nodes := #[
    { type := "root", children := ⟨0⟩ },
    { type := NodeType.containerDirective, name := some "note",
      attributes := some (.mapping [("id", some "n")]), children := ⟨1⟩ },
    { type := NodeType.leafDirective, name := some "rule", attributes := some (.records []),
      children := ⟨1⟩ },
    { type := "paragraph", data := some { directiveLabel := true }, children := ⟨2⟩ },
    { type := NodeType.textDirective, name := some "abbr",
      attributes := some (.mapping [("class", some "red")]), children := ⟨3⟩ }]
  lists := sharedNotes.lists

theorem closed_taggedNotes : taggedNotes.Closed where
  children n hn :=
    (by decide : ∀ i, i < 5 → taggedNotes.HasList (taggedNotes.node ⟨i⟩).children) n.index hn
  members l hl :=
    (by decide : ∀ i, i < 4 → ∀ k ∈ taggedNotes.list ⟨i⟩, taggedNotes.HasNode k) l.index hl

/-- They have no cycles: every list holds nodes of higher numbers. -/
theorem acyclic_taggedNotes : taggedNotes.Acyclic :=
  acyclic_of_rank closed_taggedNotes (fun n => 5 - n.index) fun n hn =>
    (by decide : ∀ i, i < 5 → ∀ k ∈ taggedNotes.children ⟨i⟩, 5 - k.index < 5 - i) n.index hn

theorem readable_taggedNotes (n : NodeId) (hn : taggedNotes.HasNode n)
    (hdirective : (taggedNotes.node n).isDirective = true) : (taggedNotes.node n).Readable := by
  obtain ⟨i⟩ := n
  have hi : i < 5 := hn
  obtain rfl | rfl | rfl | rfl | rfl : i = 0 ∨ i = 1 ∨ i = 2 ∨ i = 3 ∨ i = 4 := by omega
  · cases hdirective
  · exact Or.inr (Or.inl ⟨_, rfl⟩)
  · exact Or.inr (Or.inr rfl)
  · cases hdirective
  · exact Or.inr (Or.inl ⟨_, rfl⟩)

/-- A transformer with hooks that follow choices, and one with options made of settings. -/
def twoTransformers : Workspace Unit where
  store := taggedNotes
  memory := ()
  options := #[Choices.options {} slotLabel, Options.ofSettings { normalizeNames := true }]
  ledger := #[{}, {}]
  transformers := #[⟨⟨0⟩, ⟨0⟩⟩, ⟨⟨1⟩, ⟨1⟩⟩]

/-- The text directive is lowered by itself, then the other two, each once; after that there is nothing to
be lowered, though the text is met again and again as an element with attribute records. -/
theorem passesOf_taggedNotes_return :
    (∃ enough, ∀ budget, enough ≤ budget →
      ∀ p ∈ passesOf budget [⟨⟨0⟩, ⟨4⟩⟩, ⟨⟨1⟩, ⟨0⟩⟩, ⟨⟨0⟩, ⟨0⟩⟩] twoTransformers,
        (∃ account v, p.ending = .ok account v) ∧
          ∀ moment ∈ p.course, Untouched taggedNotes moment) ∧
      (passesOf 40 [⟨⟨0⟩, ⟨4⟩⟩, ⟨⟨1⟩, ⟨0⟩⟩, ⟨⟨0⟩, ⟨0⟩⟩] twoTransformers).map
        (fun p => p.course.map (·.call.node)) = [[⟨4⟩], [⟨1⟩, ⟨2⟩], []] := by
  have hchoices : (optionsOf twoTransformers ⟨0⟩).Harmless fun _ => True :=
    (Choices.follows_options {} slotLabel).harmless decorating_slot _
  have hsettings : MadeOfSettings (optionsOf twoTransformers ⟨1⟩) :=
    ⟨{ normalizeNames := true }, #[], _, rfl⟩
  have hnames : ∀ n, taggedNotes.HasNode n → (taggedNotes.node n).isDirective = true →
      (taggedNotes.node n).name.isSome = true :=
    fun n hn => (by decide : ∀ i, i < 5 → (taggedNotes.node ⟨i⟩).isDirective = true →
      (taggedNotes.node ⟨i⟩).name.isSome = true) n.index hn
  refine ⟨passesOf_return _ closed_taggedNotes acyclic_taggedNotes readable_taggedNotes ?_ ?_,
    by decide +kernel⟩
  · decide
  · intro e he
    simp only [List.mem_cons, List.not_mem_nil, or_false] at he
    obtain rfl | rfl | rfl := he
    · exact Or.inl hchoices
    · exact Or.inr ⟨hsettings, hnames⟩
    · exact Or.inl hchoices

end Session

end DirectiveLowering
