import DirectiveLowering.Lowering.OptionValues
import DirectiveLowering.Workspace.Basic

/-!
# Transformers

A transformer makes passes with its options. Each pass has statistics of its own, which stay as the pass
left them, also when it was cut short.
-/

namespace DirectiveLowering

namespace Session

variable {σ : Type}

/-! ## Making transformers -/

/-- The transformer of an identity. -/
def transformer (w : Workspace σ) (t : TransformerId) : Transformer :=
  w.transformers.getD t.index default

/-- The statistics of an identity. -/
def stats (w : Workspace σ) (s : StatsId) : Stats :=
  w.ledger.getD s.index default

/-- Puts a new transformer with these very options into the workspace. -/
def addTransformer (o : OptionsId) : Session σ TransformerId :=
  modifyGet fun w =>
    (⟨w.transformers.size⟩,
      { w with
        ledger := w.ledger.push {}
        transformers := w.transformers.push ⟨o, ⟨w.ledger.size⟩⟩ })

/-! ## Passes -/

/-- The workspace in which a pass of a transformer begins: the transformer has a new account. -/
def entered (w : Workspace σ) (t : TransformerId) : Workspace σ :=
  { w with
    ledger := w.ledger.push {}
    transformers :=
      w.transformers.setIfInBounds t.index
        { transformer w t with stats := ⟨w.ledger.size⟩ } }

/-- The workspace that a pass leaves, by the world it left and the account it was given. -/
def closed (w : Workspace σ) (account : StatsId) (v : World (σ × Books)) : Workspace σ :=
  let books := v.memory.2
  books.notices.foldl noted
    { w with
      store := v.store
      memory := v.memory.1
      ledger := w.ledger.setIfInBounds account.index books.stats }

/-- Makes a pass over a document and answers the account of its statistics (`tree_transform`). -/
def transform (budget : Nat) (t : TransformerId) (root : NodeId) : Session σ StatsId := fun w =>
  let account := ⟨w.ledger.size⟩
  let o := options w (transformer w t).options
  let w := entered w t
  match Pass.run o budget root ⟨w.store, w.memory, {}⟩ with
  | .ok () v => .ok account (closed w account v)
  | .error halt v => .error halt (closed w account v)

/-- Makes the element for a directive, which itself stays as it is. The label, if there is one, counts
in the latest statistics of the transformer. -/
def element (t : TransformerId) (n : NodeId) : Session σ NodeId := fun w =>
  let account := (transformer w t).stats
  let o := options w (transformer w t).options
  match DirectiveKind.ofType? (w.store.node n).type with
  | none => .error (.raised (.missingKey (w.store.node n).type)) w
  | some kind =>
    match Pass.buildElement o kind n ⟨w.store, w.memory, { stats := stats w account }⟩ with
    | .ok e v => .ok e (closed w account v)
    | .error fault v => .error (.raised fault) (closed w account v)

end Session

/-! ## Recipes -/

/-- Where options come from. -/
inductive OptionsSource
  /-- Values by name, over the default options. -/
  | values (v : OptionValues)
  /-- Settings. -/
  | settings (s : Settings.Sources)
  /-- Options that are there. -/
  | shared (o : OptionsId)

/-- How a transformer is made (`DirectiveTransformer`, `directive_mdx`): with options from a source, or
the default ones, or else with a copy of them into which some values are put. Options that are given by
values may be spread: they are then put in together with the other values. -/
structure TransformerRecipe where
  source : OptionsSource := .values {}
  spread : Bool := false
  overrides : OptionValues := {}

namespace Session

/-- Makes options, or finds those that are there. -/
def makeOptions : OptionsSource → Session Trace OptionsId
  | .values v => do addOptions (← ofMaking (v.make {}))
  | .settings s =>
    match s.load with
    | .ok settings => do addOptions (← ofMaking (Making.optionsOfSettings settings))
    | .error problems => raise (.invalidSettings problems)
  | .shared o => return o

/-- Makes a transformer. -/
def makeTransformer (r : TransformerRecipe) : Session Trace TransformerId := do
  match r.source, r.spread with
  | .values v, true => addTransformer (← addOptions (← ofMaking (v.makeBoth r.overrides)))
  | source, _ =>
    let o ← makeOptions source
    if r.overrides.names.isEmpty then
      addTransformer o
    else
      addTransformer (← addOptions (← ofMaking (r.overrides.make (options (← get) o))))

end Session

end DirectiveLowering
