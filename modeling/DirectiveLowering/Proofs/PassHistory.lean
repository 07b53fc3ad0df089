import DirectiveLowering.Proofs.PassBooks
import DirectiveLowering.Proofs.Saying

/-!
# The statistics of passes, one after the other

Every pass of a transformer opens an account of its own. After the pass the transformer points at that
account, which describes the course of that pass alone, however it has ended; no later pass changes it,
whether of the same transformer or of another, over the same documents or others.

Results:
* `leaves_transform`: the workspace that a pass leaves.
* `History.there`: an account that has been opened stays.
* `stats_of_made`: the accounts of any sequence of passes.
-/

namespace DirectiveLowering.Session

open Pass

variable {σ : Type}

/-! ## One pass -/

/-- The documents and the memory of the hooks, with the empty books of a pass that begins. -/
def atStart (w : Workspace σ) : World (σ × Books) :=
  ⟨w.store, w.memory, {}⟩

/-- The options of a transformer. -/
def optionsOf (w : Workspace σ) (t : TransformerId) : Options σ :=
  options w (transformer w t).options

theorem transform_apply (budget : Nat) (t : TransformerId) (root : NodeId) (w : Workspace σ) :
    transform budget t root w =
      match Pass.run (optionsOf w t) budget root (atStart w) with
      | .ok _ v => .ok ⟨w.ledger.size⟩ (closed (entered w t) ⟨w.ledger.size⟩ v)
      | .error halt v => .error halt (closed (entered w t) ⟨w.ledger.size⟩ v) := by
  simp only [transform, optionsOf, atStart, entered]
  cases Pass.run (options w (transformer w t).options) budget root ⟨w.store, w.memory, {}⟩ <;> rfl

theorem leaves_transform (budget : Nat) (t : TransformerId) (root : NodeId) (w : Workspace σ) :
    leaves (transform budget t root w) = closed (entered w t) ⟨w.ledger.size⟩
      (left (Pass.run (optionsOf w t) budget root (atStart w))) := by
  rw [transform_apply]
  cases Pass.run (optionsOf w t) budget root (atStart w) <;> rfl

section Closed

variable (w : Workspace σ) (t : TransformerId) (v : World (σ × Books))

theorem store_closed (account : StatsId) : (closed w account v).store = v.store := by
  simp [closed_eq, told]

/-- A pass leaves all options as they are, and every transformer the options that it has. -/
theorem optionsOf_closed (account : StatsId) (t' : TransformerId) :
    optionsOf (closed (entered w t) account v) t' = optionsOf w t' := by
  have htransformer : (transformer (closed (entered w t) account v) t').options =
      (transformer w t').options := by
    simp only [closed_eq, told, entered, transformer, Array.getD_eq_getD_getElem?,
      Array.getElem?_setIfInBounds]
    by_cases heq : t.index = t'.index
    · by_cases hin : t'.index < w.transformers.size <;> simp [heq, hin]
    · simp [heq]
  have hoptions : (closed (entered w t) account v).options = w.options := by
    simp [closed_eq, told, entered]
  rw [optionsOf, htransformer, options, hoptions]
  rfl

/-- The account of a pass holds the statistics that it left. -/
theorem stats_closed : stats (closed (entered w t) ⟨w.ledger.size⟩ v) ⟨w.ledger.size⟩ =
    v.memory.2.stats := by
  simp [closed_eq, told, stats, entered, Array.getD_eq_getD_getElem?]

/-- The accounts from before a pass stay as they are. -/
theorem stats_closed_of_lt {s : StatsId} (h : s.index < w.ledger.size) :
    stats (closed (entered w t) ⟨w.ledger.size⟩ v) s = stats w s := by
  simp [closed_eq, told, stats, entered, Array.getD_eq_getD_getElem?, Array.getElem?_push,
    Nat.ne_of_lt h, Nat.ne_of_gt h]

theorem size_ledger_closed :
    (closed (entered w t) ⟨w.ledger.size⟩ v).ledger.size = w.ledger.size + 1 := by
  simp [closed_eq, told, entered]

/-- After a pass its transformer points at the account of the pass. -/
theorem transformer_closed (h : t.index < w.transformers.size) :
    (transformer (closed (entered w t) ⟨w.ledger.size⟩ v) t).stats = ⟨w.ledger.size⟩ := by
  simp [closed_eq, told, transformer, entered, Array.getD_eq_getD_getElem?, h]

end Closed

/-! ## Sequences of passes -/

/-- A pass: the transformer that makes it, its budget, the root, and the workspace it begins in. -/
structure Made (σ : Type) where
  transformer : TransformerId
  budget : Nat
  root : NodeId
  before : Workspace σ

namespace Made

variable (p : Made σ)

/-- How the pass ends. -/
def ending : EStateM.Result Halt (Workspace σ) StatsId :=
  transform p.budget p.transformer p.root p.before

/-- The workspace that the pass leaves. -/
def after : Workspace σ :=
  leaves p.ending

/-- The account that the transformer points at after the pass. -/
def account : StatsId :=
  (Session.transformer p.after p.transformer).stats

/-- The visits of the pass, in order. -/
def course : List (Walk.Moment (σ × Books)) :=
  Pass.course (optionsOf p.before p.transformer) p.budget p.root (atStart p.before)

/-- The calls of the hooks in the pass. -/
def calls : List HookEvent :=
  hookCalls (optionsOf p.before p.transformer) p.budget p.root (atStart p.before)

theorem after_eq : p.after = closed (entered p.before p.transformer) ⟨p.before.ledger.size⟩
    (left (Pass.run (optionsOf p.before p.transformer) p.budget p.root (atStart p.before))) :=
  leaves_transform p.budget p.transformer p.root p.before

end Made

/-- Whatever was done between two workspaces, the accounts that were there are there unchanged. -/
def KeepsAccounts (w v : Workspace σ) : Prop :=
  ∀ s : StatsId, s.index < w.ledger.size → s.index < v.ledger.size ∧ stats v s = stats w s

/-- Passes that were made one after the other, by transformers that were there, with anything done
before, between and after them that leaves the accounts alone. -/
inductive History (start : Workspace σ) : List (Made σ) → Workspace σ → Prop
  | start : History start [] start
  | pass {passes : List (Made σ)} {w : Workspace σ} (history : History start passes w) (p : Made σ)
      (before : p.before = w) (known : p.transformer.index < w.transformers.size) :
      History start (passes ++ [p]) p.after
  | other {passes : List (Made σ)} {w v : Workspace σ} (history : History start passes w)
      (kept : KeepsAccounts w v) : History start passes v

/-- A pass keeps the accounts that were there. -/
theorem Made.keepsAccounts (p : Made σ) : KeepsAccounts p.before p.after := by
  intro s hs
  rw [p.after_eq, size_ledger_closed]
  exact ⟨by omega, stats_closed_of_lt _ _ _ hs⟩

variable {start w : Workspace σ} {passes : List (Made σ)} {p : Made σ}

/-- The transformer of a pass that was made had been there. -/
theorem History.known (h : History start passes w) (hp : p ∈ passes) :
    p.transformer.index < p.before.transformers.size := by
  induction h with
  | start => cases hp
  | pass _ q before known ih =>
    rcases List.mem_append.1 hp with hp | hp
    · exact ih hp
    · rw [List.mem_singleton.1 hp, before]
      exact known
  | other _ _ ih => exact ih hp

/-- An account that was opened by a pass is there ever after, as that pass left it. -/
theorem History.there (h : History start passes w) (hp : p ∈ passes) :
    p.before.ledger.size < w.ledger.size ∧
      stats w ⟨p.before.ledger.size⟩ = stats p.after ⟨p.before.ledger.size⟩ := by
  induction h with
  | start => cases hp
  | pass _ q before _ ih =>
    rcases List.mem_append.1 hp with hp | hp
    · obtain ⟨hsize, hstats⟩ := ih hp
      rw [← before] at hsize hstats
      obtain ⟨hsize', hstats'⟩ := q.keepsAccounts _ hsize
      exact ⟨hsize', hstats'.trans hstats⟩
    · rw [List.mem_singleton.1 hp]
      refine ⟨?_, rfl⟩
      rw [q.after_eq, size_ledger_closed]
      exact Nat.lt_succ_self _
  | other _ kept ih =>
    obtain ⟨hsize, hstats⟩ := ih hp
    obtain ⟨hsize', hstats'⟩ := kept _ hsize
    exact ⟨hsize', hstats'.trans hstats⟩

/-- **The statistics of passes**: after each pass the statistics of its transformer are those of the
visits and label calls of that pass. They balance if the pass has come to its end, which then answers
their account; if a fault has ended it, they balance but for the directive at which it ended. Whatever is
done later leaves them as they are. -/
theorem stats_of_made (h : History start passes w) (hp : p ∈ passes) :
    stats p.after p.account =
        tally (optionsOf p.before p.transformer) p.course (p.calls.countP HookEvent.isLabel) ∧
      (match p.ending with
        | .ok account _ => account = p.account ∧ (stats p.after p.account).Balanced
        | .error (.raised _) _ =>
          (stats p.after p.account).visited = (stats p.after p.account).transformed +
              (stats p.after p.account).skipped + (stats p.after p.account).filtered + 1 ∧
            (stats p.after p.account).labels ≤ (stats p.after p.account).transformed + 1
        | .error .outOfBudget _ => True) ∧
      stats w p.account = stats p.after p.account := by
  have haccount : p.account = ⟨p.before.ledger.size⟩ := by
    rw [Made.account, p.after_eq]
    exact transformer_closed _ _ _ (h.known hp)
  have hstats : stats p.after p.account =
      (left (Pass.run (optionsOf p.before p.transformer) p.budget p.root (atStart p.before))).memory.2.stats := by
    rw [haccount, p.after_eq]
    exact stats_closed _ _ _
  refine ⟨?_, ?_, ?_⟩
  · rw [hstats]
    exact stats_run _ _ _ _ _
  · have hbooks := books_run (optionsOf p.before p.transformer) p.budget p.root p.before.store
      p.before.memory
    rw [hstats, Made.ending, transform_apply]
    cases hr : Pass.run (optionsOf p.before p.transformer) p.budget p.root (atStart p.before) with
    | ok a v =>
      rw [atStart] at hr
      rw [hr] at hbooks
      obtain ⟨u, hu, rfl⟩ := hbooks
      exact ⟨haccount.symm, hu.balanced⟩
    | error halt v =>
      rw [atStart] at hr
      rw [hr] at hbooks
      cases halt with
      | raised fault => exact CutShort.balanced hbooks
      | outOfBudget => trivial
  · rw [haccount]
    exact (h.there hp).2

/-- A label hook that fails the first time it is called. -/
def hesitantLabel : LabelHook Nat := fun _ _ w =>
  if w.memory = 0 then .error (.raised .runtime "not yet") ⟨w.store, 1⟩ else .ok () w

/-- The shared notes, with a transformer whose label hook fails the first time. -/
def hesitantNotes : Workspace Nat where
  store := sharedNotes
  memory := 0
  options := #[{ handleLabel := hesitantLabel }]
  ledger := #[{}]
  transformers := #[⟨⟨0⟩, ⟨0⟩⟩]

/-- The pass over them that fails at the label. -/
def hesitantPass : Made Nat := ⟨⟨0⟩, 40, ⟨0⟩, hesitantNotes⟩

/-- The pass after it. -/
def secondPass : Made Nat := ⟨⟨0⟩, 40, ⟨0⟩, hesitantPass.after⟩

/-- Of two passes the first one fails at the label of the container, and the second one lowers the three
directives; the first account is not touched by the second pass. -/
theorem stats_of_hesitantPass :
    History hesitantNotes [hesitantPass, secondPass] secondPass.after ∧
      stats secondPass.after hesitantPass.account = stats hesitantPass.after hesitantPass.account ∧
      stats hesitantPass.after hesitantPass.account =
        { visited := 1, transformed := 0, skipped := 0, filtered := 0, labels := 1 } ∧
      stats secondPass.after secondPass.account =
        { visited := 3, transformed := 3, skipped := 0, filtered := 0, labels := 1 } := by
  have hfirst : History hesitantNotes [hesitantPass] hesitantPass.after :=
    .pass .start hesitantPass rfl (by decide)
  have hboth : History hesitantNotes [hesitantPass, secondPass] secondPass.after :=
    .pass hfirst secondPass rfl (by decide +kernel)
  obtain ⟨-, -, hkept⟩ := stats_of_made hboth (p := hesitantPass) (by simp)
  exact ⟨hboth, hkept, by decide +kernel, by decide +kernel⟩

end DirectiveLowering.Session
