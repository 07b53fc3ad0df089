import DirectiveLowering.Workspace.Processor

/-!
# What is said and what is written

Whatever is reported is written to the log if the verbosity in force allows it, and changes nothing else:
not the verbosity in force either, so the notices of a pass are all measured by the same.

Results:
* `foldl_noted`: what reporting some notices does to a workspace.
* `closed_eq`: the workspace that a pass leaves, by what it has said.
* `writes_wired`: writing does not depend on what is connected.
-/

namespace DirectiveLowering

namespace Logger

/-- Writes some messages. -/
def writes (l : Logger) (messages : List String) : Logger :=
  messages.foldl write l

@[simp] theorem writes_nil (l : Logger) : l.writes [] = l := rfl

theorem writes_append (l : Logger) (messages later : List String) :
    l.writes (messages ++ later) = (l.writes messages).writes later :=
  List.foldl_append

@[simp] theorem connected_write (l : Logger) (message : String) :
    (l.write message).connected = l.connected := by
  unfold write
  split
  · split <;> rfl
  · rfl

@[simp] theorem tokens_write (l : Logger) (message : String) :
    (l.write message).tokens = l.tokens := by
  unfold write
  split
  · split <;> rfl
  · rfl

@[simp] theorem messages_write (l : Logger) (message : String) :
    (l.write message).messages = l.messages.push message := by
  unfold write
  split
  · split <;> rfl
  · rfl

@[simp] theorem connected_writes (l : Logger) (messages : List String) :
    (l.writes messages).connected = l.connected := by
  induction messages generalizing l with
  | nil => rfl
  | cons message rest ih => exact (ih (l.write message)).trans (connected_write l message)

@[simp] theorem tokens_writes (l : Logger) (messages : List String) :
    (l.writes messages).tokens = l.tokens := by
  induction messages generalizing l with
  | nil => rfl
  | cons message rest ih => exact (ih (l.write message)).trans (tokens_write l message)

/-- The log with something else connected and other tokens. -/
def wired (l : Logger) (connected : RunState) (tokens : Array Token) : Logger :=
  { l with connected, tokens }

/-- What is connected and which tokens there are has no part in writing. -/
theorem write_wired (l : Logger) (connected : RunState) (tokens : Array Token) (message : String) :
    (l.wired connected tokens).write message = (l.write message).wired connected tokens := by
  obtain ⟨c, ts, messages, sink, shown⟩ := l
  cases sink with
  | none => rfl
  | some level => by_cases h : level.showsDebug = true <;> simp [wired, write, h]

theorem writes_wired (l : Logger) (connected : RunState) (tokens : Array Token)
    (messages : List String) :
    (l.wired connected tokens).writes messages = (l.writes messages).wired connected tokens := by
  induction messages generalizing l with
  | nil => rfl
  | cons message rest ih =>
    have hstep : (l.wired connected tokens).writes (message :: rest) =
        ((l.wired connected tokens).write message).writes rest := rfl
    rw [hstep, write_wired, ih]
    rfl

theorem messages_writes (l : Logger) (messages : List String) :
    (l.writes messages).messages = l.messages ++ messages := by
  induction messages generalizing l with
  | nil => simp
  | cons message rest ih => exact (ih (l.write message)).trans (by simp)

end Logger

namespace Session

variable {σ : Type}

/-! ## How computations end -/

/-- The workspace that a computation leaves. -/
def leaves {α : Type} : EStateM.Result Halt (Workspace σ) α → Workspace σ
  | .ok _ w => w
  | .error _ w => w

/-- The ending of a computation, with another workspace. -/
def dressed {τ α : Type} (f : Workspace σ → Workspace τ) :
    EStateM.Result Halt (Workspace σ) α → EStateM.Result Halt (Workspace τ) α
  | .ok a w => .ok a (f w)
  | .error halt w => .error halt (f w)

@[simp] theorem leaves_dressed {τ α : Type} (f : Workspace σ → Workspace τ)
    (r : EStateM.Result Halt (Workspace σ) α) : leaves (dressed f r) = f (leaves r) := by
  cases r <;> rfl

theorem dressed_dressed {τ υ α : Type} (f : Workspace σ → Workspace τ) (g : Workspace τ → Workspace υ)
    (r : EStateM.Result Halt (Workspace σ) α) : dressed g (dressed f r) = dressed (g ∘ f) r := by
  cases r <;> rfl

/-! ## Notices -/

/-- The messages of those notices that are written under some verbosity; without one none is. -/
def wordings (verbosity : Option Int) (said : List Notice) : List String :=
  (said.filter fun n => verbosity.any fun v => n.level ≤ v).map Notice.text

theorem wordings_append (verbosity : Option Int) (said later : List Notice) :
    wordings verbosity (said ++ later) = wordings verbosity said ++ wordings verbosity later := by
  simp [wordings]

theorem wordings_none (said : List Notice) : wordings none said = [] := by
  simp [wordings]

theorem wordings_some (v : Int) (said : List Notice) :
    wordings (some v) said = (said.filter fun n => n.level ≤ v).map Notice.text := rfl

/-- The workspace after some notices. -/
def told (w : Workspace σ) (said : List Notice) : Workspace σ :=
  { w with logger := w.logger.writes (wordings (verbosity w) said) }

theorem noted_eq_told (w : Workspace σ) (n : Notice) : noted w n = told w [n] := by
  by_cases h : allows w n.level = true
  · have h' : (verbosity w).any (fun v => n.level ≤ v) = true := h
    simp [noted, told, wordings, h, h', Logger.writes]
  · have h' : ¬ (verbosity w).any (fun v => n.level ≤ v) = true := h
    simp [noted, told, wordings, h, h', Logger.writes]

@[simp] theorem verbosity_told (w : Workspace σ) (said : List Notice) :
    verbosity (told w said) = verbosity w := by
  simp [verbosity, told]

theorem told_append (w : Workspace σ) (said later : List Notice) :
    told w (said ++ later) = told (told w said) later := by
  simp only [told, wordings_append, Logger.writes_append]
  rw [← told, verbosity_told]

@[simp] theorem told_nil (w : Workspace σ) : told w [] = w := by
  simp [told, wordings]

/-- Reporting some notices writes those that the verbosity in force allows, and does nothing else. -/
theorem foldl_noted (w : Workspace σ) (said : List Notice) : said.foldl noted w = told w said := by
  induction said generalizing w with
  | nil => exact (told_nil w).symm
  | cons n rest ih =>
    rw [List.foldl_cons, ih, noted_eq_told, ← told_append]
    rfl

theorem emit_apply (n : Notice) (w : Workspace σ) : emit n w = .ok () (told w [n]) := by
  rw [← noted_eq_told]
  rfl

/-- The workspace that a pass leaves, by the world and the notices it left. -/
theorem closed_eq (w : Workspace σ) (account : StatsId) (v : World (σ × Books)) :
    closed w account v = told
      { w with
        store := v.store
        memory := v.memory.1
        ledger := w.ledger.setIfInBounds account.index v.memory.2.stats }
      v.memory.2.notices.toList := by
  rw [closed, ← Array.foldl_toList, foldl_noted]

end Session

end DirectiveLowering
