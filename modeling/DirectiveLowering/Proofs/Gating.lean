import DirectiveLowering.Proofs.LogSteps

/-!
# What stages write, and under whose verbosity

The log does what is told of the steps of stages: every message is measured by the verbosity of the state
that is told to be current when it is said, and after a run the state from before it is connected, however
the run ends and whatever its stages leave connected.

The proof follows the steps. What is told is in step with the log as long as the tokens at hand are
distinct, and what is told of a connection is what its token remembers. A step touches no token that is
not at hand; so the token of a run is untouched when the run ends, at any depth.

Results:
* `perform_enacts`, `pipeline_enacts`: steps and stages do what is told of them.
* `runStages_gates`: a run does, and connects again what was connected before it.
-/

namespace DirectiveLowering

namespace Session

variable {σ α : Type}

/-! ## The gate -/

/-- The verbosity of a state, if it has one. -/
def gate (w : Workspace σ) : RunState → Option Int
  | .processor p => w.processors[p.index]?.map (·.verbosity)
  | .silent => none
  | .absent => none

/-- The messages of what has been said that are written: each is measured by the verbosity of the state
that was current then. -/
def gated (w : Workspace σ) (said : List (RunState × Notice)) : List String :=
  (said.filter fun s => (gate w s.1).any fun v => s.2.level ≤ v).map (·.2.text)

theorem verbosity_eq_gate (w : Workspace σ) : verbosity w = gate w w.logger.connected := by
  unfold verbosity gate
  cases w.logger.connected <;> rfl

theorem gated_append (w : Workspace σ) (said later : List (RunState × Notice)) :
    gated w (said ++ later) = gated w said ++ gated w later := by
  simp [gated]

theorem gated_singleton (w : Workspace σ) (n : Notice) :
    gated w [(w.logger.connected, n)] = wordings (verbosity w) [n] := by
  rw [verbosity_eq_gate]
  by_cases h : (gate w w.logger.connected).any (fun v => n.level ≤ v) = true <;>
    simp [gated, wordings, h]

/-- Writing a message of a level, without values to fill in. -/
theorem log_apply (message : String) (level : Int) (w : Workspace σ) :
    log message (some (.int level)) [] w = .ok () (told w [.custom message level]) := by
  have hcheck : (ofExcept (Operation.log.check (placedArguments (some (.int level)))
      (([] : List (String × Datum)).map (·.1))) : Session σ Unit) w = .ok () w := by
    rw [List.map_nil, Operation.check_nil]
    rfl
  have hget : (get : Session σ (Workspace σ)) w = .ok w w := rfl
  have hlevel : (ofExcept (levelOf ((some (Datum.int level) <|>
      ([] : List (String × Datum)).lookup "level").getD (.int 1))) : Session σ Int) w =
        .ok level w := rfl
  rw [log, bind_ok hcheck, bind_ok hget]
  cases hv : verbosity w with
  | none =>
    have htold : told w [.custom message level] = w := by
      rw [told, hv, wordings_none, Logger.writes_nil]
    rw [htold]
    rfl
  | some v =>
    rw [if_pos (show (some v).isSome = true from rfl), bind_ok hlevel, bind_ok hget]
    by_cases hallows : allows w level = true
    · rw [if_pos hallows]
      exact emit_apply _ w
    · have hnoted : noted w (.custom message level) = w :=
        noted_of_not_allows (Bool.eq_false_iff.2 hallows)
      rw [if_neg hallows, ← noted_eq_told, hnoted]
      rfl

end Session

/-! ## What is told is in step with the log -/

/-- What undoing the connection of a token makes current, unless it is undone already. -/
def Logger.undoing (l : Logger) (t : TokenId) : Option RunState :=
  match l.tokens[t.index]? with
  | some ⟨saved, false⟩ => some saved
  | _ => none

@[simp] theorem Logger.undoing_writes (l : Logger) (messages : List String) :
    (l.writes messages).undoing = l.undoing := by
  funext t
  simp [undoing]

open Session

/-- What is told is in step with a workspace. -/
structure Scene.InStep (sc : Scene) (w : Workspace (List TokenId)) : Prop where
  current : w.logger.connected = sc.current
  issued : ∀ t ∈ w.memory, t.index < w.logger.tokens.size
  distinct : w.memory.Nodup
  undo : sc.undo = w.memory.map w.logger.undoing

/-- What steps may do to a workspace that say something: they write what the gate lets through, and touch
no token that is not at hand. -/
structure Later (w v : Workspace (List TokenId)) (said : List (RunState × Notice)) : Prop where
  rest : v = { w with memory := v.memory, logger := v.logger }
  log : v.logger = (w.logger.writes (gated w said)).wired v.logger.connected v.logger.tokens
  grown : w.logger.tokens.size ≤ v.logger.tokens.size
  others : ∀ t : TokenId, t.index < w.logger.tokens.size → t ∉ w.memory →
    v.logger.tokens[t.index]? = w.logger.tokens[t.index]? ∧ t ∉ v.memory

theorem Later.trans {u v w : Workspace (List TokenId)} {said later : List (RunState × Notice)}
    (h₁ : Later u v said) (h₂ : Later v w later) : Later u w (said ++ later) := by
  have hgate : gated v later = gated u later := by rw [h₁.rest]; rfl
  refine ⟨?_, ?_, Nat.le_trans h₁.grown h₂.grown, fun t ht hhand => ?_⟩
  · rw [h₂.rest, h₁.rest]
  · rw [h₂.log, h₁.log, Logger.writes_wired, gated_append, Logger.writes_append, hgate]
    rfl
  · obtain ⟨htoken, hhand'⟩ := h₁.others t ht hhand
    obtain ⟨htoken', hhand''⟩ := h₂.others t (Nat.lt_of_lt_of_le ht h₁.grown) hhand'
    exact ⟨htoken'.trans htoken, hhand''⟩

/-- A computation goes from one workspace to another, and what is told from one scene to another. -/
def Progresses (w : Workspace (List TokenId)) (sc : Scene) (v : Workspace (List TokenId)) (sc' : Scene) :
    Prop :=
  sc'.InStep v ∧ ∃ said, sc'.said = sc.said ++ said ∧ Later w v said

/-- A computation ends as it is told, with a value if it returns. -/
def Enacts {α : Type} (a : α) (w : Workspace (List TokenId)) (sc : Scene) :
    EStateM.Result Halt (Workspace (List TokenId)) α → EStateM.Result Fault Scene Unit → Prop
  | .ok b v, .ok _ sc' => b = a ∧ Progresses w sc v sc'
  | .error (.raised fault) v, .error fault' sc' => fault = fault' ∧ Progresses w sc v sc'
  | _, _ => False

section Progresses

variable {u v w : Workspace (List TokenId)} {sc sc' sc'' : Scene}

/-- What is written when nothing is said. -/
theorem Later.of_unsaid (hrest : v = { w with memory := v.memory, logger := v.logger })
    (hlog : v.logger = w.logger.wired v.logger.connected v.logger.tokens)
    (hgrown : w.logger.tokens.size ≤ v.logger.tokens.size)
    (hothers : ∀ t : TokenId, t.index < w.logger.tokens.size → t ∉ w.memory →
      v.logger.tokens[t.index]? = w.logger.tokens[t.index]? ∧ t ∉ v.memory) : Later w v [] :=
  ⟨hrest, hlog, hgrown, hothers⟩

theorem Progresses.refl (h : sc.InStep w) : Progresses w sc w sc :=
  ⟨h, [], (List.append_nil _).symm, .of_unsaid rfl rfl (Nat.le_refl _) fun _ _ ht => ⟨rfl, ht⟩⟩

theorem Progresses.trans (h₁ : Progresses u sc v sc') (h₂ : Progresses v sc' w sc'') :
    Progresses u sc w sc'' := by
  obtain ⟨-, said, hsaid, hlater⟩ := h₁
  obtain ⟨hstep, later, hsaid', hlater'⟩ := h₂
  exact ⟨hstep, said ++ later, by rw [hsaid', hsaid, List.append_assoc], hlater.trans hlater'⟩

/-- The two ways in which a computation ends that is told of. -/
theorem Enacts.ends {α : Type} {a : α} {x : EStateM.Result Halt (Workspace (List TokenId)) α}
    {r : EStateM.Result Fault Scene Unit} (h : Enacts a w sc x r) :
    (∃ v sc', x = .ok a v ∧ r = .ok () sc' ∧ Progresses w sc v sc') ∨
      ∃ fault v sc', x = .error (.raised fault) v ∧ r = .error fault sc' ∧ Progresses w sc v sc' := by
  cases x with
  | ok b v =>
    cases r with
    | ok _ sc' =>
      obtain ⟨rfl, hprogress⟩ := h
      exact .inl ⟨v, sc', rfl, rfl, hprogress⟩
    | error _ sc' => exact h.elim
  | error halt v =>
    cases halt with
    | raised fault =>
      cases r with
      | ok _ sc' => exact h.elim
      | error _ sc' =>
        obtain ⟨rfl, hprogress⟩ := h
        exact .inr ⟨fault, v, sc', rfl, rfl, hprogress⟩
    | outOfBudget => cases r <;> exact h.elim

/-- One computation after the other. -/
theorem Enacts.bind {α β : Type} {a : α} {b : β} {x : Session (List TokenId) α}
    {f : α → Session (List TokenId) β} {x' f' : Telling} (hx : Enacts a w sc (x w) (x' sc))
    (hf : ∀ {v sc'}, sc'.InStep v → Enacts b v sc' (f a v) (f' sc')) :
    Enacts b w sc ((x >>= f) w) ((x' >>= fun _ => f') sc) := by
  simp only [Bind.bind, EStateM.bind]
  obtain ⟨v, sc', hx, hx', hprogress⟩ | ⟨fault, v, sc', hx, hx', hprogress⟩ := hx.ends
  · rw [hx, hx']
    dsimp only
    obtain ⟨u, sc'', hf, hf', hprogress'⟩ | ⟨fault, u, sc'', hf, hf', hprogress'⟩ :=
      (hf hprogress.1).ends
    · rw [hf, hf']
      exact ⟨rfl, hprogress.trans hprogress'⟩
    · rw [hf, hf']
      exact ⟨rfl, hprogress.trans hprogress'⟩
  · rw [hx, hx']
    exact ⟨rfl, hprogress⟩

/-- A computation that only answers something else. -/
theorem Enacts.answer {α β : Type} {a : α} (b : β) {x : Session (List TokenId) α}
    {r : EStateM.Result Fault Scene Unit} (hx : Enacts a w sc (x w) r) :
    Enacts b w sc ((x >>= fun _ => pure b) w) r := by
  simp only [Bind.bind, EStateM.bind]
  obtain ⟨v, sc', hends, rfl, hprogress⟩ | ⟨fault, v, sc', hends, rfl, hprogress⟩ := hx.ends
  · rw [hends]
    exact ⟨rfl, hprogress⟩
  · rw [hends]
    exact ⟨rfl, hprogress⟩

end Progresses

/-! ## Steps -/

section Steps

variable {w : Workspace (List TokenId)} {sc : Scene} (h : sc.InStep w)
include h

theorem Scene.InStep.said (n : Notice) : Progresses w sc (told w [n]) (sc.say n) := by
  refine ⟨⟨?_, ?_, h.distinct, ?_⟩, [(sc.current, n)], rfl, ⟨rfl, ?_, ?_, fun t _ ht => ⟨?_, ht⟩⟩⟩
  · exact (Logger.connected_writes _ _).trans h.current
  · simpa [told] using h.issued
  · exact h.undo.trans (by rw [told, Logger.undoing_writes])
  · rw [← h.current, gated_singleton]
    rfl
  · simp [told]
  · simp [told]

theorem Scene.InStep.say (message : String) (level : Int) :
    Enacts () w sc (log message (some (.int level)) [] w)
      (.ok () (sc.say (.custom message level))) := by
  rw [log_apply]
  exact ⟨rfl, h.said _⟩

/-- A processor begins its stages. Its token is not at hand. -/
theorem Scene.InStep.begin (p : ProcessorId) (stages : Nat) :
    Progresses w sc (underway p stages w) (sc.begin p stages) := by
  have hfresh : ∀ t ∈ w.memory, t.index ≠ w.logger.tokens.size := fun t ht => Nat.ne_of_lt (h.issued t ht)
  have hconnecting : Progresses w sc (connecting (.processor p) w) { sc with current := .processor p } := by
    refine ⟨⟨rfl, ?_, h.distinct, ?_⟩, [], (List.append_nil _).symm, .of_unsaid rfl rfl ?_ ?_⟩
    · intro t ht
      simpa [connecting, Logger.connect] using Nat.lt_succ_of_lt (h.issued t ht)
    · refine h.undo.trans (List.map_congr_left fun t ht => ?_)
      simp [Logger.undoing, connecting, Logger.connect, Array.getElem?_push, hfresh t ht]
    · simp [connecting, Logger.connect]
    · intro t ht hhand
      exact ⟨by simp [connecting, Logger.connect, Array.getElem?_push, Nat.ne_of_lt ht], hhand⟩
  exact hconnecting.trans (hconnecting.1.said (.running stages))

theorem Scene.InStep.connect (state : RunState) :
    Enacts () w sc (connectKept state w) (.ok () (sc.connect state)) := by
  have hconnect : connectKept state w = .ok ()
      { connecting state w with memory := w.memory ++ [⟨w.logger.tokens.size⟩] } := rfl
  have hfresh : ∀ t ∈ w.memory, t.index ≠ w.logger.tokens.size := fun t ht => Nat.ne_of_lt (h.issued t ht)
  rw [hconnect]
  refine ⟨rfl, ⟨rfl, ?_, ?_, ?_⟩, [], (List.append_nil _).symm, .of_unsaid rfl rfl ?_ ?_⟩
  · intro t ht
    simp only [connecting, Logger.connect, Array.size_push]
    rcases List.mem_append.1 ht with ht | ht
    · exact Nat.lt_succ_of_lt (h.issued t ht)
    · rw [List.mem_singleton.1 ht]
      exact Nat.lt_succ_self _
  · refine List.nodup_append.2 ⟨h.distinct, by simp, fun t ht t' ht' heq => hfresh t ht ?_⟩
    rw [heq, List.mem_singleton.1 ht']
  · have hold : w.memory.map (connecting state w).logger.undoing = w.memory.map w.logger.undoing := by
      refine List.map_congr_left fun t ht => ?_
      simp [Logger.undoing, connecting, Logger.connect, Array.getElem?_push, hfresh t ht]
    have hnew : (connecting state w).logger.undoing ⟨w.logger.tokens.size⟩ = some sc.current := by
      simp [Logger.undoing, connecting, Logger.connect, h.current]
    rw [List.map_append, List.map_singleton, hnew]
    exact congrArg (· ++ _) (h.undo.trans hold.symm)
  · simp [connecting, Logger.connect]
  · intro t ht hhand
    refine ⟨?_, ?_⟩
    · simp [connecting, Logger.connect, Array.getElem?_push, Nat.ne_of_lt ht]
    · simp only [List.mem_append, List.mem_singleton, not_or]
      exact ⟨hhand, fun heq => Nat.lt_irrefl _ (heq ▸ ht)⟩

/-- Undoing the connection of a token at hand leaves the others as they are. -/
theorem Scene.InStep.map_undoing {place : Nat} {t : TokenId} (ht : w.memory[place]? = some t)
    (saved : RunState) :
    w.memory.map (w.logger.restored t saved).undoing = sc.undo.set place none := by
  have hin := h.issued t (List.mem_of_getElem? ht)
  have hsame : (w.logger.restored t saved).undoing t = none := by
    simp [Logger.undoing, Logger.restored, Logger.wired, hin]
  have hother : ∀ t' ≠ t, (w.logger.restored t saved).undoing t' = w.logger.undoing t' := by
    intro t' hne
    have hindex : t.index ≠ t'.index := fun heq => hne (by cases t; cases t'; simp_all)
    simp [Logger.undoing, Logger.restored, Logger.wired, hindex]
  rw [h.undo]
  refine List.ext_getElem? fun i => ?_
  rw [List.getElem?_map, List.getElem?_set, List.getElem?_map, List.length_map]
  by_cases hi : place = i
  · subst hi
    obtain ⟨hlt, -⟩ := List.getElem?_eq_some_iff.1 ht
    rw [ht, Option.map_some, hsame, if_pos rfl, if_pos hlt]
  · rw [if_neg hi]
    cases hget : w.memory[i]? with
    | none => rfl
    | some t' =>
      have hne : t' ≠ t := by
        rintro rfl
        obtain ⟨hlt, -⟩ := List.getElem?_eq_some_iff.1 ht
        exact hi ((List.getElem?_inj hlt h.distinct).1 (ht.trans hget.symm))
      simp [hother t' hne]

theorem Scene.InStep.disconnect (place : Nat) :
    Enacts () w sc (disconnectKept place w) (sc.disconnect place) := by
  have hplace : sc.undo[place]? = (w.memory[place]?).map w.logger.undoing := by
    rw [h.undo, List.getElem?_map]
  rw [disconnectKept, bind_ok (get_apply w), Scene.disconnect, hplace]
  cases ht : w.memory[place]? with
  | none => exact ⟨rfl, .refl h⟩
  | some t =>
    obtain ⟨⟨saved, used⟩, htoken⟩ : ∃ token, w.logger.tokens[t.index]? = some token :=
      ⟨_, Array.getElem?_eq_getElem (h.issued t (List.mem_of_getElem? ht))⟩
    cases used with
    | true =>
      have hundone : w.logger.undoing t = none := by simp [Logger.undoing, htoken]
      have hrefused : w.logger.disconnect t = .error .tokenReused := by
        simp [Logger.disconnect, htoken]
      rw [Option.map_some, hundone]
      dsimp only
      rw [disconnect_apply, hrefused]
      exact ⟨rfl, .refl h⟩
    | false =>
      have hundone : w.logger.undoing t = some saved := by simp [Logger.undoing, htoken]
      rw [Option.map_some, hundone]
      dsimp only
      rw [disconnect_of_unused htoken]
      refine ⟨rfl, ⟨rfl, ?_, h.distinct, (h.map_undoing ht saved).symm⟩, [],
        (List.append_nil _).symm, .of_unsaid rfl rfl ?_ fun t' _ hhand => ⟨?_, hhand⟩⟩
      · intro t' ht'
        simpa [Logger.restored, Logger.wired] using h.issued t' ht'
      · simp [Logger.restored, Logger.wired]
      · have hindex : t.index ≠ t'.index := fun heq => by
          obtain rfl : t = t' := by cases t; cases t'; simp_all
          exact hhand (List.mem_of_getElem? ht)
        simp [Logger.restored, Logger.wired, hindex]

omit h in
theorem Enacts.attempt {x : Session (List TokenId) Unit} {r : EStateM.Result Fault Scene Unit}
    (hx : Enacts () w sc (x w) r) : Enacts () w sc (recovering x w) (Scene.attempted r) := by
  rw [recovering]
  obtain ⟨v, sc', hends, rfl, hprogress⟩ | ⟨fault, v, sc', hends, rfl, hprogress⟩ := hx.ends
  · rw [hends]
    exact ⟨rfl, hprogress⟩
  · rw [hends]
    exact ⟨rfl, hprogress⟩

omit h in
/-- The token of a run is used when the run ends; no other token is touched, and none at hand. -/
theorem Progresses.restored {v : Workspace (List TokenId)} {sc' : Scene} (hprogress : Progresses w sc v sc')
    {t : TokenId} (hfresh : w.logger.tokens.size ≤ t.index) (hhand : t ∉ v.memory)
    (saved : RunState) :
    Progresses w sc { v with logger := v.logger.restored t saved } { sc' with current := saved } := by
  obtain ⟨hstep, said, hsaid, hlater⟩ := hprogress
  have hindex : ∀ t' : TokenId, t' ≠ t → t.index ≠ t'.index := by
    rintro ⟨i⟩ hne heq
    exact hne (by cases t; simp_all)
  refine ⟨⟨rfl, ?_, hstep.distinct, ?_⟩, said, hsaid, ⟨?_, ?_, ?_, ?_⟩⟩
  · intro t' ht'
    simpa [Logger.restored, Logger.wired] using hstep.issued t' ht'
  · refine hstep.undo.trans (List.map_congr_left fun t' ht' => ?_)
    have hne : t' ≠ t := fun heq => hhand (heq ▸ ht')
    simp [Logger.undoing, Logger.restored, Logger.wired, hindex t' hne]
  · rw [hlater.rest]
  · rw [Logger.restored, hlater.log]
    rfl
  · simpa [Logger.restored, Logger.wired] using hlater.grown
  · intro t' ht' hhand'
    have hne : t' ≠ t := fun heq => by
      rw [heq] at ht'
      omega
    obtain ⟨htoken, hkept⟩ := hlater.others t' ht' hhand'
    exact ⟨by simpa [Logger.restored, Logger.wired, hindex t' hne] using htoken, hkept⟩

/-- A run does what is told of it if its stages do. -/
theorem Scene.InStep.run {p : ProcessorId}
    {stages : List (NodeId → Session (List TokenId) (Option NodeId))} {tree : NodeId}
    {r : EStateM.Result Fault Scene Unit}
    (hstages : Enacts tree (underway p stages.length w) (sc.begin p stages.length)
      (pipeline stages tree (underway p stages.length w)) r) :
    Enacts tree w sc (runStages p stages tree w) (sc.finish r) := by
  have hbegin := h.begin p stages.length
  have htoken : (underway p stages.length w).logger.tokens[w.logger.tokens.size]? =
      some ⟨w.logger.connected, false⟩ := by
    simp [underway, told, connecting, Logger.connect]
  -- the token of the run is there when the stages begin, and not at hand for them
  have hkept : ∀ {v sc'}, Progresses (underway p stages.length w) (sc.begin p stages.length) v sc' →
      v.logger.tokens[w.logger.tokens.size]? = some ⟨w.logger.connected, false⟩ ∧
        (⟨w.logger.tokens.size⟩ : TokenId) ∉ v.memory := by
    rintro v sc' ⟨-, said, -, hlater⟩
    have hin : w.logger.tokens.size < (underway p stages.length w).logger.tokens.size := by
      simp [underway, told, connecting, Logger.connect]
    obtain ⟨hsame, hhand⟩ := hlater.others ⟨w.logger.tokens.size⟩ hin fun hmem =>
      Nat.lt_irrefl _ (h.issued _ hmem)
    exact ⟨hsame.trans htoken, hhand⟩
  have hends : ∀ {v sc'}, Progresses (underway p stages.length w) (sc.begin p stages.length) v sc' →
      Progresses w sc { v with logger := v.logger.restored ⟨w.logger.tokens.size⟩ w.logger.connected }
        { sc' with current := sc.current } := by
    intro v sc' hprogress
    rw [← h.current]
    exact (hbegin.trans hprogress).restored (Nat.le_refl _) (hkept hprogress).2 _
  have hrun : (leaves (pipeline stages tree (underway p stages.length w))).logger.tokens[
      w.logger.tokens.size]? = some ⟨w.logger.connected, false⟩ →
      runStages p stages tree w = dressed (fun u => { u with
        logger := u.logger.restored ⟨w.logger.tokens.size⟩ w.logger.connected })
        (pipeline stages tree (underway p stages.length w)) := runStages_of_unused
  obtain ⟨v, sc', hends', rfl, hprogress⟩ | ⟨fault, v, sc', hends', rfl, hprogress⟩ := hstages.ends
  · rw [hends'] at hrun
    rw [hrun (hkept hprogress).1]
    exact ⟨rfl, hends hprogress⟩
  · rw [hends'] at hrun
    rw [hrun (hkept hprogress).1]
    exact ⟨rfl, hends hprogress⟩

end Steps

/-! ## Programs -/

theorem length_stagesOf (stages : List (List LogStep)) : (stagesOf stages).length = stages.length := by
  induction stages with
  | nil => rfl
  | cons steps rest ih =>
    rw [stagesOf, List.length_cons, List.length_cons, ih]

mutual

/-- A step does what is told of it. -/
theorem perform_enacts (step : LogStep) (tree : NodeId) {w : Workspace (List TokenId)} {sc : Scene}
    (h : sc.InStep w) : Enacts () w sc (step.perform tree w) (step.tell sc) := by
  match step with
  | .say message level => exact h.say message level
  | .connect state => exact h.connect state
  | .disconnect place => exact h.disconnect place
  | .fail fault => exact ⟨rfl, .refl h⟩
  | .attempt steps => exact Enacts.attempt (performAll_enacts steps tree h)
  | .run p stages =>
    have hbegin := (h.begin p (stagesOf stages).length).1
    have hrun := h.run (pipeline_enacts stages tree hbegin)
    rw [LogStep.perform, LogStep.tell]
    rw [length_stagesOf] at hrun
    exact hrun.answer ()

theorem performAll_enacts (steps : List LogStep) (tree : NodeId) {w : Workspace (List TokenId)}
    {sc : Scene} (h : sc.InStep w) : Enacts () w sc (performAll steps tree w) (tellAll steps sc) := by
  match steps with
  | [] => exact ⟨rfl, .refl h⟩
  | step :: rest =>
    exact Enacts.bind (perform_enacts step tree h) fun h' => performAll_enacts rest tree h'

theorem pipeline_enacts (stages : List (List LogStep)) (tree : NodeId)
    {w : Workspace (List TokenId)} {sc : Scene} (h : sc.InStep w) :
    Enacts tree w sc (pipeline (stagesOf stages) tree w) (tellStages stages sc) := by
  match stages with
  | [] => exact ⟨rfl, .refl h⟩
  | steps :: rest =>
    have hstage := (performAll_enacts steps tree h).answer (none : Option NodeId)
    rw [stagesOf, pipeline_cons, tellStages]
    exact Enacts.bind hstage fun h' => pipeline_enacts rest tree h'

end

/-- What was current before a run is current again when it has ended. -/
theorem Scene.current_finish {sc sc' : Scene} {r : EStateM.Result Fault Scene Unit}
    (h : sc.finish r = .ok () sc' ∨ ∃ fault, sc.finish r = .error fault sc') :
    sc'.current = sc.current := by
  cases r with
  | ok _ u =>
    obtain h | ⟨fault, h⟩ := h
    · injection h with _ h
      rw [← h]
    · cases h
  | error fault u =>
    obtain h | ⟨fault', h⟩ := h
    · cases h
    · injection h with _ h
      rw [← h]

/-- What is told of a run that begins in a workspace. -/
def toldRun (p : ProcessorId) (stages : List (List LogStep)) (w : Workspace (List TokenId)) :
    EStateM.Result Fault Scene Unit :=
  (LogStep.run p stages).tell ⟨w.logger.connected, w.memory.map w.logger.undoing, []⟩

theorem toldRun_eq (p : ProcessorId) (stages : List (List LogStep)) (w : Workspace (List TokenId)) :
    toldRun p stages w = Scene.finish ⟨w.logger.connected, w.memory.map w.logger.undoing, []⟩
      (tellStages stages (Scene.begin ⟨w.logger.connected, w.memory.map w.logger.undoing, []⟩ p
        stages.length)) := by
  rw [toldRun, LogStep.tell]

/-- A run has connected again what was connected before it, and has written what the gate lets through. -/
structure Gates (w : Workspace (List TokenId)) (sc : Scene) (v : Workspace (List TokenId)) : Prop where
  connected : v.logger.connected = w.logger.connected
  log : v.logger = (w.logger.writes (gated w sc.said)).wired w.logger.connected v.logger.tokens
  rest : v = { w with memory := v.memory, logger := v.logger }

theorem Gates.messages {w v : Workspace (List TokenId)} {sc : Scene} (h : Gates w sc v) :
    v.logger.messages = w.logger.messages ++ gated w sc.said := by
  rw [h.log, ← Logger.messages_writes]
  rfl

theorem Progresses.gates {w v : Workspace (List TokenId)} {sc sc' : Scene} (h : Progresses w sc v sc')
    (hsaid : sc.said = []) (hcurrent : sc'.current = w.logger.connected) : Gates w sc' v := by
  obtain ⟨hstep, said, hsaid', hlater⟩ := h
  have hconnected : v.logger.connected = w.logger.connected := hstep.current.trans hcurrent
  refine ⟨hconnected, ?_, hlater.rest⟩
  rw [hsaid', hsaid, List.nil_append, ← hconnected]
  exact hlater.log

/-- **A run is a bracket, and its messages are gated**: whatever its stages say, connect and disconnect,
run and attempt, and however they fail, a run ends as it is told, connects again what was connected before
it, and has written what was said at a level that the verbosity of the state allows which was current
then. -/
theorem runStages_gates (p : ProcessorId) (stages : List (List LogStep)) (tree : NodeId)
    {w : Workspace (List TokenId)} (hissued : ∀ t ∈ w.memory, t.index < w.logger.tokens.size)
    (hdistinct : w.memory.Nodup) :
    match toldRun p stages w with
    | .ok _ sc => ∃ v, runStages p (stagesOf stages) tree w = .ok tree v ∧ Gates w sc v
    | .error fault sc =>
      ∃ v, runStages p (stagesOf stages) tree w = .error (.raised fault) v ∧ Gates w sc v := by
  have hstep : Scene.InStep ⟨w.logger.connected, w.memory.map w.logger.undoing, []⟩ w :=
    ⟨rfl, hissued, hdistinct, rfl⟩
  have hbegin := (hstep.begin p (stagesOf stages).length).1
  have hrun := hstep.run (pipeline_enacts stages tree hbegin)
  rw [length_stagesOf] at hrun
  rw [toldRun_eq]
  obtain ⟨v, sc, hends, htold, hprogress⟩ | ⟨fault, v, sc, hends, htold, hprogress⟩ := hrun.ends
  · rw [htold]
    exact ⟨v, hends, hprogress.gates rfl (Scene.current_finish (.inl htold))⟩
  · rw [htold]
    exact ⟨v, hends, hprogress.gates rfl (Scene.current_finish (.inr ⟨fault, htold⟩))⟩

/-- Two processors, of which the second one, which writes more, is connected. -/
def twoProcessors : Workspace (List TokenId) where
  memory := []
  processors := #[{ verbosity := 1 }, { verbosity := 3 }]
  logger := { connected := .processor ⟨1⟩ }

/-- Two stages: connections are undone out of order, and a nested run leaves one open and fails. -/
def tangledStages : List (List LogStep) :=
  [[.say "own" 1, .connect (.processor ⟨1⟩), .say "louder" 3, .connect .silent, .say "unheard" 0,
      .disconnect 0, .say "own again" 1, .say "too fine" 2, .disconnect 1, .say "louder again" 3],
    [.run ⟨1⟩ [[.connect .absent, .fail .indexOutOfRange]]]]

/-- The run of these stages fails; what it has written was measured by the state that was current. -/
theorem runStages_tangledStages :
    ∃ v, runStages ⟨0⟩ (stagesOf tangledStages) ⟨0⟩ twoProcessors =
        .error (.raised .indexOutOfRange) v ∧
      v.logger.connected = .processor ⟨1⟩ ∧
      v.logger.messages =
        #["own", "louder", "own again", "louder again", "Running 1 transformer(s)"] := by
  have hgates := runStages_gates ⟨0⟩ tangledStages ⟨0⟩ (w := twoProcessors) (by simp [twoProcessors])
    (by decide)
  have htold : ∃ sc, toldRun ⟨0⟩ tangledStages twoProcessors = .error .indexOutOfRange sc ∧
      gated twoProcessors sc.said =
        ["own", "louder", "own again", "louder again", "Running 1 transformer(s)"] :=
    ⟨_, rfl, by decide +kernel⟩
  obtain ⟨sc, hends, hmessages⟩ := htold
  rw [hends] at hgates
  obtain ⟨v, hrun, hv⟩ := hgates
  refine ⟨v, hrun, hv.connected, ?_⟩
  rw [hv.messages, hmessages]
  rfl

end DirectiveLowering
