import DirectiveLowering.Proofs.Saying

/-!
# The bracket of a connection

A computation under a connection begins with the state connected, and whatever it does to the log, the
state from before is connected again after it, as long as it does not use the token of the connection
itself.

Results:
* `connected_of_unused`: a computation under a connection.
* `runStages_of_unused`: a run of a processor.
-/

namespace DirectiveLowering

/-- The log when a token is used, by the state that was connected before it was issued. -/
def Logger.restored (l : Logger) (t : TokenId) (saved : RunState) : Logger :=
  l.wired saved (l.tokens.setIfInBounds t.index ⟨saved, true⟩)

theorem Logger.disconnect_of_unused {l : Logger} {t : TokenId} {saved : RunState}
    (h : l.tokens[t.index]? = some ⟨saved, false⟩) : l.disconnect t = .ok (l.restored t saved) := by
  simp [disconnect, h, restored, wired]

namespace Session

variable {σ α β : Type}

/-! ## Steps of a session -/

theorem bind_ok {x : Session σ α} {f : α → Session σ β} {w v : Workspace σ} {a : α}
    (h : x w = .ok a v) : (x >>= f) w = f a v := by
  simp [bind, EStateM.bind, h]

theorem get_apply (w : Workspace σ) : (get : Session σ (Workspace σ)) w = .ok w w := rfl

/-- The workspace with a state connected. -/
def connecting (state : RunState) (w : Workspace σ) : Workspace σ :=
  { w with logger := (w.logger.connect state).2 }

theorem connect_apply (state : RunState) (w : Workspace σ) :
    connect state w = .ok ⟨w.logger.tokens.size⟩ (connecting state w) := rfl

theorem disconnect_apply (t : TokenId) (w : Workspace σ) :
    disconnect t w =
      match w.logger.disconnect t with
      | .ok logger => .ok () { w with logger }
      | .error fault => .error (.raised fault) w := by
  rw [disconnect, bind_ok (get_apply w)]
  cases w.logger.disconnect t <;> rfl

theorem disconnect_of_unused {t : TokenId} {w : Workspace σ} {saved : RunState}
    (h : w.logger.tokens[t.index]? = some ⟨saved, false⟩) :
    disconnect t w = .ok () { w with logger := w.logger.restored t saved } := by
  rw [disconnect_apply, Logger.disconnect_of_unused h]

/-! ## Connections -/

/-- A computation under a connection whose token it leaves unused: the state from before is connected
again, however the computation ends. -/
theorem connected_of_unused {state : RunState} {x : Session σ α} {w : Workspace σ}
    (h : (leaves (x (connecting state w))).logger.tokens[w.logger.tokens.size]? =
      some ⟨w.logger.connected, false⟩) :
    connected state x w =
      dressed (fun u => { u with
        logger := u.logger.restored ⟨w.logger.tokens.size⟩ w.logger.connected })
        (x (connecting state w)) := by
  simp only [connected, bind, EStateM.bind, connect_apply]
  cases hx : x (connecting state w) with
  | ok a u =>
    rw [hx] at h
    dsimp only
    rw [disconnect_of_unused (t := ⟨w.logger.tokens.size⟩) (w := u) h]
    rfl
  | error halt u =>
    rw [hx] at h
    dsimp only
    rw [disconnect_of_unused (t := ⟨w.logger.tokens.size⟩) (w := u) h]
    rfl

/-- The workspace in which a processor begins its stages, when it has reported how many there are. -/
def underway (p : ProcessorId) (stages : Nat) (w : Workspace σ) : Workspace σ :=
  told (connecting (.processor p) w) [.running stages]

/-- Stages that leave the token of their processor unused: they are applied one after the other, and the
state from before is connected again. -/
theorem runStages_of_unused {p : ProcessorId} {stages : List (NodeId → Session σ (Option NodeId))}
    {tree : NodeId} {w : Workspace σ}
    (h : (leaves (pipeline stages tree (underway p stages.length w))).logger.tokens[w.logger.tokens.size]? =
      some ⟨w.logger.connected, false⟩) :
    runStages p stages tree w =
      dressed (fun u => { u with
        logger := u.logger.restored ⟨w.logger.tokens.size⟩ w.logger.connected })
        (pipeline stages tree (underway p stages.length w)) := by
  have hbody : (do emit (.running stages.length); pipeline stages tree : Session σ NodeId)
      (connecting (.processor p) w) = pipeline stages tree (underway p stages.length w) :=
    bind_ok (emit_apply _ _)
  rw [← hbody] at h ⊢
  exact connected_of_unused h

/-- A processor applies its own stages. -/
theorem process_eq (budget : Nat) (p : ProcessorId) (tree : NodeId) (w : Workspace σ) :
    process budget p tree w =
      runStages p ((stages w p).map fun stage tree => stage.apply budget tree) tree w := by
  rw [process, bind_ok (get_apply w)]

end Session

end DirectiveLowering
