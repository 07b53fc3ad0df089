import DirectiveLowering.Fault

/-!
# The log

Messages are written only while a run state is connected whose verbosity allows it. Connecting a state
answers a token; disconnecting with a token puts back the state that was connected before that token
was issued, in whatever order tokens are used, and a token works once. Messages that are written may
also be shown on an error stream.

Results:
* `disconnect_connected`: what is connected after a token has been used.
* `disconnect_connect`: a connection that is undone at once leaves the state as it was.
-/

namespace DirectiveLowering

/-- Identity of a processor. -/
structure ProcessorId where
  index : Nat
deriving DecidableEq, Repr, Inhabited

/-- Identity of a token. -/
structure TokenId where
  index : Nat
deriving DecidableEq, Repr, Inhabited

/-- What can be connected to the log: a value of `_run_state`. -/
inductive RunState
  /-- Nothing. -/
  | absent
  /-- Something without a verbosity, or something that counts as false: nothing is written. -/
  | silent
  /-- A processor, with the verbosity that it has at the time of a message. -/
  | processor (p : ProcessorId)
deriving DecidableEq, Repr, Inhabited

/-- A connection that can be undone. -/
structure Token where
  saved : RunState
  used : Bool := false
deriving DecidableEq, Repr, Inhabited

/-- Level of an error stream: the lower its number, the more is shown. -/
structure SinkLevel where
  number : Nat
deriving DecidableEq, Repr

namespace SinkLevel

/-- The levels that have a name. -/
def named : List (String × SinkLevel) :=
  [("TRACE", ⟨5⟩), ("DEBUG", ⟨10⟩), ("INFO", ⟨20⟩), ("SUCCESS", ⟨25⟩), ("WARNING", ⟨30⟩),
    ("ERROR", ⟨40⟩), ("CRITICAL", ⟨50⟩)]

/-- The level of a name, or the fault of asking for an unknown one. -/
def ofName (s : String) : Except Fault SinkLevel :=
  match named.lookup s with
  | some level => .ok level
  | none => .error (.unknownLevel s)

/-- The level of a number, or the fault of asking for a negative one. -/
def ofInt (n : Int) : Except Fault SinkLevel :=
  if n < 0 then .error (.negativeLevel n) else .ok ⟨n.toNat⟩

/-- Whether a stream of this level shows messages, which are all of the level `DEBUG`. -/
def showsDebug (level : SinkLevel) : Bool :=
  level.number ≤ 10

end SinkLevel

/-- State of the log. -/
structure Logger where
  connected : RunState := .absent
  tokens : Array Token := #[]
  /-- Messages written. -/
  messages : Array String := #[]
  /-- Level of the error stream, once there is one. -/
  sink : Option SinkLevel := none
  /-- Messages shown on the error stream. -/
  shown : Array String := #[]
deriving Inhabited

namespace Logger

/-- Connects a run state (`state_connectToLogger`). -/
def connect (l : Logger) (state : RunState) : TokenId × Logger :=
  (⟨l.tokens.size⟩, { l with connected := state, tokens := l.tokens.push ⟨l.connected, false⟩ })

/-- Puts back the state from before a token was issued (`state_disconnectFromLogger`). -/
def disconnect (l : Logger) (t : TokenId) : Except Fault Logger :=
  match l.tokens[t.index]? with
  | none => .error .tokenReused
  | some token =>
    if token.used then .error .tokenReused
    else
      .ok { l with
        connected := token.saved
        tokens := l.tokens.setIfInBounds t.index { token with used := true } }

/-- Writes a message. -/
def write (l : Logger) (message : String) : Logger :=
  match l.sink with
  | some level =>
    if level.showsDebug then
      { l with messages := l.messages.push message, shown := l.shown.push message }
    else { l with messages := l.messages.push message }
  | none => { l with messages := l.messages.push message }

/-- Adds an error stream of a level, unless there is one already (`logger_attachStderr`); a level that
cannot be had is a fault only then. -/
def attach (l : Logger) (level : Except Fault SinkLevel) : Except Fault Logger :=
  match l.sink with
  | some _ => .ok l
  | none =>
    match level with
    | .ok level => .ok { l with sink := some level }
    | .error fault => .error fault

/-- The log with the messages written and shown so far taken off. -/
def drain (l : Logger) : Logger :=
  { l with messages := #[], shown := #[] }

theorem disconnect_connected {l l' : Logger} {t : TokenId} (h : l.disconnect t = .ok l') :
    ∃ token, l.tokens[t.index]? = some token ∧ token.used = false ∧
      l'.connected = token.saved := by
  unfold disconnect at h
  split at h
  · simp at h
  · next token htoken =>
    split at h
    · simp at h
    · next hused =>
      obtain rfl := Except.ok.inj h
      exact ⟨token, htoken, by simpa using hused, rfl⟩

theorem disconnect_connect (l : Logger) (state : RunState) :
    ∃ l', (l.connect state).2.disconnect (l.connect state).1 = .ok l' ∧
      l'.connected = l.connected := by
  simp [connect, disconnect]

end Logger

end DirectiveLowering
