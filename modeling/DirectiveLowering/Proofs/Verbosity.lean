import DirectiveLowering.Proofs.Bracket
import DirectiveLowering.Proofs.PassHistory

/-!
# Verbosity decides what is written and nothing else

A run of transformers under a processor says the same whatever the verbosity of the processor is, and does
the same: the verbosity only selects which of its notices are written.

Results:
* `transform_dressed`, `pipeline_dressed`: a pass and a sequence of passes, apart from what they say.
* `process_dressed`: a run of transformers, apart from what it says.
* `process_recording`: recording the calls of the hooks changes nothing else in a run.
* `process_at_verbosities`: runs at two verbosities.
-/

namespace DirectiveLowering.Session

open Pass

variable {σ τ α : Type}

/-! ## Runs apart from what they say -/

/-- The workspace without log and processors. -/
def bare (w : Workspace σ) : Workspace σ :=
  { w with logger := {}, processors := #[] }

/-- The second workspace with the log and the processors of the first. -/
def dress (w u : Workspace σ) : Workspace σ :=
  { u with logger := w.logger, processors := w.processors }

/-- What a pass says. -/
def Made.notices (p : Made σ) : List Notice :=
  (left (Pass.run (optionsOf p.before p.transformer) p.budget p.root (atStart p.before))).memory.2.notices.toList

/-- The passes of some transformers over a document, one after the other until one stops short. -/
def passes (budget : Nat) (tree : NodeId) : List TransformerId → Workspace σ → List (Made σ)
  | [], _ => []
  | t :: rest, w =>
    ⟨t, budget, tree, w⟩ ::
      match transform budget t tree w with
      | .ok _ v => passes budget tree rest v
      | .error _ _ => []

theorem told_bare (w : Workspace σ) (said : List Notice) : told (bare w) said = bare w := by
  have hv : verbosity (bare w) = none := rfl
  rw [told, hv, wordings_none, Logger.writes_nil]

/-- Without log and processors a pass leaves no log and no processors. -/
theorem closed_bare (w : Workspace σ) (t : TransformerId) (account : StatsId)
    (v : World (σ × Books)) :
    closed (entered (bare w) t) account v = bare (closed (entered w t) account v) := by
  rw [closed_eq, closed_eq]
  exact told_bare { entered w t with
    store := v.store
    memory := v.memory.1
    ledger := (entered w t).ledger.setIfInBounds account.index v.memory.2.stats } _

/-- What a pass leaves, apart from what it says. -/
theorem closed_dressed (w : Workspace σ) (t : TransformerId) (account : StatsId)
    (v : World (σ × Books)) :
    closed (entered w t) account v =
      told (dress w (closed (entered (bare w) t) account v)) v.memory.2.notices.toList := by
  rw [closed_bare, closed_eq]
  rfl

/-- A pass says what it says, and leaves log and processors alone otherwise. -/
theorem transform_dressed (budget : Nat) (t : TransformerId) (root : NodeId) (w : Workspace σ) :
    transform budget t root w =
      dressed (fun u => told (dress w u) (Made.mk t budget root w).notices)
        (transform budget t root (bare w)) := by
  have hrun : Pass.run (optionsOf (bare w) t) budget root (atStart (bare w)) =
      Pass.run (optionsOf w t) budget root (atStart w) := rfl
  have hsize : (bare w).ledger.size = w.ledger.size := rfl
  rw [transform_apply, transform_apply, hrun, hsize, Made.notices]
  dsimp only
  cases Pass.run (optionsOf w t) budget root (atStart w) with
  | ok a v => exact congrArg _ (closed_dressed w t _ v)
  | error halt v => exact congrArg _ (closed_dressed w t _ v)

/-- The workspace that a pass leaves without log and processors has neither. -/
theorem bare_of_transform {budget : Nat} {t : TransformerId} {root : NodeId} {w u : Workspace σ}
    {account : StatsId} (h : transform budget t root (bare w) = .ok account u) : bare u = u := by
  rw [transform_apply] at h
  cases hr : Pass.run (optionsOf (bare w) t) budget root (atStart (bare w)) with
  | error halt v =>
    rw [hr] at h
    cases h
  | ok a v =>
    rw [hr] at h
    cases h
    rw [closed_bare]
    rfl

/-- A stage that is a pass of a transformer. -/
theorem apply_transform (budget : Nat) (t : TransformerId) (tree : NodeId) (w : Workspace σ) :
    (Stage.transform t).apply budget tree w =
      match transform budget t tree w with
      | .ok _ v => .ok none v
      | .error halt v => .error halt v := by
  simp only [Stage.apply, bind, EStateM.bind]
  cases transform budget t tree w <;> rfl

/-- The stages that are passes of transformers. -/
def transformStages (budget : Nat) (ts : List TransformerId) :
    List (NodeId → Session σ (Option NodeId)) :=
  (ts.map Stage.transform).map fun stage tree => stage.apply budget tree

theorem pipeline_transform (budget : Nat) (t : TransformerId) (ts : List TransformerId)
    (tree : NodeId) (w : Workspace σ) :
    pipeline (transformStages budget (t :: ts)) tree w =
      match transform budget t tree w with
      | .ok _ v => pipeline (transformStages budget ts) tree v
      | .error halt v => .error halt v := by
  rw [transformStages, List.map_cons, List.map_cons, pipeline_cons]
  simp only [bind, EStateM.bind, apply_transform]
  cases transform budget t tree w <;> rfl

/-- A sequence of passes says what its passes say, and leaves log and processors alone otherwise. -/
theorem pipeline_dressed (budget : Nat) (tree : NodeId) (ts : List TransformerId) (w : Workspace σ) :
    pipeline (transformStages budget ts) tree w =
      dressed (fun u => told (dress w u) ((passes budget tree ts w).flatMap Made.notices))
        (pipeline (transformStages budget ts) tree (bare w)) := by
  induction ts generalizing w with
  | nil => exact congrArg (EStateM.Result.ok tree) (told_nil w).symm
  | cons t rest ih =>
    have ht := transform_dressed budget t tree w
    rw [pipeline_transform, pipeline_transform, passes]
    cases hbare : transform budget t tree (bare w) with
    | error halt u =>
      rw [hbare] at ht
      rw [ht]
      simp [dressed]
    | ok account u =>
      rw [hbare] at ht
      have hu : bare (told (dress w u) (Made.mk t budget tree w).notices) = u := bare_of_transform hbare
      rw [ht]
      refine (ih _).trans ?_
      rw [hu]
      refine congrArg (dressed · _) (funext fun u' => ?_)
      exact (told_append (dress w u') _ _).symm

/-! ## A run of transformers -/

/-- What is said in a run of some transformers under a processor. -/
def runNotices (budget : Nat) (p : ProcessorId) (tree : NodeId) (ts : List TransformerId)
    (w : Workspace σ) : List Notice :=
  .running ts.length :: (passes budget tree ts (underway p ts.length w)).flatMap Made.notices

/-- The verbosity of a processor, if it is there. -/
def verbosityOf (w : Workspace σ) (p : ProcessorId) : Option Int :=
  w.processors[p.index]?.map (·.verbosity)

/-- What the stages under a processor have said is written under its verbosity, and its connection is
undone. -/
theorem restored_told (p : ProcessorId) (stages : Nat) (w u : Workspace σ) (said : List Notice) :
    (told (dress (underway p stages w) u) said).logger.restored ⟨w.logger.tokens.size⟩
        w.logger.connected =
      (w.logger.wired w.logger.connected (w.logger.tokens.push ⟨w.logger.connected, true⟩)).writes
        (wordings (verbosityOf w p) (.running stages :: said)) := by
  have hunderway : (underway p stages w).logger = (w.logger.wired (.processor p)
      (w.logger.tokens.push ⟨w.logger.connected, false⟩)).writes
        (wordings (verbosityOf w p) [.running stages]) := rfl
  have htold : (told (dress (underway p stages w) u) said).logger =
      (underway p stages w).logger.writes (wordings (verbosityOf w p) said) := by
    have hv : verbosity (dress (underway p stages w) u) = verbosityOf w p := by
      have hconnected : verbosity (connecting (.processor p) w) = verbosityOf w p := rfl
      rw [← hconnected, ← verbosity_told (connecting (.processor p) w) [.running stages]]
      rfl
    rw [told, hv]
    rfl
  rw [htold, hunderway, ← Logger.writes_append, ← wordings_append, Logger.writes_wired,
    Logger.writes_wired, Logger.restored]
  simp [Logger.wired, Array.setIfInBounds, Array.set_push]

/-- A sequence of passes leaves the token of its processor unused. -/
theorem unused_pipeline (budget : Nat) (p : ProcessorId) (tree : NodeId) (ts : List TransformerId)
    (w : Workspace σ) :
    (leaves (pipeline (transformStages budget ts) tree (underway p ts.length w))).logger.tokens[
      w.logger.tokens.size]? = some ⟨w.logger.connected, false⟩ := by
  rw [pipeline_dressed, leaves_dressed]
  simp [told, dress, underway, connecting, Logger.connect]

theorem process_transforms {w : Workspace σ} {p : ProcessorId} {ts : List TransformerId}
    (hstages : stages w p = ts.map Stage.transform) (budget : Nat) (tree : NodeId) :
    process budget p tree w =
      dressed (fun u => { u with
        logger := u.logger.restored ⟨w.logger.tokens.size⟩ w.logger.connected })
        (pipeline (transformStages budget ts) tree (underway p ts.length w)) := by
  have hlength : (transformStages budget ts : List (NodeId → Session σ (Option NodeId))).length =
      ts.length := by
    simp [transformStages]
  rw [process_eq, hstages, ← transformStages, runStages_of_unused, hlength]
  rw [hlength]
  exact unused_pipeline budget p tree ts w

/-- **A run of transformers apart from what it says**: it says what its passes say, and the log is
connected as before. -/
theorem process_dressed {w : Workspace σ} {p : ProcessorId} {ts : List TransformerId}
    (hstages : stages w p = ts.map Stage.transform) (budget : Nat) (tree : NodeId) :
    process budget p tree w =
      dressed (fun u => { u with
          processors := w.processors
          logger := (w.logger.wired w.logger.connected
            (w.logger.tokens.push ⟨w.logger.connected, true⟩)).writes
              (wordings (verbosityOf w p) (runNotices budget p tree ts w)) })
        (pipeline (transformStages budget ts) tree (bare w)) := by
  have hbare : bare (underway p ts.length w) = bare w := rfl
  rw [process_transforms hstages, pipeline_dressed, hbare, dressed_dressed]
  refine congrArg (dressed · _) (funext fun u => ?_)
  rw [runNotices, ← restored_told p ts.length w u]
  rfl

/-! ## The calls of the hooks in a run -/

/-- The workspace with options that record the calls of their hooks, after some calls. -/
def recording (calls : List HookEvent) (w : Workspace σ) : Workspace (σ × List HookEvent) :=
  { w with memory := (w.memory, calls), options := w.options.map Options.recorded }

/-- The calls of the hooks in a run of a processor. -/
def callsIn (budget : Nat) (p : ProcessorId) (tree : NodeId) (w : Workspace σ) : List HookEvent :=
  (leaves (process budget p tree (recording [] w))).memory.2

theorem extends_optionsOf (calls : List HookEvent) (w : Workspace σ) (t : TransformerId) :
    (optionsOf (recording calls w) t).Extends Prod.fst (optionsOf w t) := by
  have hplain : optionsOf w t = w.options[(transformer w t).options.index]?.getD default := by
    rw [optionsOf, options, Array.getD_eq_getD_getElem?]
  have hrecorded : optionsOf (recording calls w) t =
      (w.options[(transformer w t).options.index]?.map Options.recorded).getD default := by
    rw [← Array.getElem?_map, ← Array.getD_eq_getD_getElem?]
    rfl
  rw [hplain, hrecorded]
  cases w.options[(transformer w t).options.index]? with
  | some o => exact o.extends_recorded
  | none => exact ⟨rfl, fun _ _ => rfl, fun _ _ _ => rfl, fun _ _ => rfl, fun _ _ _ => rfl⟩

/-- Recording the calls changes nothing else in a pass. -/
theorem transform_recording (budget : Nat) (t : TransformerId) (root : NodeId)
    (calls : List HookEvent) (w : Workspace σ) :
    ∃ calls', transform budget t root (recording calls w) =
      dressed (recording calls') (transform budget t root w) := by
  have hcovers := covers_run (extends_optionsOf calls w t) budget root (atStart (recording calls w))
  have hstart : (atStart (recording calls w)).view (viewHooks Prod.fst) = atStart w := rfl
  have hclosed : ∀ (account : StatsId) (v : World ((σ × List HookEvent) × Books)),
      closed (entered (recording calls w) t) account v =
        recording v.memory.1.2 (closed (entered w t) account (v.view (viewHooks Prod.fst))) := by
    intro account v
    rw [closed_eq, closed_eq]
    rfl
  rw [transform_apply, transform_apply, ← hstart, ← hcovers]
  cases Pass.run (optionsOf (recording calls w) t) budget root (atStart (recording calls w)) with
  | ok a v => exact ⟨v.memory.1.2, congrArg _ (hclosed _ v)⟩
  | error halt v => exact ⟨v.memory.1.2, congrArg _ (hclosed _ v)⟩

theorem pipeline_recording (budget : Nat) (tree : NodeId) (ts : List TransformerId)
    (calls : List HookEvent) (w : Workspace σ) :
    ∃ calls', pipeline (transformStages budget ts) tree (recording calls w) =
      dressed (recording calls') (pipeline (transformStages budget ts) tree w) := by
  induction ts generalizing calls w with
  | nil => exact ⟨calls, rfl⟩
  | cons t rest ih =>
    obtain ⟨calls', ht⟩ := transform_recording budget t tree calls w
    rw [pipeline_transform, pipeline_transform, ht]
    cases transform budget t tree w with
    | ok account v => exact ih calls' v
    | error halt v => exact ⟨calls', rfl⟩

/-- **Recording changes nothing**: a run in which the calls of the hooks are recorded ends as the run
itself does, and leaves what that leaves. -/
theorem process_recording {w : Workspace σ} {p : ProcessorId} {ts : List TransformerId}
    (hstages : stages w p = ts.map Stage.transform) (budget : Nat) (tree : NodeId) :
    process budget p tree (recording [] w) =
      dressed (recording (callsIn budget p tree w)) (process budget p tree w) := by
  have hstages' : stages (recording [] w) p = ts.map Stage.transform := hstages
  obtain ⟨calls, hcalls⟩ := pipeline_recording budget tree ts [] (underway p ts.length w)
  have hrecorded : process budget p tree (recording [] w) =
      dressed (recording calls) (process budget p tree w) := by
    have hunderway : underway p ts.length (recording [] w) =
        recording [] (underway p ts.length w) := rfl
    rw [process_transforms hstages', process_transforms hstages, hunderway, hcalls, dressed_dressed,
      dressed_dressed]
    rfl
  have hmemory : callsIn budget p tree w = calls := by
    rw [callsIn, hrecorded, leaves_dressed]
    rfl
  rw [hmemory, hrecorded]

/-! ## What passes say -/

/-- What is said in some passes does not depend on the log and the processors. -/
theorem flatMap_notices_bare (budget : Nat) (tree : NodeId) (ts : List TransformerId)
    (w : Workspace σ) :
    (passes budget tree ts w).flatMap Made.notices =
      (passes budget tree ts (bare w)).flatMap Made.notices := by
  induction ts generalizing w with
  | nil => rfl
  | cons t rest ih =>
    have ht := transform_dressed budget t tree w
    have hfirst : Made.notices ⟨t, budget, tree, w⟩ = Made.notices ⟨t, budget, tree, bare w⟩ := rfl
    rw [passes, passes, List.flatMap_cons, List.flatMap_cons, hfirst]
    cases hbare : transform budget t tree (bare w) with
    | error halt u =>
      rw [hbare] at ht
      rw [ht]
      rfl
    | ok account u =>
      rw [hbare] at ht
      have hu : bare (told (dress w u) (Made.mk t budget tree w).notices) = u := bare_of_transform hbare
      have hrest := ih (told (dress w u) (Made.mk t budget tree w).notices)
      rw [hu] at hrest
      rw [ht]
      exact congrArg _ hrest

/-- A pass that comes to its end says, between its start and its statistics, one thing about each
directive that it has met, in order. -/
theorem notices_of_ok {p : Made σ} {account : StatsId} {u : Workspace σ}
    (h : p.ending = .ok account u) :
    ∃ told, p.notices = .started :: told ++ [.finished (stats u account)] ∧
      (told.length : Int) = (stats u account).visited ∧
      List.Forall₂ (Reports (optionsOf p.before p.transformer)) p.course told := by
  have hbooks := books_run (optionsOf p.before p.transformer) p.budget p.root p.before.store
    p.before.memory
  rw [Made.ending, transform_apply] at h
  rw [Made.notices]
  cases hrun : Pass.run (optionsOf p.before p.transformer) p.budget p.root (atStart p.before) with
  | error halt v =>
    rw [hrun] at h
    cases h
  | ok a v =>
    rw [hrun] at h
    cases h
    rw [atStart] at hrun
    rw [hrun] at hbooks
    obtain ⟨x, hx, hv⟩ := hbooks
    obtain ⟨told, htold, hnotices⟩ := hx.notices
    obtain ⟨labels, -, hstats⟩ := hx.stats
    have hv' : v.memory.2.stats = x.memory.2.stats := by rw [hv]; rfl
    refine ⟨told, ?_, ?_, htold⟩
    · rw [stats_closed, hv']
      rw [hv]
      simp [left, concluded, hnotices]
    · rw [stats_closed, hv', hstats, ← htold.length_eq]
      rfl

/-- Nothing that a pass says has a level beyond that of a detail. -/
theorem level_le_of_mem_notices {p : Made σ} {n : Notice} (h : n ∈ p.notices) : n.level ≤ 3 := by
  obtain ⟨told, ending, hnotices, hlevel, hending⟩ := (books_run (optionsOf p.before p.transformer)
    p.budget p.root p.before.store p.before.memory).exists_told
  rw [Made.notices, atStart, hnotices] at h
  simp only [List.cons_append, List.mem_cons, List.mem_append] at h
  obtain rfl | hn | hn := h
  · exact (by decide : (2 : Int) ≤ 3)
  · exact Int.le_of_eq (hlevel n hn)
  · obtain rfl | ⟨stats, rfl⟩ := hending
    · cases hn
    · rw [List.mem_singleton.1 hn]
      exact (by decide : (2 : Int) ≤ 3)

/-! ## Two verbosities -/

/-- The workspace in which a processor has another verbosity. -/
def withVerbosity (p : ProcessorId) (v : Int) (w : Workspace σ) : Workspace σ :=
  { w with processors := w.processors.modify p.index fun q => { q with verbosity := v } }

/-- The workspace in which a processor has a verbosity and has written some notices. -/
def writing (p : ProcessorId) (v : Int) (said : List Notice) (w : Workspace σ) : Workspace σ :=
  { withVerbosity p v w with logger := w.logger.writes (said.map Notice.text) }

theorem verbosityOf_withVerbosity {w : Workspace σ} {p : ProcessorId}
    (hp : p.index < w.processors.size) (v : Int) :
    verbosityOf (withVerbosity p v w) p = some v := by
  simp only [verbosityOf, withVerbosity, Array.getElem?_modify, if_true]
  rw [Array.getElem?_eq_getElem hp]
  rfl

theorem stages_withVerbosity (w : Workspace σ) (p : ProcessorId) (v : Int) :
    stages (withVerbosity p v w) p = stages w p := by
  simp only [stages, withVerbosity, Array.getD_eq_getD_getElem?, Array.getElem?_modify, if_true]
  cases w.processors[p.index]? <;> rfl

/-- What is said in a run does not depend on the verbosity. -/
theorem runNotices_withVerbosity (budget : Nat) (p : ProcessorId) (tree : NodeId)
    (ts : List TransformerId) (w : Workspace σ) (v : Int) :
    runNotices budget p tree ts (withVerbosity p v w) = runNotices budget p tree ts w := by
  rw [runNotices, runNotices, flatMap_notices_bare, flatMap_notices_bare budget tree ts (underway _ _ w)]
  rfl

/-- A run of transformers at some verbosity: it says the same at any, and writes what is allowed. -/
theorem process_withVerbosity {w : Workspace σ} {p : ProcessorId} (hp : p.index < w.processors.size)
    {ts : List TransformerId} (hstages : stages w p = ts.map Stage.transform) (budget : Nat)
    (tree : NodeId) (v : Int) :
    process budget p tree (withVerbosity p v w) =
      dressed (writing p v ((runNotices budget p tree ts w).filter fun n => n.level ≤ v))
        (dressed (fun u => { u with
            processors := w.processors
            logger := w.logger.wired w.logger.connected
              (w.logger.tokens.push ⟨w.logger.connected, true⟩) })
          (pipeline (transformStages budget ts) tree (bare w))) := by
  have hstages' : stages (withVerbosity p v w) p = ts.map Stage.transform := by
    rw [stages_withVerbosity, hstages]
  rw [process_dressed hstages', verbosityOf_withVerbosity hp, runNotices_withVerbosity,
    wordings_some, dressed_dressed]
  rfl

/-- The hooks are called alike at any verbosity. -/
theorem callsIn_withVerbosity {w : Workspace σ} {p : ProcessorId} (hp : p.index < w.processors.size)
    {ts : List TransformerId} (hstages : stages w p = ts.map Stage.transform) (budget : Nat)
    (tree : NodeId) (v : Int) :
    callsIn budget p tree (withVerbosity p v w) =
      (leaves (pipeline (transformStages budget ts) tree (bare (recording [] w)))).memory.2 := by
  have hstages' : stages (recording [] w) p = ts.map Stage.transform := hstages
  have hrecording : recording [] (withVerbosity p v w) = withVerbosity p v (recording [] w) := rfl
  rw [callsIn, hrecording, process_withVerbosity (w := recording [] w) hp hstages', leaves_dressed,
    leaves_dressed]
  rfl

/-- **Verbosity does not interfere**: at two verbosities a run of transformers from the same workspace
ends alike, leaves the same documents, statistics and connection, and calls the hooks alike. Of the
notices that are written at the higher verbosity those are written at the lower one, in order, whose
level it allows. From verbosity three on everything is written that the passes say, and a pass that comes
to its end says, between its start and its statistics, one thing of level three about each directive that
it has met, in order. -/
theorem process_at_verbosities {w : Workspace σ} {p : ProcessorId} (hp : p.index < w.processors.size)
    {ts : List TransformerId} (hstages : stages w p = ts.map Stage.transform) (budget : Nat)
    (tree : NodeId) {v v' : Int} (hle : v ≤ v') :
    ∃ said : List Notice, (∀ n ∈ said, n.level ≤ v') ∧
      (∃ r : EStateM.Result Halt (Workspace σ) NodeId,
        (leaves r).logger = { w.logger with
          tokens := w.logger.tokens.push ⟨w.logger.connected, true⟩ } ∧
        process budget p tree (withVerbosity p v' w) = dressed (writing p v' said) r ∧
        process budget p tree (withVerbosity p v w) =
          dressed (writing p v (said.filter fun n => n.level ≤ v)) r) ∧
      callsIn budget p tree (withVerbosity p v w) = callsIn budget p tree (withVerbosity p v' w) ∧
      (3 ≤ v' →
        said = .running ts.length ::
          (passes budget tree ts (underway p ts.length (withVerbosity p v' w))).flatMap Made.notices ∧
        ∀ pass ∈ passes budget tree ts (underway p ts.length (withVerbosity p v' w)),
          ∀ account u, pass.ending = .ok account u → ∃ told,
            pass.notices = .started :: told ++ [.finished (stats u account)] ∧
            (told.length : Int) = (stats u account).visited ∧ (∀ n ∈ told, n.level = 3) ∧
            List.Forall₂ (Reports (optionsOf pass.before pass.transformer)) pass.course told) := by
  refine ⟨(runNotices budget p tree ts w).filter fun n => n.level ≤ v', ?_, ⟨_, ?_,
    process_withVerbosity hp hstages budget tree v', ?_⟩, ?_, fun hthree => ⟨?_, ?_⟩⟩
  · intro n hn
    simpa using (List.mem_filter.1 hn).2
  · rw [leaves_dressed]
    rfl
  · have hfilter : ((runNotices budget p tree ts w).filter fun n => n.level ≤ v').filter
        (fun n => n.level ≤ v) = (runNotices budget p tree ts w).filter fun n => n.level ≤ v := by
      rw [List.filter_filter]
      refine List.filter_congr fun n _ => ?_
      by_cases hn : n.level ≤ v
      · simp [hn, Int.le_trans hn hle]
      · simp [hn]
    rw [hfilter]
    exact process_withVerbosity hp hstages budget tree v
  · rw [callsIn_withVerbosity hp hstages, callsIn_withVerbosity hp hstages]
  · rw [← runNotices_withVerbosity budget p tree ts w v', List.filter_eq_self.2]
    · rfl
    · intro n hn
      have hlevel : n.level ≤ 3 := by
        rcases List.mem_cons.1 hn with rfl | hn
        · exact (by decide : (2 : Int) ≤ 3)
        · obtain ⟨pass, -, hn⟩ := List.mem_flatMap.1 hn
          exact level_le_of_mem_notices hn
      simpa using Int.le_trans hlevel hthree
  · intro pass _ account u hok
    obtain ⟨told, hnotices, hlength, hreports⟩ := notices_of_ok hok
    exact ⟨told, hnotices, hlength, level_of_reported hreports, hreports⟩

/-- The shared notes, with a processor that makes two passes over them. -/
def watchedNotes : Workspace Nat :=
  { hesitantNotes with
    memory := 1
    processors := #[{ verbosity := 0, stages := #[.transform ⟨0⟩, .transform ⟨0⟩] }] }

/-- Of the eight notices of the two passes, three are about directives and are not written at verbosity
two. -/
theorem process_watchedNotes :
    ∃ said : List Notice, said.length = 8 ∧ (said.filter fun n => n.level ≤ 2).length = 5 ∧
      (leaves (process 40 ⟨0⟩ ⟨0⟩ (withVerbosity ⟨0⟩ 3 watchedNotes))).logger.messages =
        (said.map Notice.text).toArray ∧
      (leaves (process 40 ⟨0⟩ ⟨0⟩ (withVerbosity ⟨0⟩ 2 watchedNotes))).logger.messages =
        ((said.filter fun n => n.level ≤ 2).map Notice.text).toArray := by
  have hstages : stages watchedNotes ⟨0⟩ = [⟨0⟩, ⟨0⟩].map Stage.transform := rfl
  obtain ⟨said, -, ⟨r, hlogger, hhigh, hlow⟩, -, hsaid⟩ :=
    process_at_verbosities (w := watchedNotes) (p := ⟨0⟩) (by decide) hstages 40 ⟨0⟩
      (by decide : (2 : Int) ≤ 3)
  obtain ⟨hsaid, -⟩ := hsaid (by decide)
  refine ⟨said, ?_, ?_, ?_, ?_⟩
  · rw [hsaid]
    decide +kernel
  · rw [hsaid]
    decide +kernel
  · rw [hhigh, leaves_dressed, writing, Logger.messages_writes, hlogger]
    simp [watchedNotes, hesitantNotes]
  · rw [hlow, leaves_dressed, writing, Logger.messages_writes, hlogger]
    simp [watchedNotes, hesitantNotes]

end DirectiveLowering.Session
