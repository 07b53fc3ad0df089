import DirectiveLowering.Proofs.Recursion

/-!
# Calls of a visitor

A visitor that keeps a list of its calls beside its own memory shows in which order a walk comes to the
nodes, at which positions and below which parents. Keeping the list changes nothing else.

Results:
* `covers_logged`: a visitor that keeps its calls covers the visitor that does not.
* `run_agrees_with_recursive`: the walk on frames and the recursive walk make the same calls, leave the
  same world and end alike, and neither raises a fault of its own.
-/

namespace DirectiveLowering.Walk

variable {μ : Type}

/-- A call of a visitor: the node, its position and its parent. -/
structure Call where
  node : NodeId
  index : Option Nat
  parent : Option NodeId
deriving DecidableEq, Repr

/-- The visitor that also keeps a list of its calls, the latest last. -/
def logged (visit : Visitor μ) : Visitor (μ × List Call) := fun n index parent => do
  Effect.changeMemory fun (memory, calls) => (memory, calls ++ [⟨n, index, parent⟩])
  Effect.onFirst (visit n index parent)

/-- The calls that a walk makes of a visitor. -/
def callsOf (walk : Visitor (μ × List Call) → Run (μ × List Call) Unit) (visit : Visitor μ)
    (w : World μ) : List Call :=
  (left (walk (logged visit) ⟨w.store, w.memory, []⟩)).memory.2

/-- How a walk that comes to its end ends: it returns, or a fault gets out. -/
def finished : Option Fault → World μ → EStateM.Result Halt (World μ) Unit
  | none, v => .ok () v
  | some fault, v => .error (.raised fault) v

/-! ## Keeping the calls -/

variable {test : TypeTest} {visit : Visitor μ}

theorem logged_apply (n : NodeId) (i : Option Nat) (p : Option NodeId) (s : Store) (m : μ)
    (calls : List Call) :
    logged visit n i p ⟨s, m, calls⟩ =
      match visit n i p ⟨s, m⟩ with
      | .ok action v => .ok action ⟨v.store, v.memory, calls ++ [⟨n, i, p⟩]⟩
      | .error fault v => .error fault ⟨v.store, v.memory, calls ++ [⟨n, i, p⟩]⟩ := by
  simp only [logged, bind, EStateM.bind, Effect.changeMemory_apply, Effect.onFirst]
  cases visit n i p ⟨s, m⟩ <;> rfl

theorem covers_logged (n : NodeId) (i : Option Nat) (p : Option NodeId) :
    Covers Prod.fst (logged visit n i p) (visit n i p) := by
  intro w
  obtain ⟨s, m, calls⟩ := w
  simp only [logged, bind, EStateM.bind, Effect.changeMemory_apply, Effect.onFirst, view_mk]
  cases visit n i p ⟨s, m⟩ <;> rfl

/-- Calls are only ever added. -/
theorem keeps_logged (n : NodeId) (i : Option Nat) (p : Option NodeId) :
    Keeps (fun u v : World (μ × List Call) => u.memory.2 <+: v.memory.2)
      (logged visit n i p) := by
  intro w
  obtain ⟨s, m, calls⟩ := w
  simp only [logged, bind, EStateM.bind, Effect.changeMemory_apply, Effect.onFirst]
  cases visit n i p ⟨s, m⟩ <;> exact List.prefix_append _ _

theorem ne_outOfBudget_of_viewed {R : EStateM.Result Halt (World (μ × List Call)) Unit}
    {ending : Option Fault} {v : World μ} (h : viewed Prod.fst R = finished ending v)
    (u : World (μ × List Call)) : R ≠ .error .outOfBudget u := by
  rintro rfl
  cases ending <;> simp [finished] at h

/-- A visitor that remembers more makes the same calls. -/
theorem callsOf_run_of_covers {ν : Type} {g : ν → μ} {visit' : Visitor ν}
    (hv : ∀ n i p, Covers g (visit' n i p) (visit n i p)) (budget : Nat) (root : NodeId)
    (w : World ν) :
    callsOf (run test · budget root) visit (w.view g) =
      callsOf (run test · budget root) visit' w := by
  have hlogged : ∀ n i p, Covers (fun m : ν × List Call => (g m.1, m.2)) (logged visit' n i p)
      (logged visit n i p) := by
    rintro n i p ⟨s, m, calls⟩
    have hview := hv n i p ⟨s, m⟩
    rw [view_mk] at hview
    rw [view_mk, logged_apply, logged_apply, ← hview]
    cases visit' n i p ⟨s, m⟩ <;> rfl
  have hrun : viewed (fun m : ν × List Call => (g m.1, m.2))
      (run test (logged visit') budget root ⟨w.store, w.memory, []⟩) =
      run test (logged visit) budget root ⟨w.store, g w.memory, []⟩ :=
    Covers.run hlogged budget root ⟨w.store, w.memory, []⟩
  rw [callsOf, callsOf]
  show (left (run test (logged visit) budget root ⟨w.store, g w.memory, []⟩)).memory.2 = _
  rw [← hrun]
  cases run test (logged visit') budget root ⟨w.store, w.memory, []⟩ <;> rfl

/-! ## The same calls -/

theorem run_logged (budget : Nat) (root : NodeId) (w : World μ) :
    viewed Prod.fst (run test (logged visit) budget root ⟨w.store, w.memory, []⟩) =
      run test visit budget root w :=
  Covers.run covers_logged budget root _

theorem recursive_logged (bound : Nat) (root : NodeId) (w : World μ) :
    viewed Prod.fst (recursive test (logged visit) bound root ⟨w.store, w.memory, []⟩) =
      recursive test visit bound root w :=
  covers_recursive covers_logged bound root _

theorem finished_run_iff (root : NodeId) (w v : World μ) (ending : Option Fault)
    (calls : List Call) :
    (∃ budget, run test visit budget root w = finished ending v ∧
        callsOf (run test · budget root) visit w = calls) ↔
      ∃ bound, recursive test visit bound root w = finished ending v ∧
        callsOf (recursive test · bound root) visit w = calls := by
  constructor
  · rintro ⟨budget, hr, hc⟩
    rw [← run_logged] at hr
    have hlogged := recursive_eq_of_run (Nat.lt_succ_self budget) rfl
      (ne_outOfBudget_of_viewed hr)
    refine ⟨budget + 1, ?_, ?_⟩
    · rw [← recursive_logged, hlogged, hr]
    · rw [← hc, callsOf, hlogged, callsOf]
  · rintro ⟨bound, hr, hc⟩
    obtain ⟨budget, hlogged⟩ := recursive_eq_run test (logged visit) bound root
      ⟨w.store, w.memory, []⟩
    refine ⟨budget, ?_, ?_⟩
    · rw [← run_logged, hlogged, recursive_logged, hr]
    · rw [← hc, callsOf, hlogged, callsOf]

/-- A walk on frames that is cut off has made the first calls of the recursive walk. -/
theorem callsOf_run_prefix (budget : Nat) (root : NodeId) (w : World μ) :
    callsOf (run test · budget root) visit w <+:
      callsOf (recursive test · (budget + 1) root) visit w := by
  have h := run_eq_recursive test (logged visit) (Nat.lt_succ_self budget) root
    ⟨w.store, w.memory, []⟩
  simp only [callsOf]
  cases hr : run test (logged visit) budget root ⟨w.store, w.memory, []⟩ with
  | ok _ v =>
    rw [hr] at h
    simp only [h, List.prefix_refl]
  | error halt v =>
    rw [hr] at h
    cases halt with
    | raised fault => simp only [h, List.prefix_refl]
    | outOfBudget =>
      obtain ⟨pending, h⟩ := h
      rw [h]
      exact keeps_resume (R := fun u v : World (μ × List Call) => u.memory.2 <+: v.memory.2)
        (fun _ => List.prefix_refl _) (fun _ _ _ => List.IsPrefix.trans) keeps_logged pending v

/-- **The walk on frames is the recursive walk**, for every visitor: one comes to its end exactly when
the other does, and then they have made the same calls, ended alike and left the same world. Walks that
never end make the same calls for ever. The walk raises nothing itself, in particular it never reads a
list at a position that the list does not have. -/
theorem run_agrees_with_recursive (test : TypeTest) (visit : Visitor μ) (root : NodeId)
    (w : World μ) :
    (∀ ending v calls,
      (∃ budget, run test visit budget root w = finished ending v ∧
          callsOf (run test · budget root) visit w = calls) ↔
        ∃ bound, recursive test visit bound root w = finished ending v ∧
          callsOf (recursive test · bound root) visit w = calls) ∧
    (∀ budget, ∃ bound, callsOf (run test · budget root) visit w <+:
      callsOf (recursive test · bound root) visit w) ∧
    (∀ bound, ∃ budget, callsOf (recursive test · bound root) visit w =
      callsOf (run test · budget root) visit w) ∧
    ∀ budget fault v, run test visit budget root w = .error (.raised fault) v →
      ∃ n i p u, visit n i p u = .error fault v := by
  refine ⟨fun ending v calls => finished_run_iff root w v ending calls, fun budget => ?_,
    fun bound => ?_, fun budget fault v => exists_visit_of_raised⟩
  · exact ⟨budget + 1, callsOf_run_prefix budget root w⟩
  · obtain ⟨budget, h⟩ := recursive_eq_run test (logged visit) bound root
      ⟨w.store, w.memory, []⟩
    exact ⟨budget, by rw [callsOf, ← h, callsOf]⟩

end DirectiveLowering.Walk
