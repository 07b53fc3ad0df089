import DirectiveLowering.Proofs.Memory

/-!
# Walks by recursion

The plain way to walk a document is to recurse: visit a node, then walk below each of its children in
turn, reading the list of children once and its length afresh before each position. This module states
that walk and shows that the walk on a stack of frames is the same: it makes the same calls, leaves the
same world and ends alike, whatever its visitor does to the document meanwhile.

Either walk may go on for ever, so either is cut off by a bound: the one on frames by the number of its
steps, the recursive one by depth and position. The comparison is made for all bounds.

Results:
* `recursive_eq_run`: within some budget the frames do exactly what the recursion does within a bound,
  also when the bound cuts it off.
* `run_of_visitNode`: a walk on frames ends as the recursive visit of the root does.
* `run_eq_recursive`: a walk on frames that comes to its end is the recursive one.
* `exists_enter_of_visitNode`, `walkFrom_cases`: what the parts of a recursive walk that come to their end
  have done.
* `exists_visit_of_raised`: a fault that ends a walk was raised by its visitor.
-/

namespace DirectiveLowering.Walk

variable {μ : Type}

/-! ## The recursive walk -/

/-- Visits a node, if its type passes the test now, and walks below it, unless the visitor will not have
it. Answers whether the walk goes on. -/
def visitNode (test : TypeTest) (visit : Visitor μ) (below : NodeId → ListId → Run μ Bool)
    (n : NodeId) (index : Option Nat) (parent : Option NodeId) : Run μ Bool := do
  if test.accepts (← (Effect.readNode n).toRun).type then
    match ← (visit n index parent).toRun with
    | .exit => return false
    | .skip => return true
    | .proceed => below n (← (Effect.readNode n).toRun).children
  else below n (← (Effect.readNode n).toRun).children

/-- Visits the children in a list from a position on, each with what is below it, until the list, as
long as it is then, has no such position. Answers whether the walk goes on. -/
def walkFrom (test : TypeTest) (visit : Visitor μ) :
    (bound : Nat) → (parent : NodeId) → ListId → (position : Nat) → Run μ Bool
  | 0, _, _, _ => throw .outOfBudget
  | bound + 1, parent, l, position => do
    match (← (Effect.readList l).toRun)[position]? with
    | none => return true
    | some n =>
      if ← visitNode test visit (fun n l => walkFrom test visit bound n l 0) n (some position)
          (some parent) then
        walkFrom test visit bound parent l (position + 1)
      else return false

/-- Walks the document below a root, which is visited as well, by recursion. -/
def recursive (test : TypeTest) (visit : Visitor μ) (bound : Nat) (root : NodeId) :
    Run μ Unit := do
  let _ ← visitNode test visit (fun n l => walkFrom test visit bound n l 0) root none none

/-! ## One step of either walk -/

variable {test : TypeTest} {visit : Visitor μ}

theorem enter_of_accepts {n : NodeId} {i : Option Nat} {p : Option NodeId} {w : World μ}
    (h : test.accepts (w.store.node n).type = true) :
    enter test visit n i p w = visit n i p w := by
  rw [enter, Effect.bind_ok (Effect.readNode_apply _ _), if_pos h]

theorem enter_of_rejects {n : NodeId} {i : Option Nat} {p : Option NodeId} {w : World μ}
    (h : test.accepts (w.store.node n).type = false) :
    enter test visit n i p w = .ok .proceed w := by
  rw [enter, Effect.bind_ok (Effect.readNode_apply _ _), h]
  rfl

theorem visitNode_apply (below : NodeId → ListId → Run μ Bool) (n : NodeId) (i : Option Nat)
    (p : Option NodeId) (w : World μ) :
    visitNode test visit below n i p w =
      match enter test visit n i p w with
      | .ok .exit v => .ok false v
      | .ok .skip v => .ok true v
      | .ok .proceed v => below n (v.store.node n).children v
      | .error fault v => .error (.raised fault) v := by
  cases h : test.accepts (w.store.node n).type with
  | true =>
    rw [enter_of_accepts h]
    simp only [visitNode, bind, EStateM.bind, Effect.toRun, Effect.readNode_apply, h, if_true]
    cases visit n i p w with
    | error fault v => rfl
    | ok action v => cases action <;> rfl
  | false =>
    rw [enter_of_rejects h]
    simp [visitNode, bind, EStateM.bind, Effect.toRun, h]

theorem walkFrom_zero (p : NodeId) (l : ListId) (i : Nat) (w : World μ) :
    walkFrom test visit 0 p l i w = .error .outOfBudget w := rfl

theorem walkFrom_of_none {bound : Nat} {p : NodeId} {l : ListId} {i : Nat} {w : World μ}
    (h : (w.store.list l)[i]? = none) : walkFrom test visit (bound + 1) p l i w = .ok true w := by
  simp only [walkFrom, bind, EStateM.bind, Effect.toRun, Effect.readList_apply, h]
  rfl

theorem walkFrom_of_some {bound : Nat} {p : NodeId} {l : ListId} {i : Nat} {w : World μ}
    {n : NodeId} (h : (w.store.list l)[i]? = some n) :
    walkFrom test visit (bound + 1) p l i w =
      match visitNode test visit (fun n l => walkFrom test visit bound n l 0) n (some i) (some p)
        w with
      | .ok true v => walkFrom test visit bound p l (i + 1) v
      | .ok false v => .ok false v
      | .error halt v => .error halt v := by
  simp only [walkFrom, bind, EStateM.bind, Effect.toRun, Effect.readList_apply, h]
  cases visitNode test visit (fun n l => walkFrom test visit bound n l 0) n (some i) (some p) w with
  | error halt v => rfl
  | ok goesOn v => cases goesOn <;> rfl

/-- A visit that comes to its end has entered its node, and ends as that tells it to. -/
theorem exists_enter_of_visitNode {below : NodeId → ListId → Run μ Bool} {n : NodeId} {i : Option Nat}
    {p : Option NodeId} {goesOn : Bool} {w v : World μ}
    (h : visitNode test visit below n i p w = .ok goesOn v) :
    ∃ action u, enter test visit n i p w = .ok action u ∧
      match action with
      | .exit => goesOn = false ∧ v = u
      | .skip => goesOn = true ∧ v = u
      | .proceed => below n (u.store.node n).children u = .ok goesOn v := by
  rw [visitNode_apply] at h
  cases henter : enter test visit n i p w with
  | error fault u =>
    rw [henter] at h
    cases h
  | ok action u =>
    rw [henter] at h
    refine ⟨action, u, rfl, ?_⟩
    cases action with
    | exit =>
      cases h
      exact ⟨rfl, rfl⟩
    | skip =>
      cases h
      exact ⟨rfl, rfl⟩
    | proceed => exact h

/-- The walk of a list comes to its end behind the list, or else it has visited the node at its position
and ends as that tells it to. -/
theorem walkFrom_cases {bound : Nat} {p : NodeId} {l : ListId} {i : Nat} {goesOn : Bool} {w v : World μ}
    (h : walkFrom test visit (bound + 1) p l i w = .ok goesOn v) :
    ((w.store.list l)[i]? = none ∧ goesOn = true ∧ v = w) ∨
      ∃ n more u, (w.store.list l)[i]? = some n ∧
        visitNode test visit (fun n l => walkFrom test visit bound n l 0) n (some i) (some p) w =
          .ok more u ∧
        match more with
        | true => walkFrom test visit bound p l (i + 1) u = .ok goesOn v
        | false => goesOn = false ∧ v = u := by
  cases hnext : (w.store.list l)[i]? with
  | none =>
    rw [walkFrom_of_none hnext] at h
    cases h
    exact .inl ⟨rfl, rfl, rfl⟩
  | some n =>
    rw [walkFrom_of_some hnext] at h
    cases hvisit : visitNode test visit (fun n l => walkFrom test visit bound n l 0) n (some i) (some p)
        w with
    | error halt u =>
      rw [hvisit] at h
      cases h
    | ok more u =>
      rw [hvisit] at h
      refine .inr ⟨n, more, u, rfl, hvisit, ?_⟩
      cases more with
      | true => exact h
      | false =>
        cases h
        exact ⟨rfl, rfl⟩

/-- The bound on a position is checked before the list is read there, so the reading never fails. -/
theorem step_of_none {f : Frame} {rest : List Frame} {w : World μ}
    (h : (w.store.list f.list)[f.position]? = none) :
    step test visit (f :: rest) w = .ok rest w := by
  have hlen : (w.store.list f.list).length ≤ f.position := List.getElem?_eq_none_iff.1 h
  simp [step, bind, EStateM.bind, hlen]

theorem step_of_some {f : Frame} {rest : List Frame} {w : World μ} {n : NodeId}
    (h : (w.store.list f.list)[f.position]? = some n) :
    step test visit (f :: rest) w =
      match enter test visit n (some f.position) (some f.parent) w with
      | .ok .exit v => .ok [] v
      | .ok .skip v => .ok (f.advance :: rest) v
      | .ok .proceed v => .ok (⟨n, (v.store.node n).children, 0⟩ :: f.advance :: rest) v
      | .error fault v => .error fault v := by
  have hlen : ¬ (w.store.list f.list).length ≤ f.position := by
    intro hle
    rw [List.getElem?_eq_none hle] at h
    exact absurd h (by simp)
  simp only [step, bind, EStateM.bind, Effect.readList_apply, if_neg hlen, nodeAt, h,
    Effect.ofExcept_ok]
  cases enter test visit n (some f.position) (some f.parent) w with
  | error fault v => rfl
  | ok action v => cases action <;> rfl

theorem run_apply (budget : Nat) (root : NodeId) (w : World μ) :
    run test visit budget root w =
      match enter test visit root none none w with
      | .ok .exit v => .ok () v
      | .ok .skip v => .ok () v
      | .ok .proceed v => loop test visit budget [⟨root, (v.store.node root).children, 0⟩] v
      | .error fault v => .error (.raised fault) v := by
  simp only [run, bind, EStateM.bind, Effect.toRun]
  cases enter test visit root none none w with
  | error fault v => rfl
  | ok action v => cases action <;> rfl

/-- A larger budget does not change how a walk ends. -/
theorem run_of_le {b b' : Nat} (h : b ≤ b') {root : NodeId} {w : World μ}
    {r : EStateM.Result Halt (World μ) Unit} (hr : run test visit b root w = r)
    (hfinished : ∀ v, r ≠ .error .outOfBudget v) : run test visit b' root w = r := by
  rw [run_apply] at hr ⊢
  split at hr
  · exact hr
  · exact hr
  · exact loop_of_le h hr hfinished
  · exact hr

/-- How the walk ends, whether or not its visitor has ended it. -/
def ended : EStateM.Result Halt (World μ) Bool → EStateM.Result Halt (World μ) Unit
  | .ok _ v => .ok () v
  | .error halt v => .error halt v

theorem ended_ne_outOfBudget {r : EStateM.Result Halt (World μ) Bool}
    (h : ∀ v, r ≠ .error .outOfBudget v) (v : World μ) : ended r ≠ .error .outOfBudget v := by
  intro heq
  cases r with
  | ok goesOn u => cases heq
  | error halt u =>
    cases heq
    exact h v rfl

theorem recursive_apply (bound : Nat) (root : NodeId) (w : World μ) :
    recursive test visit bound root w =
      ended (visitNode test visit (fun n l => walkFrom test visit bound n l 0) root none none w) := by
  simp only [recursive, bind, EStateM.bind]
  cases visitNode test visit (fun n l => walkFrom test visit bound n l 0) root none none w <;> rfl

/-! ## From the recursion to the frames -/

/-- The loop gets from a stack and a world to another stack and world in some number of steps. -/
def Reaches (test : TypeTest) (visit : Visitor μ) (frames : List Frame) (w : World μ)
    (frames' : List Frame) (w' : World μ) : Prop :=
  ∃ k, ∀ budget, loop test visit (k + budget) frames w = loop test visit budget frames' w'

theorem Reaches.refl (frames : List Frame) (w : World μ) :
    Reaches test visit frames w frames w :=
  ⟨0, fun budget => by rw [Nat.zero_add]⟩

theorem Reaches.trans {frames₁ frames₂ frames₃ : List Frame} {w₁ w₂ w₃ : World μ}
    (h₁ : Reaches test visit frames₁ w₁ frames₂ w₂)
    (h₂ : Reaches test visit frames₂ w₂ frames₃ w₃) :
    Reaches test visit frames₁ w₁ frames₃ w₃ := by
  obtain ⟨k₁, h₁⟩ := h₁
  obtain ⟨k₂, h₂⟩ := h₂
  exact ⟨k₁ + k₂, fun budget => by rw [Nat.add_assoc, h₁, h₂]⟩

theorem reaches_of_step {f : Frame} {rest frames : List Frame} {w v : World μ}
    (h : step test visit (f :: rest) w = .ok frames v) :
    Reaches test visit (f :: rest) w frames v :=
  ⟨1, fun budget => by rw [Nat.add_comm, loop_cons, h]⟩

/-- What the loop does with a stack when walking the list of its first frame by recursion ends like
this: it goes on with the frames below, empties the stack, fails likewise, or is still busy in the
world where the bound cut the recursion off. -/
def Leads (test : TypeTest) (visit : Visitor μ) (frames : List Frame) (w : World μ)
    (rest : List Frame) : EStateM.Result Halt (World μ) Bool → Prop
  | .ok true v => Reaches test visit frames w rest v
  | .ok false v => Reaches test visit frames w [] v
  | .error (.raised fault) v =>
    ∃ k, ∀ budget, loop test visit (k + budget) frames w = .error (.raised fault) v
  | .error .outOfBudget v => ∃ f frames', Reaches test visit frames w (f :: frames') v

theorem Reaches.leads {frames frames' rest : List Frame} {w v : World μ}
    {r : EStateM.Result Halt (World μ) Bool} (h : Reaches test visit frames w frames' v)
    (hr : Leads test visit frames' v rest r) : Leads test visit frames w rest r := by
  match r, hr with
  | .ok true u, hr => exact h.trans hr
  | .ok false u, hr => exact h.trans hr
  | .error .outOfBudget u, ⟨f, fs, hr⟩ => exact ⟨f, fs, h.trans hr⟩
  | .error (.raised fault) u, ⟨k, hr⟩ =>
    obtain ⟨k₀, h⟩ := h
    exact ⟨k₀ + k, fun budget => by rw [Nat.add_assoc, h, hr]⟩

theorem leads_of_step_error {f : Frame} {below rest : List Frame} {w v : World μ} {fault : Fault}
    (h : step test visit (f :: below) w = .error fault v) :
    Leads test visit (f :: below) w rest (.error (.raised fault) v) :=
  ⟨1, fun budget => by rw [Nat.add_comm, loop_cons, h]⟩

/-- The invariant behind the comparison: a frame stands for the recursive walk of the rest of its
list, and the frames below it for what the recursion will return to. -/
theorem walkFrom_leads (bound : Nat) (f : Frame) (rest : List Frame) (w : World μ) :
    Leads test visit (f :: rest) w rest
      (walkFrom test visit bound f.parent f.list f.position w) := by
  induction bound generalizing f rest w with
  | zero =>
    rw [walkFrom_zero]
    exact ⟨f, rest, Reaches.refl _ w⟩
  | succ bound ih =>
    cases hn : (w.store.list f.list)[f.position]? with
    | none =>
      rw [walkFrom_of_none hn]
      exact reaches_of_step (step_of_none hn)
    | some n =>
      rw [walkFrom_of_some hn, visitNode_apply]
      have hstep : step test visit (f :: rest) w = _ := step_of_some hn
      cases he : enter test visit n (some f.position) (some f.parent) w with
      | error fault v =>
        rw [he] at hstep
        exact leads_of_step_error hstep
      | ok action v =>
        rw [he] at hstep
        cases action with
        | exit => exact reaches_of_step hstep
        | skip => exact (reaches_of_step hstep).leads (ih f.advance rest v)
        | proceed =>
          -- the child's frame is walked to its end before the frame itself goes on
          have hchild := ih ⟨n, (v.store.node n).children, 0⟩ (f.advance :: rest) v
          refine (reaches_of_step hstep).leads ?_
          dsimp only at hchild ⊢
          cases hr : walkFrom test visit bound n (v.store.node n).children 0 v with
          | ok goesOn u =>
            rw [hr] at hchild
            cases goesOn with
            | true => exact Reaches.leads hchild (ih f.advance rest u)
            | false => exact hchild
          | error halt u =>
            rw [hr] at hchild
            cases halt with
            | raised fault => exact hchild
            | outOfBudget => exact hchild

theorem exists_loop_of_leads {frames : List Frame} {w : World μ}
    {r : EStateM.Result Halt (World μ) Bool} (h : Leads test visit frames w [] r) :
    ∃ budget, loop test visit budget frames w = ended r := by
  match r, h with
  | .ok true v, ⟨k, hk⟩ => exact ⟨k + 0, by rw [hk 0, loop_nil, ended]⟩
  | .ok false v, ⟨k, hk⟩ => exact ⟨k + 0, by rw [hk 0, loop_nil, ended]⟩
  | .error (.raised fault) v, ⟨k, hk⟩ => exact ⟨k + 0, by rw [hk 0, ended]⟩
  | .error .outOfBudget v, ⟨f, frames', k, hk⟩ =>
    exact ⟨k + 0, by rw [hk 0, loop_zero_cons, ended]⟩

variable (test visit) in
/-- Within some budget the walk on frames does exactly what the recursive walk does within a bound,
also when the bound cuts it off. -/
theorem recursive_eq_run (bound : Nat) (root : NodeId) (w : World μ) :
    ∃ budget, run test visit budget root w = recursive test visit bound root w := by
  simp only [recursive_apply, run_apply, visitNode_apply]
  cases enter test visit root none none w with
  | error fault v => exact ⟨0, rfl⟩
  | ok action v =>
    cases action with
    | exit => exact ⟨0, rfl⟩
    | skip => exact ⟨0, rfl⟩
    | proceed =>
      exact exists_loop_of_leads
        (walkFrom_leads bound ⟨root, (v.store.node root).children, 0⟩ [] v)

/-- As the recursive visit of the root ends, if its bound does not cut it off, so ends the walk on
frames, within any budget that is large enough. -/
theorem run_of_visitNode {bound : Nat} {root : NodeId} {w : World μ}
    {r : EStateM.Result Halt (World μ) Bool}
    (h : visitNode test visit (fun n l => walkFrom test visit bound n l 0) root none none w = r)
    (hfinished : ∀ v, r ≠ .error .outOfBudget v) :
    ∃ budget, ∀ b, budget ≤ b → run test visit b root w = ended r := by
  obtain ⟨budget, hrun⟩ := recursive_eq_run test visit bound root w
  rw [recursive_apply, h] at hrun
  exact ⟨budget, fun b hb => run_of_le hb hrun (ended_ne_outOfBudget hfinished)⟩

/-! ## From the frames to the recursion -/

/-- What a stack stands for: the rest of each list is walked by recursion within a bound of its own,
the innermost list first, unless the visitor ends the walk. -/
def resume (test : TypeTest) (visit : Visitor μ) : List (Frame × Nat) → Run μ Unit
  | [] => return ()
  | (f, bound) :: rest => do
    if ← walkFrom test visit bound f.parent f.list f.position then resume test visit rest
    else return ()

theorem resume_cons (f : Frame) (bound : Nat) (rest : List (Frame × Nat)) (w : World μ) :
    resume test visit ((f, bound) :: rest) w =
      match walkFrom test visit bound f.parent f.list f.position w with
      | .ok true v => resume test visit rest v
      | .ok false v => .ok () v
      | .error halt v => .error halt v := by
  simp only [resume, bind, EStateM.bind]
  cases walkFrom test visit bound f.parent f.list f.position w with
  | error halt v => rfl
  | ok goesOn v => cases goesOn <;> rfl

theorem resume_singleton (f : Frame) (bound : Nat) (w : World μ) :
    resume test visit [(f, bound)] w =
      ended (walkFrom test visit bound f.parent f.list f.position w) := by
  rw [resume_cons]
  cases walkFrom test visit bound f.parent f.list f.position w with
  | error halt v => rfl
  | ok goesOn v => cases goesOn <;> rfl

variable (test visit) in
/-- One step on the frames, in terms of what they stand for. -/
theorem resume_step (f : Frame) (bound : Nat) (rest : List (Frame × Nat)) (w : World μ) :
    match step test visit (f :: rest.map Prod.fst) w with
    | .ok frames v => ∃ pending, pending.map Prod.fst = frames ∧
        (∀ e ∈ pending, e.2 = bound ∨ e ∈ rest) ∧
        resume test visit ((f, bound + 1) :: rest) w = resume test visit pending v
    | .error fault v =>
      resume test visit ((f, bound + 1) :: rest) w = .error (.raised fault) v := by
  rw [resume_cons]
  cases hn : (w.store.list f.list)[f.position]? with
  | none =>
    rw [step_of_none hn, walkFrom_of_none hn]
    exact ⟨rest, rfl, fun e he => Or.inr he, rfl⟩
  | some n =>
    rw [step_of_some hn, walkFrom_of_some hn, visitNode_apply]
    cases enter test visit n (some f.position) (some f.parent) w with
    | error fault v => rfl
    | ok action v =>
      cases action with
      | exit => exact ⟨[], rfl, by simp, rfl⟩
      | skip =>
        refine ⟨(f.advance, bound) :: rest, rfl, ?_, by rw [resume_cons]; rfl⟩
        intro e he
        rcases List.mem_cons.1 he with rfl | he
        · exact Or.inl rfl
        · exact Or.inr he
      | proceed =>
        refine ⟨(⟨n, (v.store.node n).children, 0⟩, bound) :: (f.advance, bound) :: rest, rfl, ?_, ?_⟩
        · intro e he
          rcases List.mem_cons.1 he with rfl | he
          · exact Or.inl rfl
          rcases List.mem_cons.1 he with rfl | he
          · exact Or.inl rfl
          · exact Or.inr he
        · rw [resume_cons]
          dsimp only
          cases walkFrom test visit bound n (v.store.node n).children 0 v with
          | error halt u => rfl
          | ok goesOn u =>
            cases goesOn with
            | true => exact (resume_cons f.advance bound rest u).symm
            | false => rfl

variable (test visit) in
/-- As long as the bounds are beyond the budget, a loop that comes to its end is what its frames stand
for, and one that does not stops on the way. -/
theorem loop_eq_resume (budget : Nat) (pending : List (Frame × Nat)) (w : World μ)
    (hbound : ∀ e ∈ pending, budget < e.2) :
    match loop test visit budget (pending.map Prod.fst) w with
    | .error .outOfBudget v =>
      ∃ pending', resume test visit pending w = resume test visit pending' v
    | r => resume test visit pending w = r := by
  induction budget generalizing pending w with
  | zero =>
    cases pending with
    | nil => rfl
    | cons e rest => exact ⟨e :: rest, rfl⟩
  | succ budget ih =>
    match pending with
    | [] => rfl
    | (f, 0) :: rest => exact absurd (hbound (f, 0) (by simp)) (by omega)
    | (f, bound + 1) :: rest =>
      have hf : budget + 1 < bound + 1 := hbound (f, bound + 1) (by simp)
      have hstep := resume_step test visit f bound rest w
      rw [List.map_cons, loop_cons]
      cases hs : step test visit (f :: rest.map Prod.fst) w with
      | error fault v =>
        rw [hs] at hstep
        exact hstep
      | ok frames v =>
        rw [hs] at hstep
        obtain ⟨pending', rfl, hmem, heq⟩ := hstep
        have hbound' : ∀ e ∈ pending', budget < e.2 := by
          intro e he
          rcases hmem e he with h | h
          · omega
          · have := hbound e (List.mem_cons_of_mem _ h)
            omega
        dsimp only
        rw [heq]
        exact ih pending' v hbound'

variable (test visit) in
/-- The recursive walk ends as the walk on frames does, if that ends; otherwise it passes through the
world in which the budget is used up. -/
theorem run_eq_recursive {budget bound : Nat} (h : budget < bound) (root : NodeId) (w : World μ) :
    match run test visit budget root w with
    | .error .outOfBudget v =>
      ∃ pending, recursive test visit bound root w = resume test visit pending v
    | r => recursive test visit bound root w = r := by
  rw [recursive_apply, run_apply, visitNode_apply]
  cases enter test visit root none none w with
  | error fault v => rfl
  | ok action v =>
    cases action with
    | exit => rfl
    | skip => rfl
    | proceed =>
      dsimp only
      have hloop := loop_eq_resume test visit budget
        [(⟨root, (v.store.node root).children, 0⟩, bound)] v (by simpa using h)
      rw [resume_singleton] at hloop
      exact hloop

theorem recursive_eq_of_run {budget bound : Nat} (h : budget < bound) {root : NodeId}
    {w : World μ} {r : EStateM.Result Halt (World μ) Unit}
    (hr : run test visit budget root w = r) (hfinished : ∀ v, r ≠ .error .outOfBudget v) :
    recursive test visit bound root w = r := by
  have hrun := run_eq_recursive test visit h root w
  rw [hr] at hrun
  match r, hfinished, hrun with
  | .ok _ v, _, hrun => exact hrun
  | .error (.raised fault) v, _, hrun => exact hrun
  | .error .outOfBudget v, hfinished, _ => exact absurd rfl (hfinished v)

/-! ## What every part of a walk keeps -/

variable {R : World μ → World μ → Prop}

theorem keeps_visitNode (hrefl : ∀ w, R w w) (htrans : ∀ u v w, R u v → R v w → R u w)
    (hv : ∀ n i p, Keeps R (visit n i p)) {below : NodeId → ListId → Run μ Bool}
    (hbelow : ∀ n l, Keeps R (below n l)) (n : NodeId) (i : Option Nat) (p : Option NodeId) :
    Keeps R (visitNode test visit below n i p) := by
  have hchildren := Keeps.bind htrans (Keeps.readNode hrefl n).toRun fun node => hbelow n node.children
  refine Keeps.bind htrans (Keeps.readNode hrefl n).toRun fun node => Keeps.ite ?_ hchildren
  refine Keeps.bind htrans (hv n i p).toRun fun action => ?_
  cases action with
  | exit => exact Keeps.pure hrefl _
  | skip => exact Keeps.pure hrefl _
  | proceed => exact hchildren

theorem keeps_walkFrom (hrefl : ∀ w, R w w) (htrans : ∀ u v w, R u v → R v w → R u w)
    (hv : ∀ n i p, Keeps R (visit n i p)) (bound : Nat) (p : NodeId) (l : ListId) (i : Nat) :
    Keeps R (walkFrom test visit bound p l i) := by
  induction bound generalizing p l i with
  | zero => exact Keeps.throw hrefl _
  | succ bound ih =>
    refine Keeps.bind htrans (Keeps.readList hrefl l).toRun fun items => ?_
    cases items[i]? with
    | none => exact Keeps.pure hrefl _
    | some n =>
      refine Keeps.bind htrans
        (keeps_visitNode hrefl htrans hv (fun n l => ih n l 0) n _ _) fun goesOn => ?_
      cases goesOn with
      | true => exact ih p l (i + 1)
      | false => exact Keeps.pure hrefl _

theorem keeps_resume (hrefl : ∀ w, R w w) (htrans : ∀ u v w, R u v → R v w → R u w)
    (hv : ∀ n i p, Keeps R (visit n i p)) (pending : List (Frame × Nat)) :
    Keeps R (resume test visit pending) := by
  induction pending with
  | nil => exact Keeps.pure hrefl _
  | cons e rest ih =>
    obtain ⟨f, bound⟩ := e
    refine Keeps.bind htrans (keeps_walkFrom hrefl htrans hv bound _ _ _) fun goesOn => ?_
    cases goesOn with
    | true => exact ih
    | false => exact Keeps.pure hrefl _

/-! ## Recursive walks that cover others -/

section

variable {ν : Type} {g : ν → μ} {visit : Visitor ν} {visit' : Visitor μ}

theorem covers_visitNode (hv : ∀ n i p, Covers g (visit n i p) (visit' n i p))
    {below : NodeId → ListId → Run ν Bool} {below' : NodeId → ListId → Run μ Bool}
    (hbelow : ∀ n l, Covers g (below n l) (below' n l)) (n : NodeId) (i : Option Nat)
    (p : Option NodeId) :
    Covers g (visitNode test visit below n i p) (visitNode test visit' below' n i p) := by
  have hchildren := Covers.bind (Covers.readNode n).toRun fun node => hbelow n node.children
  refine Covers.bind (Covers.readNode n).toRun fun node => Covers.ite ?_ hchildren
  refine Covers.bind (hv n i p).toRun fun action => ?_
  cases action with
  | exit => exact Covers.pure _
  | skip => exact Covers.pure _
  | proceed => exact hchildren

theorem covers_walkFrom (hv : ∀ n i p, Covers g (visit n i p) (visit' n i p)) (bound : Nat)
    (p : NodeId) (l : ListId) (i : Nat) :
    Covers g (walkFrom test visit bound p l i) (walkFrom test visit' bound p l i) := by
  induction bound generalizing p l i with
  | zero => exact Covers.throw _
  | succ bound ih =>
    refine Covers.bind (Covers.readList l).toRun fun items => ?_
    cases items[i]? with
    | none => exact Covers.pure _
    | some n =>
      refine Covers.bind (covers_visitNode hv (fun n l => ih n l 0) n _ _) fun goesOn => ?_
      cases goesOn with
      | true => exact ih p l (i + 1)
      | false => exact Covers.pure _

theorem covers_recursive (hv : ∀ n i p, Covers g (visit n i p) (visit' n i p)) (bound : Nat)
    (root : NodeId) :
    Covers g (recursive test visit bound root) (recursive test visit' bound root) :=
  Covers.bind (covers_visitNode hv (fun n l => covers_walkFrom hv bound n l 0) root none none)
    fun _ => Covers.pure _

end

/-! ## Faults -/

theorem exists_visit_of_enter {n : NodeId} {i : Option Nat} {p : Option NodeId} {w v : World μ}
    {fault : Fault} (h : enter test visit n i p w = .error fault v) :
    ∃ u, visit n i p u = .error fault v := by
  refine ⟨w, ?_⟩
  simp only [enter, bind, EStateM.bind, Effect.readNode_apply] at h
  by_cases ht : test.accepts (w.store.node n).type = true
  · rwa [if_pos ht] at h
  · rw [if_neg ht] at h
    cases h

theorem exists_visit_of_step {frames : List Frame} {w v : World μ} {fault : Fault}
    (h : step test visit frames w = .error fault v) :
    ∃ n i p u, visit n i p u = .error fault v := by
  match frames with
  | [] => cases h
  | f :: rest =>
    cases hn : (w.store.list f.list)[f.position]? with
    | none =>
      rw [step_of_none hn] at h
      cases h
    | some n =>
      rw [step_of_some hn] at h
      cases he : enter test visit n (some f.position) (some f.parent) w with
      | error fault' u =>
        rw [he] at h
        cases h
        obtain ⟨u', hu'⟩ := exists_visit_of_enter he
        exact ⟨n, _, _, u', hu'⟩
      | ok action u =>
        rw [he] at h
        cases action <;> cases h

theorem exists_visit_of_loop {budget : Nat} {frames : List Frame} {w v : World μ} {fault : Fault}
    (h : loop test visit budget frames w = .error (.raised fault) v) :
    ∃ n i p u, visit n i p u = .error fault v := by
  induction budget generalizing frames w with
  | zero => cases frames <;> cases h
  | succ budget ih =>
    match frames with
    | [] => cases h
    | f :: rest =>
      rw [loop_cons] at h
      cases hs : step test visit (f :: rest) w with
      | error fault' u =>
        rw [hs] at h
        cases h
        exact exists_visit_of_step hs
      | ok frames' u =>
        rw [hs] at h
        exact ih h

/-- A fault that ends a walk was raised by its visitor: the walk raises none itself, though it reads
lists by position while they change. -/
theorem exists_visit_of_raised {budget : Nat} {root : NodeId} {w v : World μ} {fault : Fault}
    (h : run test visit budget root w = .error (.raised fault) v) :
    ∃ n i p u, visit n i p u = .error fault v := by
  rw [run_apply] at h
  cases he : enter test visit root none none w with
  | error fault' u =>
    rw [he] at h
    cases h
    obtain ⟨u', hu'⟩ := exists_visit_of_enter he
    exact ⟨root, none, none, u', hu'⟩
  | ok action u =>
    rw [he] at h
    cases action with
    | exit => cases h
    | skip => cases h
    | proceed => exact exists_visit_of_loop h

end DirectiveLowering.Walk
