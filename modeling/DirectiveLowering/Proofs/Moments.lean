import DirectiveLowering.Proofs.Calls

/-!
# The course of a walk

A visitor may keep, beside its own memory, an account of its calls: what each was given, the world it
found and how it ended. The account tells the whole course of a walk, and keeping it changes nothing
else. A property that every visit preserves is preserved by the walk, whether or not it comes to its
end; so is a property that connects the account with the world. A visit that fails ends the walk, and
what it leaves may differ from what the others preserve.

Results:
* `covers_observed`: a visitor that keeps an account covers the visitor that does not.
* `invariant_run`: what every visit preserves, the walk preserves.
* `ends_run`: the same, told apart by whether a visit fails.
* `account_run`, `account_ends`: the same for the world together with the account.
* `callsOf_eq_map_momentsOf`: the account lists the calls of the walk.
-/

namespace DirectiveLowering.Walk

variable {μ ν : Type}

/-- A call of a visitor, with the world that it was made in and how it ended. -/
structure Moment (μ : Type) where
  call : Call
  before : World μ
  ending : EStateM.Result Fault (World μ) Action

namespace Moment

/-- The world that the call left. -/
def after (m : Moment μ) : World μ :=
  left m.ending

/-- The answer of the visitor, unless it failed. -/
def answer? (m : Moment μ) : Option Action :=
  match m.ending with
  | .ok action _ => some action
  | .error _ _ => none

end Moment

/-- The moment of a call of a visitor. -/
def moment (visit : Visitor μ) (n : NodeId) (index : Option Nat) (parent : Option NodeId)
    (w : World μ) : Moment μ :=
  ⟨⟨n, index, parent⟩, w, visit n index parent w⟩

/-- The visitor that also keeps an account of its calls, the latest last. -/
def observed (visit : Visitor μ) : Visitor (μ × List (Moment μ)) := fun n index parent w =>
  let m := moment visit n index parent (w.view Prod.fst)
  match m.ending with
  | .ok action v => .ok action ⟨v.store, v.memory, w.memory.2 ++ [m]⟩
  | .error fault v => .error fault ⟨v.store, v.memory, w.memory.2 ++ [m]⟩

/-- The course of a walk. -/
def momentsOf (test : TypeTest) (visit : Visitor μ) (budget : Nat) (root : NodeId) (w : World μ) :
    List (Moment μ) :=
  (left (run test (observed visit) budget root ⟨w.store, w.memory, []⟩)).memory.2

variable {test : TypeTest} {visit : Visitor μ}

/-! ## Keeping the account -/

theorem left_observed (n : NodeId) (i : Option Nat) (p : Option NodeId)
    (w : World (μ × List (Moment μ))) :
    left (observed visit n i p w) =
      ⟨(left (visit n i p (w.view Prod.fst))).store, (left (visit n i p (w.view Prod.fst))).memory,
        w.memory.2 ++ [moment visit n i p (w.view Prod.fst)]⟩ := by
  simp only [observed, moment]
  cases visit n i p (w.view Prod.fst) <;> rfl

/-- A visit that returns adds its moment to the account. -/
theorem observed_of_ok {n : NodeId} {i : Option Nat} {p : Option NodeId}
    {w v : World (μ × List (Moment μ))} {action : Action}
    (h : observed visit n i p w = .ok action v) :
    ∃ m : Moment μ, m.call = ⟨n, i, p⟩ ∧ m.before = w.view Prod.fst ∧ m.after = v.view Prod.fst ∧
      m.answer? = some action ∧ v.memory.2 = w.memory.2 ++ [m] := by
  simp only [observed, moment] at h
  cases hv : visit n i p (w.view Prod.fst) with
  | ok action' u =>
    rw [hv] at h
    cases h
    exact ⟨⟨⟨n, i, p⟩, w.view Prod.fst, .ok action u⟩, rfl, rfl, rfl, rfl, rfl⟩
  | error fault u =>
    rw [hv] at h
    cases h

theorem covers_observed (n : NodeId) (i : Option Nat) (p : Option NodeId) :
    Covers Prod.fst (observed visit n i p) (visit n i p) := by
  intro w
  simp only [observed, moment]
  cases visit n i p (w.view Prod.fst) <;> rfl

variable (test visit) in
/-- Keeping an account changes nothing else. -/
theorem run_observed (budget : Nat) (root : NodeId) (w : World μ) :
    viewed Prod.fst (run test (observed visit) budget root ⟨w.store, w.memory, []⟩) =
      run test visit budget root w :=
  Covers.run covers_observed budget root _

theorem left_viewed {ε α : Type} {g : ν → μ} (r : EStateM.Result ε (World ν) α) :
    left (viewed g r) = (left r).view g := by
  cases r <;> rfl

/-- The account lists the calls of the walk. -/
theorem callsOf_eq_map_momentsOf (budget : Nat) (root : NodeId) (w : World μ) :
    callsOf (run test · budget root) visit w =
      (momentsOf test visit budget root w).map Moment.call := by
  have hlogged : ∀ n i p, Covers
      (fun memory : μ × List (Moment μ) => (memory.1, memory.2.map Moment.call))
      (observed visit n i p) (logged visit n i p) := by
    rintro n i p ⟨s, m, moments⟩
    simp only [view_mk, logged_apply, observed, moment]
    cases visit n i p ⟨s, m⟩ <;> simp
  have hrun : viewed _ (run test (observed visit) budget root ⟨w.store, w.memory, []⟩) =
      run test (logged visit) budget root ⟨w.store, w.memory, []⟩ :=
    Covers.run hlogged budget root ⟨w.store, w.memory, []⟩
  rw [callsOf, ← hrun, left_viewed]
  rfl

/-! ## Invariants of a walk -/

/-- A node that a walk may come to: its root, or a member of some list. -/
def Meets (root : NodeId) (s : Store) (n : NodeId) : Prop :=
  n = root ∨ ∃ l, n ∈ s.list l

/-- Where the visitor returns it preserves one property of worlds, and where it fails it leaves a world
with another, at every node that a walk may call it on. -/
def Brings (test : TypeTest) (visit : Visitor μ) (root : NodeId) (P : World μ → Prop)
    (Q : Fault → World μ → Prop) : Prop :=
  ∀ n i p w, Meets root w.store n → test.accepts (w.store.node n).type = true → P w →
    EndsWith P Q (visit n i p w)

/-- The visitor preserves a property of worlds at every node that a walk may call it on. -/
def Preserves (test : TypeTest) (visit : Visitor μ) (root : NodeId) (K : World μ → Prop) : Prop :=
  ∀ n i p w, Meets root w.store n → test.accepts (w.store.node n).type = true → K w →
    K (left (visit n i p w))

theorem Preserves.brings {root : NodeId} {K : World μ → Prop} (h : Preserves test visit root K) :
    Brings test visit root K fun _ => K :=
  fun n i p w hmeets hn hw => ends_same.2 (h n i p w hmeets hn hw)

/-- What a walk leaves when it stops, by what its visitor preserves and what it leaves when it fails. -/
def stopped (P : World μ → Prop) (Q : Fault → World μ → Prop) : Halt → World μ → Prop
  | .raised fault, w => Q fault w
  | .outOfBudget, w => P w

section Invariant

variable {root : NodeId} {P : World μ → Prop} {Q : Fault → World μ → Prop}
  (hvisit : Brings test visit root P Q)
include hvisit

theorem ends_enter {n : NodeId} (i : Option Nat) (p : Option NodeId) {w : World μ}
    (hmeets : Meets root w.store n) (h : P w) : EndsWith P Q (enter test visit n i p w) := by
  by_cases hn : test.accepts (w.store.node n).type = true
  · rw [enter_of_accepts hn]
    exact hvisit n i p w hmeets hn h
  · rw [enter_of_rejects (by simpa using hn)]
    exact h

theorem ends_step (frames : List Frame) {w : World μ} (h : P w) :
    EndsWith P Q (step test visit frames w) := by
  match frames with
  | [] => exact h
  | f :: rest =>
    cases hn : (w.store.list f.list)[f.position]? with
    | none =>
      rw [step_of_none hn]
      exact h
    | some n =>
      have hmeets : Meets root w.store n := Or.inr ⟨f.list, List.mem_of_getElem? hn⟩
      have henter := ends_enter hvisit (some f.position) (some f.parent) hmeets h
      rw [step_of_some hn]
      cases he : enter test visit n (some f.position) (some f.parent) w with
      | error fault v =>
        rw [he] at henter
        exact henter
      | ok action v =>
        rw [he] at henter
        cases action <;> exact henter

theorem ends_loop (budget : Nat) (frames : List Frame) {w : World μ} (h : P w) :
    EndsWith P (stopped P Q) (loop test visit budget frames w) := by
  induction budget generalizing frames w with
  | zero => cases frames <;> exact h
  | succ budget ih =>
    match frames with
    | [] => exact h
    | f :: rest =>
      have hstep := ends_step hvisit (f :: rest) h
      rw [loop_cons]
      cases hs : step test visit (f :: rest) w with
      | ok frames' v =>
        rw [hs] at hstep
        exact ih frames' hstep
      | error fault v =>
        rw [hs] at hstep
        exact hstep

/-- What every visit preserves, the walk preserves as long as no visit fails; where one does, the walk
ends, in the world which that visit left. -/
theorem ends_run (budget : Nat) {w : World μ} (h : P w) :
    EndsWith P (stopped P Q) (run test visit budget root w) := by
  have henter := ends_enter hvisit none none (Or.inl rfl) h
  rw [run_apply]
  cases he : enter test visit root none none w with
  | error fault v =>
    rw [he] at henter
    exact henter
  | ok action v =>
    rw [he] at henter
    cases action with
    | exit => exact henter
    | skip => exact henter
    | proceed => exact ends_loop hvisit budget _ henter

end Invariant

theorem left_of_ends {K : World μ → Prop} {α : Type} {r : EStateM.Result Halt (World μ) α}
    (h : EndsWith K (stopped K fun _ => K) r) : K (left r) := by
  match r, h with
  | .ok a v, h => exact h
  | .error (.raised fault) v, h => exact h
  | .error .outOfBudget v, h => exact h

/-- What every visit preserves, the walk preserves, also when it does not come to its end. -/
theorem invariant_run {root : NodeId} {K : World μ → Prop} (hvisit : Preserves test visit root K)
    (budget : Nat) {w : World μ} (h : K w) : K (left (run test visit budget root w)) :=
  left_of_ends (ends_run hvisit.brings budget h)

/-- The account of a walk by what its visits preserve, as long as none fails, and by what is left when
one does. -/
theorem account_ends {root : NodeId} {J : List (Moment μ) → World μ → Prop}
    {F : List (Moment μ) → Fault → World μ → Prop}
    (hvisit : ∀ moments n i p w, Meets root w.store n → test.accepts (w.store.node n).type = true →
      J moments w → EndsWith (J (moments ++ [moment visit n i p w]))
        (F (moments ++ [moment visit n i p w])) (visit n i p w))
    (budget : Nat) {w : World μ} (h : J [] w) :
    EndsWith (J (momentsOf test visit budget root w))
      (stopped (J (momentsOf test visit budget root w)) (F (momentsOf test visit budget root w)))
      (run test visit budget root w) := by
  have hkept : Brings test (observed visit) root (fun u => J u.memory.2 (u.view Prod.fst))
      fun fault u => F u.memory.2 fault (u.view Prod.fst) := by
    intro n i p u hmeets hn hu
    have hv := hvisit u.memory.2 n i p (u.view Prod.fst) hmeets hn hu
    simp only [observed, moment] at hv ⊢
    cases hr : visit n i p (u.view Prod.fst) with
    | ok action v =>
      rw [hr] at hv
      exact hv
    | error fault v =>
      rw [hr] at hv
      exact hv
  have hends : EndsWith _ _ (run test (observed visit) budget root ⟨w.store, w.memory, []⟩) :=
    ends_run hkept budget h
  rw [← run_observed, momentsOf]
  match run test (observed visit) budget root ⟨w.store, w.memory, []⟩, hends with
  | .ok _ v, hends => exact hends
  | .error (.raised fault) v, hends => exact hends
  | .error .outOfBudget v, hends => exact hends

/-- What connects the account so far with the world, and is preserved by every visit, connects the
course of the walk with the world that it leaves. -/
theorem account_run {root : NodeId} {J : List (Moment μ) → World μ → Prop}
    (hvisit : ∀ moments n i p w, Meets root w.store n → test.accepts (w.store.node n).type = true →
      J moments w → J (moments ++ [moment visit n i p w]) (left (visit n i p w)))
    (budget : Nat) {w : World μ} (h : J [] w) :
    J (momentsOf test visit budget root w) (left (run test visit budget root w)) :=
  left_of_ends (account_ends (F := fun moments _ => J moments)
    (fun moments n i p w hmeets hn hw => ends_same.2 (hvisit moments n i p w hmeets hn hw)) budget h)

/-- The account is only ever added to. -/
theorem account_loop {budget : Nat} {frames : List Frame} {w w' : World (μ × List (Moment μ))}
    (h : loop test (observed visit) budget frames w = .ok () w') :
    ∃ later, w'.memory.2 = w.memory.2 ++ later := by
  have hkept : ∀ root, Preserves test (observed visit) root fun u => w.memory.2 <+: u.memory.2 := by
    intro root n i p u _ _ hu
    rw [left_observed]
    exact hu.trans (List.prefix_append _ _)
  have hloop := left_of_ends (ends_loop (hkept default).brings budget frames (List.prefix_refl _))
  rw [h] at hloop
  obtain ⟨later, hlater⟩ := hloop
  exact ⟨later, hlater.symm⟩

end DirectiveLowering.Walk
