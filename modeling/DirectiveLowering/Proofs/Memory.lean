import DirectiveLowering.Document.Walk

/-!
# Computations that remember more

A computation may keep more in its memory than another one, a list of the calls it makes for instance,
and otherwise do the same. It then covers the other: seen through a view that leaves the surplus out,
its worlds and its ending are those of the other.

Results:
* `Covers.bind`, `Covers.step`, `Covers.loop`, `Covers.run`: a walk whose visitor covers another
  visitor covers the walk of that visitor.
* `Keeps.bind`, `Keeps.ite`: what relates the worlds before and after each part of a computation
  relates those before and after the whole, also when it does not come to its end.
-/

namespace DirectiveLowering

variable {μ ν ε α β : Type}

/-! ## Views of a world -/

/-- The world, with as much of its memory as the view shows. -/
def World.view (g : ν → μ) (w : World ν) : World μ :=
  ⟨w.store, g w.memory⟩

/-- The ending of a computation, in the world as the view shows it. -/
def viewed (g : ν → μ) : EStateM.Result ε (World ν) α → EStateM.Result ε (World μ) α
  | .ok a w => .ok a (w.view g)
  | .error e w => .error e (w.view g)

/-- The world that a computation leaves. -/
def left : EStateM.Result ε (World μ) α → World μ
  | .ok _ w => w
  | .error _ w => w

/-- A computation that has returned leaves a world with the one property; one that has stopped has
stopped for such a reason, and leaves such a world, as the other says. -/
def EndsWith (returns : World μ → Prop) (stops : ε → World μ → Prop) :
    EStateM.Result ε (World μ) α → Prop
  | .ok _ w => returns w
  | .error e w => stops e w

/-- A property of the world that is left, however the computation ends. -/
theorem ends_same {K : World μ → Prop} {r : EStateM.Result ε (World μ) α} :
    EndsWith K (fun _ => K) r ↔ K (left r) := by
  cases r <;> rfl

@[simp] theorem view_mk (g : ν → μ) (s : Store) (m : ν) :
    World.view g ⟨s, m⟩ = ⟨s, g m⟩ := rfl

@[simp] theorem store_view (g : ν → μ) (w : World ν) : (w.view g).store = w.store := rfl

@[simp] theorem viewed_ok (g : ν → μ) (a : α) (w : World ν) :
    viewed g (.ok a w : EStateM.Result ε (World ν) α) = .ok a (w.view g) := rfl

@[simp] theorem viewed_error (g : ν → μ) (e : ε) (w : World ν) :
    viewed g (.error e w : EStateM.Result ε (World ν) α) = .error e (w.view g) := rfl

/-- What is seen to return has returned. -/
theorem exists_ok_of_viewed {g : ν → μ} {r : EStateM.Result ε (World ν) α} {a : α} {w : World μ}
    (h : viewed g r = .ok a w) : ∃ v, r = .ok a v ∧ w = v.view g := by
  cases r with
  | ok b v =>
    cases h
    exact ⟨v, rfl, rfl⟩
  | error e v => cases h

/-! ## Covering -/

/-- The first computation does what the second does and ends as it ends, seen through the view. -/
def Covers (g : ν → μ) (x : EStateM ε (World ν) α) (y : EStateM ε (World μ) α) : Prop :=
  ∀ w, viewed g (x w) = y (w.view g)

namespace Covers

variable {g : ν → μ}

theorem pure (a : α) :
    Covers g (Pure.pure a : EStateM ε (World ν) α) (Pure.pure a) := fun _ => rfl

theorem throw (e : ε) :
    Covers g (throw e : EStateM ε (World ν) α) (throw e) := fun _ => rfl

theorem bind {x : EStateM ε (World ν) α} {y : EStateM ε (World μ) α}
    {f : α → EStateM ε (World ν) β} {h : α → EStateM ε (World μ) β}
    (hx : Covers g x y) (hf : ∀ a, Covers g (f a) (h a)) : Covers g (x >>= f) (y >>= h) := by
  intro w
  have hw := hx w
  simp only [Bind.bind, EStateM.bind]
  rw [← hw]
  cases hr : x w with
  | ok a v => exact hf a v
  | error e v => rfl

theorem ite {p : Prop} [Decidable p] {x x' : EStateM ε (World ν) α}
    {y y' : EStateM ε (World μ) α} (hx : Covers g x y) (hx' : Covers g x' y') :
    Covers g (if p then x else x') (if p then y else y') := by
  by_cases h : p
  · rw [if_pos h, if_pos h]
    exact hx
  · rw [if_neg h, if_neg h]
    exact hx'

theorem readNode (n : NodeId) :
    Covers g (Effect.readNode n : Effect ν Node) (Effect.readNode n) := fun _ => rfl

theorem readList (l : ListId) :
    Covers g (Effect.readList l : Effect ν (List NodeId)) (Effect.readList l) := fun _ => rfl

theorem onStore (f : Store → α × Store) :
    Covers g (Effect.onStore f : Effect ν α) (Effect.onStore f) := fun _ => rfl

theorem changeNode (n : NodeId) (f : Node → Node) :
    Covers g (Effect.changeNode n f : Effect ν Unit) (Effect.changeNode n f) := fun _ => rfl

theorem ofExcept (x : Except Fault α) :
    Covers g (Effect.ofExcept x : Effect ν α) (Effect.ofExcept x) := by
  intro w
  cases x <;> rfl

theorem changeMemory {f : ν → ν} {h : μ → μ} (hf : ∀ m, g (f m) = h (g m)) :
    Covers g (Effect.changeMemory f : Effect ν Unit) (Effect.changeMemory h) := by
  intro w
  simp only [Effect.changeMemory_apply, viewed_ok, World.view, hf]

theorem toRun {x : Effect ν α} {y : Effect μ α} (h : Covers g x y) :
    Covers g x.toRun y.toRun := by
  intro w
  simp only [Effect.toRun]
  rw [← h w]
  cases x w <;> rfl

/-! ## Walks -/

variable {test : TypeTest} {visit : Visitor ν} {visit' : Visitor μ}

theorem enter (hv : ∀ n i p, Covers g (visit n i p) (visit' n i p)) (n : NodeId)
    (i : Option Nat) (p : Option NodeId) :
    Covers g (Walk.enter test visit n i p) (Walk.enter test visit' n i p) :=
  bind (readNode n) fun _ => ite (hv n i p) (pure _)

theorem openFrame (n : NodeId) :
    Covers g (Walk.openFrame n : Effect ν Walk.Frame) (Walk.openFrame n) :=
  bind (readNode n) fun _ => pure _

theorem step (hv : ∀ n i p, Covers g (visit n i p) (visit' n i p)) (frames : List Walk.Frame) :
    Covers g (Walk.step test visit frames) (Walk.step test visit' frames) := by
  cases frames with
  | nil => exact pure _
  | cons f rest =>
    refine bind (readList f.list) fun items => ite (pure _) ?_
    refine bind (ofExcept _) fun n => bind (enter hv n _ _) fun action => ?_
    cases action with
    | proceed => exact bind (openFrame n) fun _ => pure _
    | skip => exact pure _
    | exit => exact pure _

theorem loop (hv : ∀ n i p, Covers g (visit n i p) (visit' n i p)) (budget : Nat)
    (frames : List Walk.Frame) :
    Covers g (Walk.loop test visit budget frames) (Walk.loop test visit' budget frames) := by
  induction budget generalizing frames with
  | zero =>
    cases frames with
    | nil => exact pure _
    | cons f rest => exact throw _
  | succ budget ih =>
    cases frames with
    | nil => exact pure _
    | cons f rest => exact bind (step hv (f :: rest)).toRun ih

theorem run (hv : ∀ n i p, Covers g (visit n i p) (visit' n i p)) (budget : Nat)
    (root : NodeId) :
    Covers g (Walk.run test visit budget root) (Walk.run test visit' budget root) := by
  refine bind (enter hv root none none).toRun fun action => ?_
  cases action with
  | proceed => exact bind (openFrame root).toRun fun f => loop hv budget [f]
  | skip => exact pure _
  | exit => exact pure _

end Covers

/-! ## Relations between the worlds before and after -/

/-- The relation holds between the world a computation starts in and the one it leaves, however it
ends. -/
def Keeps (R : World μ → World μ → Prop) (x : EStateM ε (World μ) α) : Prop :=
  ∀ w, R w (left (x w))

namespace Keeps

variable {R : World μ → World μ → Prop}

theorem pure (hrefl : ∀ w, R w w) (a : α) : Keeps R (Pure.pure a : EStateM ε (World μ) α) :=
  hrefl

theorem throw (hrefl : ∀ w, R w w) (e : ε) :
    Keeps R (throw e : EStateM ε (World μ) α) :=
  hrefl

theorem readNode (hrefl : ∀ w, R w w) (n : NodeId) :
    Keeps R (Effect.readNode n : Effect μ Node) :=
  hrefl

theorem readList (hrefl : ∀ w, R w w) (l : ListId) :
    Keeps R (Effect.readList l : Effect μ (List NodeId)) :=
  hrefl

/-- What the first part keeps is kept by the whole when the second part is not come to, and together
with what the second part keeps otherwise. -/
theorem seq {S T : World μ → World μ → Prop} (hstop : ∀ w v, R w v → T w v)
    (hcomp : ∀ u v w, R u v → S v w → T u w) {x : EStateM ε (World μ) α}
    {f : α → EStateM ε (World μ) β} (hx : Keeps R x) (hf : ∀ a, Keeps S (f a)) :
    Keeps T (x >>= f) := by
  intro w
  have hw := hx w
  simp only [Bind.bind, EStateM.bind]
  cases hr : x w with
  | ok a v =>
    rw [hr] at hw
    exact hcomp _ _ _ hw (hf a v)
  | error e v =>
    rw [hr] at hw
    exact hstop _ _ hw

theorem bind (htrans : ∀ u v w, R u v → R v w → R u w) {x : EStateM ε (World μ) α}
    {f : α → EStateM ε (World μ) β} (hx : Keeps R x) (hf : ∀ a, Keeps R (f a)) :
    Keeps R (x >>= f) :=
  seq (fun _ _ h => h) htrans hx hf

theorem ite {p : Prop} [Decidable p] {x y : EStateM ε (World μ) α} (hx : Keeps R x) (hy : Keeps R y) :
    Keeps R (if p then x else y) := by
  by_cases h : p
  · rw [if_pos h]
    exact hx
  · rw [if_neg h]
    exact hy

theorem toRun {x : Effect μ α} (h : Keeps R x) : Keeps R x.toRun := by
  intro w
  have hw := h w
  simp only [Effect.toRun]
  cases hr : x w <;> rw [hr] at hw <;> exact hw

end Keeps

end DirectiveLowering
