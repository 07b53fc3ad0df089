import Mathlib.Data.ENat.Lattice
import Mathlib.Order.CompletePartialOrder
import DirectiveLowering.Proofs.Walkable

/-!
# Heights

The height of a node is the length of the longest path from it to a descendant. With shared nodes and
lists there may be many paths to one descendant, and all of them count. A node is grounded if its height is
finite; a closed store has no cycles exactly when all its nodes are grounded.

Results:
* `natCast_le_height`: a node is as high as the paths below it are long.
* `height_le_height_iff`: heights are compared path by path.
* `acyclic_iff_grounded`: there are no cycles where every node is grounded.
* `grounded_of_steps`: nodes stay grounded when their lists only lose members.
-/

namespace DirectiveLowering.Store

variable {s s' : Store} {n k : NodeId} {d e : Nat}

/-! ## Paths -/

/-- There is a path of so many steps from the node down to a descendant. -/
def Descends (s : Store) : Nat → NodeId → Prop
  | 0, _ => True
  | d + 1, n => ∃ k ∈ s.children n, s.Descends d k

@[simp] theorem descends_zero (s : Store) (n : NodeId) : s.Descends 0 n :=
  trivial

theorem descends_succ : s.Descends (d + 1) n ↔ ∃ k ∈ s.children n, s.Descends d k :=
  Iff.rfl

/-- A path can be cut short. -/
theorem Descends.of_le (h : s.Descends d n) (hle : e ≤ d) : s.Descends e n := by
  induction d generalizing e n with
  | zero =>
    obtain rfl : e = 0 := by omega
    exact h
  | succ d ih =>
    cases e with
    | zero => simp
    | succ e =>
      obtain ⟨k, hk, hdown⟩ := h
      exact ⟨k, hk, ih hdown (by omega)⟩

/-- What is below a node has no longer paths than the node. -/
theorem Descends.of_below (h : s.Below n k) (hk : s.Descends d k) : s.Descends d n := by
  induction h with
  | root => exact hk
  | child _ hmem ih =>
    apply ih
    have hdown : s.Descends (d + 1) _ := ⟨_, hmem, hk⟩
    exact hdown.of_le (Nat.le_succ d)

/-! ## The height of a node -/

/-- Length of the longest path from the node down to a descendant; it is infinite if there are paths of
any length. -/
noncomputable def height (s : Store) (n : NodeId) : ℕ∞ :=
  ⨆ (d : ℕ) (_ : s.Descends d n), (d : ℕ∞)

theorem natCast_le_height : (d : ℕ∞) ≤ s.height n ↔ s.Descends d n := by
  constructor
  · intro hle
    by_contra hnot
    obtain ⟨d, rfl⟩ : ∃ c, d = c + 1 := by
      cases d with
      | zero => simp at hnot
      | succ d => exact ⟨d, rfl⟩
    -- every path is shorter, so the height is at most one less
    have hshort : s.height n ≤ d := by
      refine iSup₂_le fun e he => ?_
      have hlt : e < d + 1 := by
        by_contra hge
        exact hnot (he.of_le (by omega))
      exact_mod_cast Nat.le_of_lt_succ hlt
    have hle' : d + 1 ≤ d := by exact_mod_cast hle.trans hshort
    omega
  · intro h
    exact le_iSup₂_of_le d h (le_refl _)

/-- One node is as high as another if every path below the other has one of its length below the one. -/
theorem height_le_height_iff :
    s'.height k ≤ s.height n ↔ ∀ d, s'.Descends d k → s.Descends d n := by
  rw [← ENat.forall_natCast_le_iff_le]
  simp only [natCast_le_height]

/-! ## Grounded nodes -/

/-- The paths down from the node are not arbitrarily long. -/
def Grounded (s : Store) (n : NodeId) : Prop :=
  ∃ d, ¬ s.Descends d n

theorem grounded_iff_height : s.Grounded n ↔ s.height n ≠ ⊤ := by
  rw [ne_eq, ENat.eq_top_iff_forall_ge]
  simp [Grounded, natCast_le_height]

theorem Grounded.of_height_le (h : s.Grounded n) (hle : s'.height k ≤ s.height n) :
    s'.Grounded k := by
  rw [grounded_iff_height] at *
  exact ne_top_of_le_ne_top h hle

/-- One length bounds the paths below all members of a list. -/
theorem exists_not_descends {items : List NodeId} (h : ∀ k ∈ items, s.Grounded k) :
    ∃ d, ∀ k ∈ items, ¬ s.Descends d k := by
  induction items with
  | nil => exact ⟨0, by simp⟩
  | cons first rest ih =>
    obtain ⟨d, hfirst⟩ := h first (by simp)
    obtain ⟨e, hrest⟩ := ih fun k hk => h k (by simp [hk])
    refine ⟨max d e, fun k hk hdown => ?_⟩
    rcases List.mem_cons.1 hk with rfl | hk
    · exact hfirst (hdown.of_le (by omega))
    · exact hrest k hk (hdown.of_le (by omega))

theorem grounded_of_children (h : ∀ k ∈ s.children n, s.Grounded k) : s.Grounded n := by
  obtain ⟨d, hd⟩ := exists_not_descends h
  refine ⟨d + 1, fun hdown => ?_⟩
  obtain ⟨k, hk, hdown⟩ := descends_succ.1 hdown
  exact hd k hk hdown

theorem Grounded.child (h : s.Grounded n) (hk : k ∈ s.children n) : s.Grounded k := by
  obtain ⟨d, hd⟩ := h
  refine ⟨d, fun hdown => ?_⟩
  have hlonger : s.Descends (d + 1) n := ⟨k, hk, hdown⟩
  exact hd (hlonger.of_le (Nat.le_succ d))

/-- Nodes are grounded in a store where each of them is known to be, or had all its children in another
store, in which nodes are grounded. -/
theorem grounded_of_steps (h : ∀ n, s.HasNode n → s.Grounded n) (hclosed : s'.Closed)
    (hstep : ∀ n, s'.HasNode n → s'.Grounded n ∨ s.HasNode n ∧ s'.children n ⊆ s.children n) :
    ∀ n, s'.HasNode n → s'.Grounded n := by
  have hall : ∀ d n, s'.HasNode n → ¬ s.Descends d n → s'.Grounded n := by
    intro d
    induction d with
    | zero =>
      intro n _ hnot
      simp at hnot
    | succ d ih =>
      intro n hn hnot
      rcases hstep n hn with hgrounded | ⟨-, hsub⟩
      · exact hgrounded
      · refine grounded_of_children fun k hk => ih k (hclosed.child hn hk) fun hdown => ?_
        exact hnot ⟨k, hsub hk, hdown⟩
  intro n hn
  rcases hstep n hn with hgrounded | ⟨hold, -⟩
  · exact hgrounded
  · obtain ⟨d, hd⟩ := h n hold
    exact hall d n hn hd

/-! ## Cycles -/

theorem Walkable.not_descends (h : Walkable s s' d n) : ¬ s'.Descends d n := by
  induction h with
  | node _ _ _ ih =>
    rintro ⟨k, hk, hdown⟩
    exact ih k hk hdown

/-- **There are no cycles in a closed store exactly when every node of it has a finite height.** -/
theorem acyclic_iff_grounded (hclosed : s.Closed) :
    s.Acyclic ↔ ∀ n, s.HasNode n → s.Grounded n := by
  constructor
  · intro hacyclic n hn
    obtain ⟨d, hwalkable⟩ := exists_walkable hclosed hacyclic hn
    exact ⟨d, hwalkable.not_descends⟩
  · intro hgrounded n hn k hk hbelow
    -- round the cycle there are paths of any length
    have hround : ∀ d, s.Descends d n := by
      intro d
      induction d with
      | zero => simp
      | succ d ih => exact ⟨k, hk, ih.of_below hbelow⟩
    obtain ⟨d, hnot⟩ := hgrounded n hn
    exact hnot (hround d)

end DirectiveLowering.Store
