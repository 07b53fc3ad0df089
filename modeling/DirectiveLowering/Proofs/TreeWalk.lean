import DirectiveLowering.Proofs.Finished

/-!
# Walks over a tree

A visitor deals with the directives of trees when it makes of each what the choices say, or stops with a
fault and leaves everything as it was. A walk with such a visitor over a tree comes to an end. Either it
has lowered the tree, or a visit has stopped it on the way: then the directives visited before are in
their final form, everything else is as it was, and what stands at the root now is lowered to the same
tree as what stood there at first.

The proof goes by the bound of the recursive walk, which is to exceed the number of cells: what a visit
leaves below a directive takes up fewer cells than the directive. Siblings do not meet, as the cells that
a tree takes up later are its own or new.

Results:
* `Advanced.append`, `Advanced.below`: trees side by side, and a root with what is below it.
* `walkFrom_ends`, `run_ends`: how the walk of a list and of a document ends.
* `deals_of_follows`: hooks that follow choices deal with directives, and never stop.
* `run_turns_tree`, `run_leaves_tree`: what a pass with such hooks leaves.
-/

namespace DirectiveLowering

namespace Walk

variable {μ : Type} {visit : Visitor μ} {w u v : World μ}

/-- Visiting these directives one after another, each of them ready to be lowered, leads from one world
to another, and no visit ends the walk. -/
inductive Visits (visit : Visitor μ) : World μ → List NodeId → World μ → Prop
  | nil (w : World μ) : Visits visit w [] w
  | cons {w u v : World μ} {n : NodeId} {ns : List NodeId} {i : Option Nat} {p : Option NodeId} :
      w.store.Ready n → visit n i p w = .ok .proceed u → Visits visit u ns v → Visits visit w (n :: ns) v

theorem Visits.append {ns ms : List NodeId} (h₁ : Visits visit w ns u) (h₂ : Visits visit u ms v) :
    Visits visit w (ns ++ ms) v := by
  induction h₁ with
  | nil => exact h₂
  | cons hready hvisit _ ih => exact .cons hready hvisit (ih h₂)

end Walk

open Store

variable {μ : Type} {c : Choices} {slot : Bool} {s s₁ s₂ : Store} {n : NodeId} {ns ms : List NodeId}
  {t : Tree} {ts us ts' us' : List Tree} {cells a b : List Cell} {done more : List NodeId}

/-! ## Trees that are being lowered -/

/-- These directives in some trees have been dealt with. What the trees are now takes up old cells of
theirs or new ones, and is lowered to the same as what they were. -/
structure Advanced (c : Choices) (slot : Bool) (s : Store) (ns : List NodeId) (ts : List Tree)
    (cells : List Cell) (done : List NodeId) (ts' : List Tree) (s' : Store) : Prop where
  held : ∃ cells', s'.HoldsAll ns ts' cells' ∧ s.Turns cells s' cells'
  dealt : Dealt c slot s done s'
  within : ∀ k ∈ done, .node k ∈ cells
  lowered : ts'.map (c.lowerTree slot) = ts.map (c.lowerTree slot)
  plain : ∀ t ∈ ts', t.Everywhere Fields.PlainAttributes

theorem Advanced.refl (hheld : s.HoldsAll ns ts cells) (hnodup : cells.Nodup)
    (hplain : ∀ t ∈ ts, t.Everywhere Fields.PlainAttributes) :
    Advanced c slot s ns ts cells [] ts s where
  held := ⟨cells, hheld, Turns.refl s hnodup⟩
  dealt := Dealt.refl c slot s
  within _ hk := nomatch hk
  lowered := rfl
  plain := hplain

/-- Nothing has been dealt with in between. -/
theorem Advanced.of_unchanged (h : Advanced c slot s ns ts cells done ts' s₁)
    (hsame : Dealt c slot s₁ [] s₂) : Advanced c slot s ns ts cells done ts' s₂ where
  held := by
    obtain ⟨cells', hheld, hturns⟩ := h.held
    refine ⟨cells', hheld.of_grows hsame.grows (fun m _ hm => nomatch hm), hturns.trans ?_⟩
    exact ⟨hsame.grows.mono (fun m _ hm => nomatch hm), hturns.nodup, fun cell hcell => Or.inl hcell⟩
  dealt := by
    have hboth := h.dealt.trans hsame fun m hm => nomatch hm
    rwa [List.append_nil] at hboth
  within := h.within
  lowered := h.lowered
  plain := h.plain

/-- Nodes of other trees are apart. -/
theorem apart_of_append (hheld : s.HoldsAll ms us b) (hnodup : (a ++ b).Nodup)
    (hwithin : ∀ k ∈ done, .node k ∈ a) {k : NodeId} (hk : .node k ∈ b) : Apart s done k := by
  have hout : ∀ m, .node m ∈ b → m ∉ done := fun m hm hin =>
    (List.nodup_append.1 hnodup).2.2 _ (hwithin m hin) _ hm rfl
  obtain ⟨hlist, hchildren⟩ := hheld.family hk
  exact ⟨hout k hk, hlist, fun m hm => ⟨hheld.has _ (hchildren m hm), hout m (hchildren m hm)⟩⟩

/-- Nodes below the root of a tree are apart from the root. -/
theorem apart_of_below (hheld : s.Holds n t cells) (hnodup : cells.Nodup) (hfirst : ∀ k ∈ done, k = n)
    {k : NodeId} (hk : .node k ∈ cells) (hne : k ≠ n) : Apart s done k := by
  cases hheld with
  | @node _ l _ _ own _ _ _ hts =>
    have hown : .node k ∈ own := by simpa [hne] using hk
    obtain ⟨hlist, hchildren⟩ := hts.family hown
    refine ⟨fun hin => hne (hfirst k hin), hlist, fun m hm => ⟨hts.has _ (hchildren m hm), ?_⟩⟩
    intro hin
    rw [hfirst m hin] at hm
    exact (List.nodup_cons.1 hnodup).1 (List.mem_cons_of_mem _ (hchildren n hm))

/-- Trees side by side: the second ones stay as they are while the first ones change. -/
theorem Advanced.append (h₁ : Advanced c slot s ns ts a done ts' s₁)
    (h₂ : Advanced c slot s₁ ms us b more us' s₂) (hheld : s.HoldsAll ms us b)
    (hnodup : (a ++ b).Nodup) :
    Advanced c slot s (ns ++ ms) (ts ++ us) (a ++ b) (done ++ more) (ts' ++ us') s₂ where
  held := by
    obtain ⟨a', hfirst, hturns₁⟩ := h₁.held
    obtain ⟨b', hsecond, hturns₂⟩ := h₂.held
    refine ⟨a' ++ b', (hfirst.of_grows hturns₂.grows fun k hk hk' => ?_).append hsecond,
      hturns₁.append hturns₂ hnodup hheld.has hfirst.has⟩
    rcases hturns₁.fresh _ hk with h | h
    · exact (List.nodup_append.1 hnodup).2.2 _ h _ hk' rfl
    · exact h (hheld.has _ hk')
  dealt := by
    refine h₁.dealt.trans h₂.dealt fun k hk => ?_
    exact apart_of_append hheld hnodup h₁.within (h₂.within k hk)
  within k hk := by
    rcases List.mem_append.1 hk with hk | hk
    · exact List.mem_append_left b (h₁.within k hk)
    · exact List.mem_append_right a (h₂.within k hk)
  lowered := by rw [List.map_append, List.map_append, h₁.lowered, h₂.lowered]
  plain u hu := by
    rcases List.mem_append.1 hu with hu | hu
    · exact h₁.plain u hu
    · exact h₂.plain u hu

/-- Lowering a tree leaves plain attributes everywhere. -/
theorem plain_lowerTree (h : t.Everywhere Fields.PlainAttributes) :
    (c.lowerTree slot t).Everywhere Fields.PlainAttributes := by
  refine Choices.everywhere_lowerTree (fun kind f hdirective => ?_) ?_ h
  · rw [Choices.isDirective_lowered] at hdirective
    cases hdirective
  · intro hdirective
    exact absurd hdirective (by decide)

/-- A root that is what it will be, and then the trees below it. -/
theorem Advanced.below {first below : List NodeId} {f : Fields} {l : ListId} {cells' : List Cell}
    (hheld : s.Holds n t cells) (hnodup : cells.Nodup)
    (hplain : t.Everywhere Fields.PlainAttributes)
    (hdealt : Dealt c slot s first s₁) (hfirst : ∀ k ∈ first, k = n)
    (hturns : s.Turns cells s₁ (.node n :: .list l :: cells'))
    (hn : s₁.HasNode n) (hf : s₁.node n = f.over l) (hl : s₁.HasList l)
    (htree : c.lowerTree slot t = .node f (ts.map (c.lowerTree slot)))
    (hcells : ∀ cell ∈ cells', s₁.Has cell)
    (h : Advanced c slot s₁ (s₁.list l) ts cells' below ts' s₂) :
    Advanced c slot s [n] [t] cells (first ++ below) [.node f ts'] s₂ := by
  have hroot : Cell.node n ∉ cells' := fun hin =>
    (List.nodup_cons.1 hturns.nodup).1 (List.mem_cons_of_mem _ hin)
  have hfate : c.fate f = none := by
    have hlowered : c.fate (c.lowerTree slot t).fields = none := Choices.fate_lowerTree t
    rwa [htree] at hlowered
  -- a directive below the root is an old one, and was below the root before
  have hbelow : ∀ k ∈ below, s.HasNode k ∧ .node k ∈ cells ∧ k ≠ n := by
    intro k hk
    have hold := hdealt.hasNode (h.dealt.directive k hk)
    refine ⟨hold, ?_, ?_⟩
    · refine (hturns.fresh _ ?_).resolve_right fun hnew => hnew hold
      exact List.mem_cons_of_mem _ (List.mem_cons_of_mem _ (h.within k hk))
    · rintro rfl
      exact hroot (h.within k hk)
  constructor
  case held =>
    obtain ⟨below', hheld', hturns'⟩ := h.held
    have hself : s₁.Turns [.node n, .list l] s₁ [.node n, .list l] := Turns.refl s₁ (by simp)
    refine ⟨.node n :: .list l :: below', .singleton (.node (hturns'.grows.hasNode n hn) ?_
      (hturns'.grows.hasList l hl) ?_), hturns.trans (hself.append hturns' hturns.nodup hcells ?_)⟩
    · rw [hturns'.grows.node n hn hroot, hf]
    · rwa [hturns'.grows.list l hl]
    · simpa [Has] using ⟨hn, hl⟩
  case dealt =>
    refine hdealt.trans h.dealt fun k hk => ?_
    obtain ⟨-, hcell, hne⟩ := hbelow k hk
    exact apart_of_below hheld hnodup hfirst hcell hne
  case within =>
    intro k hk
    rcases List.mem_append.1 hk with hk | hk
    · rw [hfirst k hk]
      exact (HoldsAll.singleton hheld).mem_cells n (List.mem_singleton.2 rfl)
    · exact (hbelow k hk).2.1
  case lowered =>
    rw [List.map_singleton, List.map_singleton, htree, Choices.lowerTree_of_none hfate,
      Choices.lowerAll_eq_map, h.lowered]
  case plain =>
    intro u hu
    rw [List.mem_singleton.1 hu]
    refine .node ?_ h.plain
    have hlowered : (c.lowerTree slot t).Everywhere Fields.PlainAttributes := plain_lowerTree hplain
    rw [htree] at hlowered
    cases hlowered with
    | node hf _ => exact hf

/-! ## Visitors that deal with directives -/

/-- At the root of a tree the visitor finishes the directive and goes on with what it leaves below, or it
stops with a fault and leaves everything as it was. -/
def Deals (visit : Visitor μ) (c : Choices) (slot : Bool) : Prop :=
  ∀ (w : World μ) (n : NodeId) (t : Tree) (cells : List Cell) (i : Option Nat) (p : Option NodeId),
    w.store.Holds n t cells → cells.Nodup → t.Everywhere Fields.PlainAttributes →
    (w.store.node n).isDirective = true →
    match visit n i p w with
    | .ok action v => action = .proceed ∧ c.Opens slot w.store n t cells v.store ∧
        Dealt c slot w.store [n] v.store
    | .error _ v => Dealt c slot w.store [] v.store

/-- A walk over some trees has been stopped by a visit, after these directives were dealt with. -/
structure Interrupted (visit : Visitor μ) (c : Choices) (slot : Bool) (w : World μ)
    (ns : List NodeId) (ts : List Tree) (cells : List Cell) (done : List NodeId) (d : NodeId)
    (ts' : List Tree) (u : World μ) (fault : Fault) (v : World μ) : Prop where
  visits : Walk.Visits visit w done u
  advanced : Advanced c slot w.store ns ts cells done ts' u.store
  fresh : d ∉ done
  within : .node d ∈ cells
  family : SameFamily w.store u.store d
  ready : Ready u.store d
  raised : ∃ i p, visit d i p u = .error fault v
  unchanged : Dealt c slot u.store [] v.store

/-- How a walk over some trees ends: they are lowered, or a visit has stopped it. -/
def Ends (visit : Visitor μ) (c : Choices) (slot : Bool) (w : World μ) (ns : List NodeId)
    (ts : List Tree) (cells : List Cell) : EStateM.Result Halt (World μ) Bool → Prop
  | .ok goesOn v => goesOn = true ∧ ∃ done, Walk.Visits visit w done v ∧
      Advanced c slot w.store ns ts cells done (ts.map (c.lowerTree slot)) v.store
  | .error (.raised fault) v => ∃ done d ts' u,
      Interrupted visit c slot w ns ts cells done d ts' u fault v
  | .error .outOfBudget _ => False

variable {visit : Visitor μ} {w v : World μ} {r : EStateM.Result Halt (World μ) Bool}

/-- The first trees have been walked, and then the walk of the others ends. -/
theorem Ends.append (hvisits : Walk.Visits visit w done v)
    (hfirst : Advanced c slot w.store ns ts a done (ts.map (c.lowerTree slot)) v.store)
    (hothers : Ends visit c slot v ms us b r) (hheld : w.store.HoldsAll ms us b)
    (hnodup : (a ++ b).Nodup) : Ends visit c slot w (ns ++ ms) (ts ++ us) (a ++ b) r := by
  match r, hothers with
  | .ok goesOn v', ⟨hgoesOn, more, hvisits', hadvanced⟩ =>
    refine ⟨hgoesOn, done ++ more, hvisits.append hvisits', ?_⟩
    rw [List.map_append]
    exact hfirst.append hadvanced hheld hnodup
  | .error (.raised fault) v', ⟨more, d, us', u, h⟩ =>
    have hapart := apart_of_append hheld hnodup hfirst.within h.within
    have hfamily := hapart.sameFamily (hheld.has _ h.within) hfirst.dealt
    refine ⟨done ++ more, d, _, u, hvisits.append h.visits,
      hfirst.append h.advanced hheld hnodup, fun hin => ?_, List.mem_append_right a h.within,
      hfamily.trans h.family, h.ready, h.raised, h.unchanged⟩
    rcases List.mem_append.1 hin with hin | hin
    · exact (List.nodup_append.1 hnodup).2.2 _ (hfirst.within d hin) _ h.within rfl
    · exact h.fresh hin

/-- The walk has been stopped in the first trees. -/
theorem Interrupted.append {d : NodeId} {u : World μ} {fault : Fault}
    (h : Interrupted visit c slot w ns ts a done d ts' u fault v)
    (hheld : w.store.HoldsAll ms us b) (hnodup : (a ++ b).Nodup)
    (hplain : ∀ t ∈ us, t.Everywhere Fields.PlainAttributes) :
    Interrupted visit c slot w (ns ++ ms) (ts ++ us) (a ++ b) done d (ts' ++ us) u fault v where
  visits := h.visits
  advanced := by
    have hothers := hheld.of_grows h.advanced.dealt.grows fun m hm hin =>
      (List.nodup_append.1 hnodup).2.2 _ (h.advanced.within m hin) _ hm rfl
    have hsame : Advanced c slot u.store ms us b [] us u.store :=
      Advanced.refl hothers (List.nodup_append.1 hnodup).2.1 hplain
    have hboth := h.advanced.append hsame hheld hnodup
    rwa [List.append_nil] at hboth
  fresh := h.fresh
  within := List.mem_append_left b h.within
  family := h.family
  ready := h.ready
  raised := h.raised
  unchanged := h.unchanged

/-! ## The walk -/

/-- A directive in a tree is ready to be lowered. -/
theorem Store.Holds.ready (hheld : s.Holds n t cells) (hplain : t.Everywhere Fields.PlainAttributes)
    (hdirective : (s.node n).isDirective = true) : Ready s n where
  directive := hdirective
  plain := by
    cases hheld with
    | node _ hf _ _ =>
      rw [hf, Fields.toFields_over]
      cases hplain with
      | node hf _ => exact hf
  children k hk := by
    have hn := (HoldsAll.singleton hheld).mem_cells n (List.mem_singleton.2 rfl)
    exact hheld.has _ ((hheld.family hn).2 k hk)

/-- What is left at the root of a tree has been entered, and then the walk below it ends. -/
theorem ends_below {first : List NodeId} (hheld : w.store.Holds n t cells) (hnodup : cells.Nodup)
    (hplain : t.Everywhere Fields.PlainAttributes) (hvisits : Walk.Visits visit w first v)
    (hopens : c.Opens slot w.store n t cells v.store) (hdealt : Dealt c slot w.store first v.store)
    (hfirst : ∀ k ∈ first, k = n) :
    ∃ ts cells', v.store.HasList (v.store.node n).children ∧
      v.store.HoldsAll (v.store.children n) ts cells' ∧ cells'.Nodup ∧
      cells'.length + 2 ≤ cells.length ∧ (∀ t ∈ ts, t.Everywhere Fields.PlainAttributes) ∧
      ∀ r, Ends visit c slot v (v.store.children n) ts cells' r → Ends visit c slot w [n] [t] cells r := by
  obtain ⟨f, ts, cells₁, hheld₁, hturns, hlength, htree, hbelow⟩ := hopens
  cases hheld₁ with
  | @node _ l _ _ below hn hf hl hts =>
    have hchildren : v.store.children n = v.store.list l := by
      rw [Store.children, hf, Fields.children_over]
    have hnodup₁ := hturns.nodup
    refine ⟨ts, below, by rwa [hf], by rwa [hchildren],
      (List.nodup_cons.1 (List.nodup_cons.1 hnodup₁).2).2, hlength, hbelow, fun r hr => ?_⟩
    rw [hchildren] at hr
    match r, hr with
    | .ok goesOn v', ⟨hgoesOn, done, hvisits', hadvanced⟩ =>
      refine ⟨hgoesOn, first ++ done, hvisits.append hvisits', ?_⟩
      rw [List.map_singleton, htree]
      exact hadvanced.below hheld hnodup hplain hdealt hfirst hturns hn hf hl htree hts.has
    | .error (.raised fault) v', ⟨done, d, ts', u, h⟩ =>
      have hadvanced :=
        h.advanced.below hheld hnodup hplain hdealt hfirst hturns hn hf hl htree hts.has
      have hold := hadvanced.dealt.hasNode h.ready.directive
      have hin : Cell.node d ∈ Cell.node n :: .list l :: below :=
        List.mem_cons_of_mem _ (List.mem_cons_of_mem _ h.within)
      have hcell := (hturns.fresh _ hin).resolve_right fun hnew => hnew hold
      have hne : d ≠ n := by
        rintro rfl
        exact (List.nodup_cons.1 hnodup₁).1 (List.mem_cons_of_mem _ h.within)
      have hfamily := (apart_of_below hheld hnodup hfirst hcell hne).sameFamily hold hdealt
      refine ⟨first ++ done, d, _, u, hvisits.append h.visits, hadvanced, fun hd => ?_, hcell,
        hfamily.trans h.family, h.ready, h.raised, h.unchanged⟩
      rcases List.mem_append.1 hd with hd | hd
      · exact hne (hfirst d hd)
      · exact h.fresh hd

/-- Walking the list of any trees within so many cells ends. -/
def EndsWithin (visit : Visitor μ) (c : Choices) (slot : Bool) (bound : Nat) : Prop :=
  ∀ (w : World μ) (ns before : List NodeId) (ts : List Tree) (cells : List Cell) (p : NodeId)
    (l : ListId), cells.length < bound → w.store.HasList l → w.store.list l = before ++ ns →
    w.store.HoldsAll ns ts cells → cells.Nodup → (∀ t ∈ ts, t.Everywhere Fields.PlainAttributes) →
    Ends visit c slot w ns ts cells
      (Walk.walkFrom (.oneOf directiveTypes) visit bound p l before.length w)

theorem visitNode_ends (hdeals : Deals visit c slot) {bound : Nat}
    (hends : EndsWithin visit c slot bound) (hheld : w.store.Holds n t cells)
    (hsize : cells.length ≤ bound + 1) (hnodup : cells.Nodup)
    (hplain : t.Everywhere Fields.PlainAttributes) (i : Option Nat) (p : Option NodeId) :
    Ends visit c slot w [n] [t] cells (Walk.visitNode (.oneOf directiveTypes) visit
      (fun n l => Walk.walkFrom (.oneOf directiveTypes) visit bound n l 0) n i p w) := by
  -- what is done at the root, and then the walk below it
  have hroot : ∀ {first : List NodeId} {v : World μ}, Walk.Visits visit w first v →
      c.Opens slot w.store n t cells v.store → Dealt c slot w.store first v.store →
      (∀ k ∈ first, k = n) → Ends visit c slot w [n] [t] cells
        (Walk.walkFrom (.oneOf directiveTypes) visit bound n (v.store.node n).children 0 v) := by
    intro first v hvisits hopens hdealt hfirst
    obtain ⟨ts, below, hl, hts, hbelow, hlength, hplain', hlift⟩ :=
      ends_below hheld hnodup hplain hvisits hopens hdealt hfirst
    exact hlift _ (hends v _ [] ts below n _ (by omega) hl rfl hts hbelow hplain')
  rw [Walk.visitNode_apply]
  by_cases hdirective : (w.store.node n).isDirective = true
  · have haccepts : (TypeTest.oneOf directiveTypes).accepts (w.store.node n).type = true := hdirective
    rw [Walk.enter_of_accepts haccepts]
    have hvisit := hdeals w n t cells i p hheld hnodup hplain hdirective
    cases hv : visit n i p w with
    | ok action v =>
      rw [hv] at hvisit
      obtain ⟨rfl, hopens, hdealt⟩ := hvisit
      exact hroot (.cons (hheld.ready hplain hdirective) hv (.nil v)) hopens hdealt
        fun k hk => List.mem_singleton.1 hk
    | error fault v =>
      rw [hv] at hvisit
      have hall := HoldsAll.singleton hheld
      exact ⟨[], n, [t], w, .nil w, Advanced.refl hall hnodup (by simpa using hplain), by simp,
        hall.mem_cells n (List.mem_singleton.2 rfl), ⟨rfl, rfl, fun _ _ => rfl⟩,
        hheld.ready hplain hdirective, ⟨i, p, hv⟩, hvisit⟩
  · have hother : (w.store.node n).isDirective = false := by simpa using hdirective
    have hrejects : (TypeTest.oneOf directiveTypes).accepts (w.store.node n).type = false := hother
    rw [Walk.enter_of_rejects hrejects]
    refine hroot (.nil w) ?_ (Dealt.refl c slot _) (by simp)
    cases hheld with
    | @node _ l f ts cells hn hf hl hts =>
      have hfate : c.fate f = none := by
        rw [hf, Fields.toFields_over] at hother
        exact Choices.fate_of_other hother
      cases hplain with
      | node _ hts' => exact opens_of_none hfate (.node hn hf hl hts) hnodup hts'

/-- The invariant of the walk: trees within the bound are lowered, or a visit stops the walk. -/
theorem walkFrom_ends (hdeals : Deals visit c slot) (bound : Nat) :
    EndsWithin visit c slot bound := by
  induction bound with
  | zero =>
    intro w ns before ts cells p l hsize
    exact absurd hsize (Nat.not_lt_zero _)
  | succ bound ih =>
    intro w ns before ts cells p l hsize hl hlist hheld hnodup hplain
    cases hheld with
    | nil =>
      have hend : (w.store.list l)[before.length]? = none := by
        rw [hlist, List.append_nil]
        exact List.getElem?_eq_none (Nat.le_refl _)
      rw [Walk.walkFrom_of_none hend]
      exact ⟨rfl, [], .nil w, Advanced.refl .nil hnodup hplain⟩
    | @cons n ns t ts own others ht hts =>
      have hparts := List.nodup_append.1 hnodup
      have hlength : (own ++ others).length = own.length + others.length := List.length_append
      have hown : 2 ≤ own.length := by
        cases ht with
        | node => exact Nat.le_add_left 2 _
      have hsome : (w.store.list l)[before.length]? = some n := by
        rw [hlist, List.getElem?_append_right (Nat.le_refl _), Nat.sub_self]
        rfl
      rw [Walk.walkFrom_of_some hsome]
      have hfirst := visitNode_ends hdeals ih ht (by omega) hparts.1 (hplain t List.mem_cons_self)
        (some before.length) (some p)
      have hplain' : ∀ u ∈ ts, u.Everywhere Fields.PlainAttributes :=
        fun u hu => hplain u (List.mem_cons_of_mem _ hu)
      generalize Walk.visitNode (.oneOf directiveTypes) visit _ n _ _ w = r at hfirst ⊢
      match r, hfirst with
      | .ok true v, ⟨_, done, hvisits, hadvanced⟩ =>
        have hgrows := hadvanced.dealt.grows
        have hlist' : v.store.list l = (before ++ [n]) ++ ns := by
          rw [hgrows.list l hl, hlist, List.append_assoc, List.singleton_append]
        have hothers := ih v ns (before ++ [n]) ts others p l (by omega) (hgrows.hasList l hl) hlist'
          (hts.of_grows hgrows fun m hm hin => hparts.2.2 _ (hadvanced.within m hin) _ hm rfl)
          hparts.2.1 hplain'
        rw [List.length_append, List.length_singleton] at hothers
        exact Ends.append hvisits hadvanced hothers hts hnodup
      | .error (.raised fault) v, ⟨done, d, ts', u, h⟩ =>
        exact ⟨done, d, _, u, h.append hts hnodup hplain'⟩

/-- A walk over a tree ends, within any budget that is large enough. -/
theorem run_ends (hdeals : Deals visit c slot) (hheld : w.store.Holds n t cells)
    (hnodup : cells.Nodup) (hplain : t.Everywhere Fields.PlainAttributes) :
    ∃ budget r, Ends visit c slot w [n] [t] cells r ∧
      ∀ b, budget ≤ b → Walk.run (.oneOf directiveTypes) visit b n w = Walk.ended r := by
  have hends := visitNode_ends hdeals (walkFrom_ends hdeals cells.length) hheld (Nat.le_succ _) hnodup
    hplain none none
  obtain ⟨budget, hrun⟩ := Walk.run_of_visitNode rfl fun v hcut => by
    rw [hcut] at hends
    exact hends
  exact ⟨budget, _, hends, hrun⟩

/-! ## Hooks that follow choices -/

/-- A visitor that remembers more deals with directives if the other does. -/
theorem Deals.of_covered {ν : Type} {g : ν → μ} {visit' : Visitor ν} (hdeals : Deals visit c slot)
    (hv : ∀ n i p, Covers g (visit' n i p) (visit n i p)) : Deals visit' c slot := by
  intro w n t cells i p hheld hnodup hplain hdirective
  have hvisit := hdeals (w.view g) n t cells i p hheld hnodup hplain hdirective
  rw [← hv n i p w] at hvisit
  cases hr : visit' n i p w <;> rw [hr] at hvisit <;> exact hvisit

/-- A visitor that remembers less deals with directives if the other does. -/
theorem Deals.of_covers {ν : Type} {g : ν → μ} {visit' : Visitor ν} (hdeals : Deals visit' c slot)
    (hv : ∀ n i p, Covers g (visit' n i p) (visit n i p)) (hg : Function.Surjective g) :
    Deals visit c slot := by
  rintro ⟨s, m⟩ n t cells i p hheld hnodup hplain hdirective
  obtain ⟨m', rfl⟩ := hg m
  have hvisit := hdeals ⟨s, m'⟩ n t cells i p hheld hnodup hplain hdirective
  have hview := hv n i p ⟨s, m'⟩
  rw [view_mk] at hview
  rw [← hview]
  cases hr : visit' n i p ⟨s, m'⟩ <;> rw [hr] at hvisit <;> exact hvisit

namespace Pass

variable {σ : Type} {o : Options σ}

theorem deals_recorded (h : o.Follows c) (hhook : o.Labels slot) :
    Deals (visitor o.recorded) c slot := by
  rintro ⟨s, ⟨m, events⟩, books⟩ n t cells i p hheld hnodup hplain hdirective
  obtain ⟨s', m', events', books', henter, hopens⟩ :=
    opens_tree h hhook hheld hnodup hplain i p m events books
  obtain ⟨v, hvisit, hdealt⟩ :=
    visit_finishes h hhook m events books (hheld.ready hplain hdirective)
  rw [enter_directive i p hdirective, hvisit] at henter
  cases henter
  rw [visitor_apply, hvisit]
  exact ⟨rfl, hopens, hdealt⟩

/-- Hooks that follow choices deal with directives. -/
theorem deals_of_follows (h : o.Follows c) (hhook : o.Labels slot) : Deals (visitor o) c slot :=
  (deals_recorded h hhook).of_covers (covers_visitor o.extends_recorded) fun (m, books) =>
    ⟨((m, []), books), rfl⟩

/-- Hooks that follow choices never stop at a directive that is ready. -/
theorem not_raised (h : o.Follows c) (hhook : o.Labels slot) {w : World (σ × Books)}
    (hready : Ready w.store n) (fault : Fault) (v : World (σ × Books)) :
    ¬ ∃ i p, visitor o n i p w = .error fault v := by
  rintro ⟨i, p, hraised⟩
  obtain ⟨s, m, books⟩ := w
  obtain ⟨v, hvisit, -⟩ := visit_finishes h hhook m [] books hready
  have hview := covers_visitor o.extends_recorded n i p ⟨s, (m, []), books⟩
  rw [visitor_apply, hvisit] at hview
  cases hview.trans hraised

/-- **A pass whose hooks follow choices lowers a tree**: it comes to its end, within any budget that is
large enough, and the lowered tree takes up old cells of the tree or new ones. -/
theorem run_turns_tree (h : o.Follows c) (hhook : o.Labels slot) (hheld : s.Holds n t cells)
    (hnodup : cells.Nodup) (hplain : t.Everywhere Fields.PlainAttributes) (m : σ) (books : Books) :
    ∃ budget s' m' books' cells',
      (∀ b, budget ≤ b → run o b n ⟨s, m, books⟩ = .ok () ⟨s', m', books'⟩) ∧
      s'.Holds n (c.lowerTree slot t) cells' ∧ s.Turns cells s' cells' := by
  obtain ⟨budget, r, hends, hrun⟩ := run_ends (w := ⟨s, m, { books with
    notices := books.notices.push .started }⟩) (deals_of_follows h hhook) hheld hnodup hplain
  match r, hends with
  | .ok goesOn v, ⟨_, done, _, hadvanced⟩ =>
    obtain ⟨cells', hheld', hturns⟩ := hadvanced.held
    refine ⟨budget, v.store, v.memory.1, { v.memory.2 with
      notices := v.memory.2.notices.push (.finished v.memory.2.stats) }, cells', fun b hb => ?_,
      hheld'.of_singleton, hturns⟩
    rw [run_apply, hrun b hb]
    rfl
  | .error (.raised fault) v, ⟨done, d, ts', u, hinterrupted⟩ =>
    exact absurd hinterrupted.raised (not_raised h hhook hinterrupted.ready fault v)

/-- A pass over the document below a root comes to its end, within any budget that is large enough, and
leaves this store and this memory of its hooks. -/
def Completed (o : Options σ) (n : NodeId) (w w' : World σ) : Prop :=
  ∃ budget books, ∀ b, budget ≤ b →
    run o b n ⟨w.store, w.memory, {}⟩ = .ok () ⟨w'.store, w'.memory, books⟩

/-- A pass with books of its own. -/
theorem run_leaves_tree (h : o.Follows c) (hhook : o.Labels slot) (hheld : s.HoldsTree n t)
    (hplain : t.Everywhere Fields.PlainAttributes) (m : σ) :
    ∃ w, Completed o n ⟨s, m⟩ w ∧ w.store.HoldsTree n (c.lowerTree slot t) := by
  obtain ⟨cells, hheld, hnodup⟩ := hheld
  obtain ⟨budget, s', m', books', cells', hrun, hheld', hturns⟩ :=
    run_turns_tree h hhook hheld hnodup hplain m {}
  exact ⟨⟨s', m'⟩, ⟨budget, books', hrun⟩, cells', hheld', hturns.nodup⟩

end Pass

end DirectiveLowering
