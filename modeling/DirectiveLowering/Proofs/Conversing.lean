import DirectiveLowering.Proofs.NodeFates
import DirectiveLowering.Proofs.TreePass

/-!
# The conversation of a pass

A pass over a document without sharing makes exactly the calls of hooks that the talk about the document
tells, with the answers that the hooks give, whatever the hooks remember. If a hook fails, its call is the
last one and its fault ends the pass.

The proof follows the recursive walk. What a visit asks is told by the interview of its directive, as it
is then; since nothing is shared, earlier visits have not changed what is told.

Results:
* `Performs.append`: documents one after another.
* `visitNode_performs`, `walkFrom_performs`: a node with what is below it, and the children in a list.
* `run_talks`: the calls of a pass.
-/

namespace DirectiveLowering.Pass

open Store Skeleton

variable {σ : Type} {o : Options σ} {slots : Bool → Prop} {s : Store} {n : NodeId}
  {ks us : List Skeleton}

/-! ## Walks that make the exchanges of a talk -/

/-- Why a pass over some nodes may fail: a hook fails, or a directive carries attribute records. -/
def Excused (o : Options σ) (s : Store) (xs : List NodeId) (e : Fault) : Prop :=
  o.Raises e ∨ ∃ x ∈ xs, (s.node x).isDirective = true ∧
    attributeEntries (s.node x).attributes = .error e

/-- The walk makes the exchanges of a talk and adds them to those kept, and the nodes meet their fates.
Either it comes to its end as the talk does, or it is ended by a fault as the talk is. -/
def Performs (o : Options σ) (slots : Bool → Prop) (x : Run ((σ × List Exchange) × Books) Bool)
    (s : Store) (xs : List NodeId) (t : Talk Unit) : Prop :=
  ∀ m exchanges books, ∃ ys v, v.memory.1.2 = exchanges ++ ys ∧ Fates slots s xs v.store ∧
    (x ⟨s, (m, exchanges), books⟩ = .ok true v ∧ t.Gives ys (.ok ()) ∨
      ∃ e, x ⟨s, (m, exchanges), books⟩ = .error (.raised e) v ∧ t.Gives ys (.error e) ∧
        Excused o s xs e)

/-- Of the nodes only those matter that are directives. -/
theorem Excused.of_directives {s₁ : Store} {xs ys : List NodeId} {e : Fault} (h : Excused o s₁ xs e)
    (hin : ∀ x ∈ xs, (s₁.node x).isDirective = true → x ∈ ys ∧ s₁.node x = s.node x) :
    Excused o s ys e := by
  refine h.imp_right ?_
  rintro ⟨x, hx, hdirective, hentries⟩
  obtain ⟨hy, hsame⟩ := hin x hx hdirective
  rw [hsame] at hdirective hentries
  exact ⟨x, hy, hdirective, hentries⟩

/-- Documents one after another. -/
theorem Performs.append {skip : Bool} {x y z : Run ((σ × List Exchange) × Books) Bool}
    (hx : Performs o slots x s (nodesOf ks) (talkOf skip s ks))
    (hy : ∀ s₁, Fates slots s (nodesOf ks) s₁ →
      Performs o slots y s₁ (nodesOf us) (talkOf skip s₁ us)) (hspread : s.Spread (ks ++ us))
    (hok : ∀ w v, w.store = s → x w = .ok true v → z w = y v)
    (herror : ∀ w e v, w.store = s → x w = .error (.raised e) v → z w = .error (.raised e) v) :
    Performs o slots z s (nodesOf (ks ++ us)) (talkOf skip s (ks ++ us)) := by
  intro m exchanges books
  obtain ⟨ys, v, hmemory, hfates, hends⟩ := hx m exchanges books
  have hus : s.Spread us := hspread.sublist (List.sublist_append_right ks us)
  rw [talkOf_append]
  rcases hends with ⟨hx, hgives⟩ | ⟨e, hx, hgives, hexcused⟩
  · have hsame : ∀ k ∈ nodesOf us, SameFamily s v.store k := fun k hk =>
      hus.sameFamily hfates.grows (fun k hk hc => hspread.apart k hc.1 hk) hk
    have htalk : talkOf skip v.store us = talkOf skip s us := talkOf_congr fun u hu =>
      talk_congr skip (hus.spells u hu) fun k hk => hsame k (mem_nodesOf.2 ⟨u, hu, hk⟩)
    obtain ⟨s₁, ⟨m₁, exchanges₁⟩, books₁⟩ := v
    obtain rfl : exchanges₁ = exchanges ++ ys := hmemory
    obtain ⟨zs, v, hmemory, hfates', hends⟩ := hy s₁ hfates m₁ (exchanges ++ ys) books₁
    rw [htalk] at hends
    rw [hok _ _ rfl hx]
    refine ⟨ys ++ zs, v, by rw [hmemory, List.append_assoc], hfates.append hfates' hspread, ?_⟩
    rcases hends with ⟨hy, hgives'⟩ | ⟨e, hy, hgives', hexcused⟩
    · exact Or.inl ⟨hy, hgives.bind_ok hgives'⟩
    · refine Or.inr ⟨e, hy, hgives.bind_ok hgives', hexcused.of_directives fun k hk _ => ?_⟩
      rw [nodesOf_append]
      exact ⟨List.mem_append_right _ hk, (hsame k hk).node⟩
  · rw [herror _ _ _ rfl hx]
    refine ⟨ys, v, hmemory, hfates.append (fates_same _ _) hspread, Or.inr ⟨e, rfl, hgives.bind_error,
      hexcused.of_directives fun k hk _ => ?_⟩⟩
    rw [nodesOf_append]
    exact ⟨List.mem_append_left _ hk, rfl⟩

/-! ## The walk -/

/-- The bounded walk of a list, from a position on, makes the exchanges of the talk about the documents
there. -/
def PerformsWithin (o : Options σ) (slots : Bool → Prop) (bound : Nat) : Prop :=
  ∀ (s : Store) (ks : List Skeleton) (before : List NodeId) (p : NodeId) (l : ListId),
    (nodesOf ks).length < bound → s.HasList l → s.list l = before ++ ks.map Skeleton.root →
    s.Spread ks →
    Performs o slots (Walk.walkFrom (.oneOf directiveTypes) (visitor o.conversed) bound p l before.length)
      s (nodesOf ks) (talkOf o.skipTransformed.truthy s ks)

/-- A node that has been dealt with, and then what is below it. -/
theorem performs_below {bound : Nat} (hwithin : PerformsWithin o slots bound)
    (hsize : (nodesOf ks).length < bound) (hspread : s.Spread [.node n ks]) {outcome : Outcome}
    {s₁ : Store} (hfate : Fates slots s [n] s₁)
    (hgoes : GoesOn o.skipTransformed.truthy s n ks outcome s₁ us) (m : σ) (exchanges : List Exchange)
    (books : Books) :
    ∃ ys v, v.memory.1.2 = exchanges ++ ys ∧ Fates slots s (n :: nodesOf ks) v.store ∧
      (Walk.walkFrom (.oneOf directiveTypes) (visitor o.conversed) bound n (s₁.node n).children 0
          ⟨s₁, (m, exchanges), books⟩ = .ok true v ∧
          (talkOf o.skipTransformed.truthy s (s.remaining outcome ks)).Gives ys (.ok ()) ∨
        ∃ e, Walk.walkFrom (.oneOf directiveTypes) (visitor o.conversed) bound n (s₁.node n).children 0
            ⟨s₁, (m, exchanges), books⟩ = .error (.raised e) v ∧
          (talkOf o.skipTransformed.truthy s (s.remaining outcome ks)).Gives ys (.error e) ∧
          Excused o s (n :: nodesOf ks) e) := by
  have hperforms := hwithin s₁ us [] n _ (Nat.lt_of_le_of_lt hgoes.length hsize) hgoes.hasList
    hgoes.children hgoes.spread
  rw [hgoes.talk] at hperforms
  obtain ⟨ys, v, hmemory, hfates, hends⟩ := hperforms m exchanges books
  refine ⟨ys, v, hmemory, hfate.below hgoes hfates hspread, hends.imp_right ?_⟩
  rintro ⟨e, herror, hgives, hexcused⟩
  refine ⟨e, herror, hgives, hexcused.of_directives fun x hx hdirective => ?_⟩
  rcases hgoes.old x hx with hold | ⟨-, hplain⟩
  · exact ⟨List.mem_cons_of_mem _ hold, (hfate.sameFamily_below hspread x hold).node⟩
  · exact absurd hdirective (by simp [hplain])

section Quiet

variable (h : o.Quiet slots)
include h

/-- The visit of a directive, with its interview. -/
theorem visit_performs (hspread : s.Spread [.node n ks]) (hdirective : (s.node n).isDirective = true)
    (m : σ) (exchanges : List Exchange) (books : Books) :
    ∃ ys v, v.memory.1.2 = exchanges ++ ys ∧
      (visit o.conversed n ⟨s, (m, exchanges), books⟩ = .ok () v ∧ (∃ outcome us,
          (s.arrival o.skipTransformed.truthy n).Gives ys (.ok outcome) ∧ Fates slots s [n] v.store ∧
          GoesOn o.skipTransformed.truthy s n ks outcome v.store us) ∨
        ∃ e, visit o.conversed n ⟨s, (m, exchanges), books⟩ = .error e v ∧
          (s.arrival o.skipTransformed.truthy n).Gives ys (.error e) ∧
          Fates slots s (n :: nodesOf ks) v.store ∧ Excused o s (n :: nodesOf ks) e) := by
  have hn := hspread.root.1
  have hchildren := hspread.children
  obtain ⟨ys, hys⟩ := plays_visit h hn hdirective (fun k hk => (hchildren k hk).1) m exchanges books
  rw [arrival, if_pos hdirective]
  cases hv : visit o.conversed n ⟨s, (m, exchanges), books⟩ with
  | error e v =>
    rw [hv] at hys
    obtain ⟨hmemory, hgives, hwhy, hscraps⟩ := hys
    have hnodes : ∀ x ∈ n :: nodesOf ks, s.HasNode x := fun x hx => hspread.hasNode (by simpa using hx)
    exact ⟨ys, v, hmemory, Or.inr ⟨e, rfl, hgives, fates_scraps hscraps hnodes,
      hwhy.imp_right fun hentries => ⟨n, List.mem_cons_self, hdirective, hentries⟩⟩⟩
  | ok a v =>
    rw [hv] at hys
    obtain ⟨hmemory, outcome, hgives, hsuits, hstore⟩ := hys
    obtain ⟨us, hgoes⟩ := goesOn_settle o.skipTransformed.truthy hspread hsuits
    rw [← hstore] at hgoes
    refine ⟨ys, v, hmemory, Or.inl ⟨rfl, outcome, us, hgives, ?_, hgoes⟩⟩
    rw [hstore]
    exact fates_settle hn hdirective hchildren hsuits

theorem visitNode_performs {bound : Nat} (hwithin : PerformsWithin o slots bound)
    (hsize : (nodesOf ks).length < bound) (hspread : s.Spread [.node n ks]) (i : Option Nat)
    (p : Option NodeId) :
    Performs o slots (Walk.visitNode (.oneOf directiveTypes) (visitor o.conversed)
      (fun n l => Walk.walkFrom (.oneOf directiveTypes) (visitor o.conversed) bound n l 0) n i p)
      s (n :: nodesOf ks) ((Skeleton.node n ks).talk o.skipTransformed.truthy s) := by
  intro m exchanges books
  rw [Walk.visitNode_apply]
  by_cases hdirective : (s.node n).isDirective = true
  · rw [enter_directive i p (w := ⟨s, (m, exchanges), books⟩) hdirective, talk_node]
    obtain ⟨ys, v, hmemory, hends⟩ := visit_performs h hspread hdirective m exchanges books
    rcases hends with ⟨hok, outcome, us, hgives, hfate, hgoes⟩ |
      ⟨e, herror, hgives, hfates, hexcused⟩
    · rw [hok]
      obtain ⟨s₁, ⟨m₁, exchanges₁⟩, books₁⟩ := v
      obtain rfl : exchanges₁ = exchanges ++ ys := hmemory
      obtain ⟨zs, v, hmemory, hfates, hends⟩ := performs_below hwithin hsize hspread hfate hgoes m₁
        (exchanges ++ ys) books₁
      refine ⟨ys ++ zs, v, by rw [hmemory, List.append_assoc], hfates, hends.imp ?_ ?_⟩
      · rintro ⟨hok', hgives'⟩
        exact ⟨hok', hgives.bind_ok hgives'⟩
      · rintro ⟨e, herror, hgives', hexcused⟩
        exact ⟨e, herror, hgives.bind_ok hgives', hexcused⟩
    · rw [herror]
      exact ⟨ys, v, hmemory, hfates, Or.inr ⟨e, rfl, hgives.bind_error, hexcused⟩⟩
  · have hother : (s.node n).isDirective = false := by simpa using hdirective
    rw [enter_other i p (w := ⟨s, (m, exchanges), books⟩) hother, talk_other hother]
    exact performs_below hwithin hsize hspread (fates_same s [n]) (goesOn_same _ hspread) m exchanges books

/-- The invariant of the walk. -/
theorem walkFrom_performs (bound : Nat) : PerformsWithin o slots bound := by
  induction bound with
  | zero =>
    intro s ks before p l hsize
    exact absurd hsize (Nat.not_lt_zero _)
  | succ bound ih =>
    intro s ks before p l hsize hl hlist hspread
    cases ks with
    | nil =>
      intro m exchanges books
      have hend : (s.list l)[before.length]? = none := by
        rw [hlist, List.map_nil, List.append_nil]
        exact List.getElem?_eq_none (Nat.le_refl _)
      rw [Walk.walkFrom_of_none hend, talkOf_nil]
      exact ⟨[], _, (List.append_nil _).symm, fates_same s [], Or.inl ⟨rfl, .done⟩⟩
    | cons k ks =>
      obtain ⟨n, us⟩ := k
      have hsome : (s.list l)[before.length]? = some n := by
        rw [hlist, List.getElem?_append_right (Nat.le_refl _), Nat.sub_self]
        rfl
      have hhead : s.Spread [.node n us] :=
        hspread.sublist (List.sublist_append_left [Skeleton.node n us] ks)
      have htail : s.Spread ks := hspread.sublist (List.sublist_cons_self _ ks)
      rw [nodesOf_cons, nodes_node, List.cons_append, List.length_cons, List.length_append] at hsize
      have hfirst := visitNode_performs h ih (by omega) hhead (some before.length) (some p)
      rw [← talkOf_singleton, ← nodes_node, ← nodesOf_singleton] at hfirst
      refine hfirst.append (fun s₁ hfates => ?_) hspread
        (fun w v hw hok => by rw [Walk.walkFrom_of_some (by rw [hw]; exact hsome), hok])
        fun w e v hw herror => by rw [Walk.walkFrom_of_some (by rw [hw]; exact hsome), herror]
      have hlist' : s₁.list l = (before ++ [n]) ++ ks.map Skeleton.root := by
        rw [hfates.grows.list l hl, hlist, List.append_assoc]
        rfl
      have hrest := ih s₁ ks (before ++ [n]) p l (by omega) (hfates.grows.hasList l hl) hlist'
        (htail.of_grows hfates.grows fun m hm hc => hspread.apart m hc.1 hm)
      rwa [List.length_append, List.length_singleton] at hrest

end Quiet

/-! ## The pass -/

/-- The calls of hooks that a pass makes, with the answers to them. -/
def conversation (o : Options σ) (budget : Nat) (root : NodeId) (w : World (σ × Books)) :
    List Exchange :=
  (left (run o.conversed budget root ⟨w.store, (w.memory.1, []), w.memory.2⟩)).memory.1.2

/-- If a fault ends the recursive visit of the root, it ends the pass, within any budget that is large
enough. -/
theorem run_of_visitRoot_raised {bound : Nat} {root : NodeId} {m : σ} {books : Books}
    {u : World (σ × Books)} {e : Fault}
    (h : visitRoot o bound root ⟨s, m, { books with notices := books.notices.push .started }⟩ =
      .error (.raised e) u) :
    ∃ budget, ∀ b, budget ≤ b → run o b root ⟨s, m, books⟩ = .error (.raised e) u := by
  obtain ⟨budget, hwalk⟩ := Walk.run_of_visitNode h (by simp)
  refine ⟨budget, fun b hb => ?_⟩
  rw [run_apply, hwalk b hb]
  rfl

/-- A pass with quiet hooks makes the exchanges of the talk, and the nodes meet their fates. It comes to
its end, or is ended by the fault that ends the talk. -/
theorem run_performs (h : o.Quiet slots) {sk : Skeleton} (hspells : s.Spells sk)
    (hnodup : sk.nodes.Nodup) (m : σ) (books : Books) :
    ∃ budget exchanges v, Fates slots s sk.nodes v.store ∧ ∀ b, budget ≤ b →
      conversation o b sk.root ⟨s, m, books⟩ = exchanges ∧
      (run o b sk.root ⟨s, m, books⟩ = .ok () v ∧
          (sk.talk o.skipTransformed.truthy s).Gives exchanges (.ok ()) ∨
        ∃ e, run o b sk.root ⟨s, m, books⟩ = .error (.raised e) v ∧
          (sk.talk o.skipTransformed.truthy s).Gives exchanges (.error e) ∧
          Excused o s sk.nodes e) := by
  obtain ⟨n, ks⟩ := sk
  have hspread : s.Spread [.node n ks] := by
    refine ⟨fun k hk => ?_, ?_⟩
    · rw [List.mem_singleton.1 hk]
      exact hspells
    · rw [nodesOf_singleton]
      exact hnodup
  obtain ⟨exchanges, v, hmemory, hfates, hends⟩ := visitNode_performs h
    (walkFrom_performs h ((nodesOf ks).length + 1)) (Nat.lt_succ_self _) hspread none none m []
    { books with notices := books.notices.push .started }
  have hview : ∀ b, viewed unheard (run o.conversed b n ⟨s, (m, []), books⟩) =
      run o b n ⟨s, m, books⟩ := fun b => covers_run_conversed b n ⟨s, (m, []), books⟩
  rcases hends with ⟨hok, hgives⟩ | ⟨e, herror, hgives, hexcused⟩
  · obtain ⟨budget, hrun⟩ := run_of_visitRoot hok
    refine ⟨budget, exchanges, (concluded v).view unheard, hfates, fun b hb =>
      ⟨?_, Or.inl ⟨?_, hgives⟩⟩⟩
    · show (left (run o.conversed b n ⟨s, (m, []), books⟩)).memory.1.2 = exchanges
      rw [hrun b hb]
      exact hmemory
    · show run o b n ⟨s, m, books⟩ = _
      rw [← hview, hrun b hb]
      rfl
  · obtain ⟨budget, hrun⟩ := run_of_visitRoot_raised herror
    refine ⟨budget, exchanges, v.view unheard, hfates, fun b hb =>
      ⟨?_, Or.inr ⟨e, ?_, hgives, hexcused⟩⟩⟩
    · show (left (run o.conversed b n ⟨s, (m, []), books⟩)).memory.1.2 = exchanges
      rw [hrun b hb]
      exact hmemory
    · show run o b n ⟨s, m, books⟩ = _
      rw [← hview, hrun b hb]
      rfl

/-- The skeleton of the container with a label. -/
def labelledNoteSkeleton : Skeleton :=
  .node ⟨0⟩ [.node ⟨1⟩ [.node ⟨2⟩ []], .node ⟨3⟩ []]

end DirectiveLowering.Pass
