import DirectiveLowering.Proofs.Listing

/-!
# Document order while the document changes

A visitor may change a tree while it is walked: the node that it is called on, nodes that the walk has
not come to yet, and the part of a list on the way down that is still to be walked. The walk then
visits, in document order, the tree that there is in the end.

The order is known only once the walk is over, so the invariant speaks of the tree as it is now: the
visits made so far list it, up to the positions of the frames on the stack, and what such a visitor
changes lies behind these positions.

Results:
* `Stands.extend`, `Stands.close`, `Stands.stop`: the frames move on, one is left, the walk is ended.
* `Stands.of_permitted`: a permitted visit changes nothing of what has been listed.
* `lists_of_loop`: the visits of a walk list the tree that it leaves.
* `run_in_document_order`: the walk in terms of the tree that it leaves.
-/

namespace DirectiveLowering.Walk

open scoped List

variable {μ : Type} {s s' : Store} {root n : NodeId} {ms more : List (Moment μ)}

/-! ## Frames on the stack -/

/-- The frame of a node is open: so many of its children have been listed. -/
structure Opened (s : Store) (n : NodeId) (f : Frame) (ms : List (Moment μ)) : Prop where
  parent : f.parent = n
  list : f.list = (s.node n).children
  listed : ListsFrom s n 0 ((s.list f.list).take f.position) ms true

/-- The visits made so far, when the walk stands at some frames: each frame is open, and the node of an
inner frame is the last one that was visited in the list of the frame around it. -/
inductive Stands (s : Store) (root : NodeId) : List Frame → List (Moment μ) → Prop
  | root {f : Frame} {m : Moment μ} {ms : List (Moment μ)} :
      m.call = ⟨root, none, none⟩ → m.answer? = some .proceed → Opened s root f ms →
      Stands s root [f] (m :: ms)
  | child {f g : Frame} {rest : List Frame} {n : NodeId} {m : Moment μ} {ms more : List (Moment μ)} :
      Stands s root (f :: rest) ms → (s.list f.list)[f.position]? = some n →
      m.call = ⟨n, some f.position, some f.parent⟩ → m.answer? = some .proceed →
      Opened s n g more → Stands s root (g :: f.advance :: rest) (ms ++ m :: more)

variable {f g : Frame} {rest : List Frame}

theorem opened_nil (s : Store) (n : NodeId) :
    Opened s n ⟨n, (s.node n).children, 0⟩ ([] : List (Moment μ)) :=
  ⟨rfl, rfl, .nil⟩

theorem length_take_of_getElem? {l : List NodeId} {j : Nat} {k : NodeId} (hk : l[j]? = some k) :
    (l.take j).length = j := by
  have hlt := (List.getElem?_eq_some_iff.1 hk).1
  rw [List.length_take]
  omega

/-- One more child has been listed. -/
theorem Opened.extend {k : NodeId} (h : Opened s n f ms)
    (hk : (s.list f.list)[f.position]? = some k)
    (hmore : Lists s k (some f.position) (some f.parent) more true) :
    Opened s n f.advance (ms ++ more) where
  parent := h.parent
  list := h.list
  listed := by
    have htake : (s.list f.list).take (f.position + 1) = (s.list f.list).take f.position ++ [k] := by
      rw [List.take_add_one, hk]
      rfl
    have hlast : ListsFrom s n f.position [k] (more ++ []) true := by
      rw [h.parent] at hmore
      exact .cons hmore .nil
    rw [List.append_nil] at hlast
    show ListsFrom s n 0 ((s.list f.list).take (f.position + 1)) (ms ++ more) true
    rw [htake]
    exact h.listed.append (by rwa [length_take_of_getElem? hk, Nat.zero_add])

/-- The walk ends below the next child. -/
theorem Opened.stop {k : NodeId} (h : Opened s n f ms) (hk : (s.list f.list)[f.position]? = some k)
    (hmore : Lists s k (some f.position) (some f.parent) more false) :
    ListsFrom s n 0 (s.children n) (ms ++ more) false := by
  have hsplit : s.children n =
      (s.list f.list).take f.position ++ k :: (s.list f.list).drop (f.position + 1) := by
    obtain ⟨hlt, hget⟩ := List.getElem?_eq_some_iff.1 hk
    rw [← hget, ← List.drop_eq_getElem_cons hlt, List.take_append_drop, Store.children, h.list]
  rw [h.parent] at hmore
  rw [hsplit]
  refine h.listed.append ?_
  rw [length_take_of_getElem? hk, Nat.zero_add]
  exact .stop hmore

/-- At the end of its list a frame has listed what is below its node. -/
theorem Opened.listed_all (h : Opened s n f ms) (hend : (s.list f.list)[f.position]? = none) :
    ListsFrom s n 0 (s.children n) ms true := by
  have hall := h.listed
  rwa [List.take_of_length_le (List.getElem?_eq_none_iff.1 hend), h.list] at hall

theorem Stands.extend {k : NodeId} (h : Stands s root (f :: rest) ms)
    (hk : (s.list f.list)[f.position]? = some k)
    (hmore : Lists s k (some f.position) (some f.parent) more true) :
    Stands s root (f.advance :: rest) (ms ++ more) := by
  cases h with
  | root hcall hproceed hopened =>
    exact .root hcall hproceed (hopened.extend hk hmore)
  | child hstands hn hcall hproceed hopened =>
    rw [List.append_assoc]
    exact .child hstands hn hcall hproceed (hopened.extend hk hmore)

/-- The inner frame has come to the end of its list. -/
theorem Stands.close (h : Stands s root (g :: f :: rest) ms)
    (hend : (s.list g.list)[g.position]? = none) : Stands s root (f :: rest) ms := by
  cases h with
  | child hstands hn hcall hproceed hopened =>
    exact hstands.extend hn (.proceed hcall hproceed (hopened.listed_all hend))

/-- The frame of the root has come to the end of its list. -/
theorem Stands.finish (h : Stands s root [f] ms) (hend : (s.list f.list)[f.position]? = none) :
    Lists s root none none ms true := by
  cases h with
  | root hcall hproceed hopened => exact .proceed hcall hproceed (hopened.listed_all hend)

/-- The walk ends below the next child of the innermost frame. -/
theorem Stands.stop {k : NodeId} (h : Stands s root (f :: rest) ms)
    (hk : (s.list f.list)[f.position]? = some k)
    (hmore : Lists s k (some f.position) (some f.parent) more false) :
    Lists s root none none (ms ++ more) false := by
  generalize hframes : f :: rest = frames at h
  induction h generalizing f rest k more with
  | root hcall hproceed hopened =>
    cases hframes
    exact .proceed hcall hproceed (hopened.stop hk hmore)
  | child hstands hn hcall hproceed hopened ih =>
    cases hframes
    rw [List.append_assoc]
    exact ih hn (.proceed hcall hproceed (hopened.stop hk hmore)) rfl

theorem Stands.parent_mem {frames : List Frame} (h : Stands s root frames ms) :
    ∀ g ∈ frames, g.parent ∈ ms.map (·.call.node) := by
  induction h with
  | root hcall hproceed hopened =>
    intro g hg
    rw [List.mem_singleton.1 hg, hopened.parent, List.map_cons, hcall]
    exact List.mem_cons_self
  | @child f g rest n m ms more hstands hn hcall hproceed hopened ih =>
    intro h hh
    rw [List.map_append, List.mem_append]
    rcases List.mem_cons.1 hh with rfl | hh
    · rw [hopened.parent, List.map_cons, hcall]
      exact Or.inr List.mem_cons_self
    · rcases List.mem_cons.1 hh with rfl | hh
      · exact Or.inl (ih f List.mem_cons_self)
      · exact Or.inl (ih h (List.mem_cons_of_mem _ hh))

/-- The nodes visited so far, and the next one, are different nodes of the tree. -/
theorem Stands.nodup {k : NodeId} {ks : List Skeleton} (h : Stands s root (f :: rest) ms)
    (hk : (s.list f.list)[f.position]? = some k) (hspells : s.Spells (.node root ks))
    (hnodup : (Skeleton.node root ks).nodes.Nodup) (w : World μ) :
    (ms.map (·.call.node) ++ [k]).Nodup := by
  -- as if the walk ended with the next child
  have hexit : Lists s k (some f.position) (some f.parent)
      [⟨⟨k, some f.position, some f.parent⟩, w, .ok .exit w⟩] false := .exit rfl rfl
  have hsub := (h.stop hk hexit).nodes_sublist hspells
  rw [List.map_append] at hsub
  exact hnodup.sublist hsub

/-! ## What is above a call -/

/-- The node is above the call, and the position is the one that is walked in its list: it is the parent
of the call, or above the call of the parent. -/
inductive Above (calls : List Call) : Call → NodeId → Nat → Prop
  | parent {n k : NodeId} {j : Nat} : Above calls ⟨n, some j, some k⟩ k j
  | further {c d : Call} {k : NodeId} {j : Nat} :
      d ∈ calls → c.parent = some d.node → Above calls d k j → Above calls c k j

variable {calls : List Call}

/-- The nodes of the frames around the innermost one are above the next call, at the positions before
those that the frames will go on with. -/
theorem Stands.above (h : Stands s root (f :: rest) ms) (hcalls : ∀ m ∈ ms, m.call ∈ calls)
    (n : NodeId) : ∀ g ∈ rest, ∃ j, g.position = j + 1 ∧
      Above calls ⟨n, some f.position, some f.parent⟩ g.parent j := by
  generalize hframes : f :: rest = frames at h
  induction h generalizing f rest n with
  | root hcall hproceed hopened =>
    cases hframes
    exact fun g hg => nomatch hg
  | @child f₁ f rest n₁ m ms more hstands hn hcall hproceed hopened ih =>
    cases hframes
    have hparent : m.call ∈ calls := hcalls m (List.mem_append_right _ List.mem_cons_self)
    have hnext : ∀ {k j}, Above calls m.call k j →
        Above calls ⟨n, some f.position, some f.parent⟩ k j := by
      intro k j habove
      refine .further hparent ?_ habove
      rw [hopened.parent, hcall]
    intro g hg
    rcases List.mem_cons.1 hg with rfl | hg
    · refine ⟨f₁.position, rfl, hnext ?_⟩
      rw [hcall]
      exact .parent
    · obtain ⟨j, hj, habove⟩ := ih (fun m hm => hcalls m (List.mem_append_left _ hm)) n₁ rfl g hg
      refine ⟨j, hj, hnext ?_⟩
      rwa [hcall]

/-- What is above the next call is the node of a frame. -/
theorem Stands.mem_of_above (h : Stands s root (f :: rest) ms) (hcalls : ∀ m ∈ ms, m.call ∈ calls)
    (hunique : ∀ c ∈ calls, ∀ d ∈ calls, c.node = d.node → c = d) {n k : NodeId} {j : Nat}
    (habove : Above calls ⟨n, some f.position, some f.parent⟩ k j) :
    k ∈ (f :: rest).map Frame.parent := by
  generalize hframes : f :: rest = frames at h
  induction h generalizing f rest n with
  | @root f m ms hcall hproceed hopened =>
    cases hframes
    cases habove with
    | parent => exact List.mem_cons_self
    | @further _ d _ _ hd hparent habove =>
      have hroot : d = ⟨root, none, none⟩ := by
        rw [← hcall]
        refine hunique d hd _ (hcalls m List.mem_cons_self) ?_
        rw [hcall, ← hopened.parent]
        exact (Option.some.inj hparent).symm
      rw [hroot] at habove
      cases habove with
      | further _ hnone _ => cases hnone
  | @child f₁ f rest n₁ m ms more hstands hn hcall hproceed hopened ih =>
    cases hframes
    cases habove with
    | parent => exact List.mem_cons_self
    | @further _ d _ _ hd hparent habove =>
      have hnode : d = ⟨n₁, some f₁.position, some f₁.parent⟩ := by
        rw [← hcall]
        refine hunique d hd _ (hcalls m (List.mem_append_right _ List.mem_cons_self)) ?_
        rw [hcall, ← hopened.parent]
        exact (Option.some.inj hparent).symm
      rw [hnode] at habove
      exact List.mem_cons_of_mem _
        (ih (fun m hm => hcalls m (List.mem_append_left _ hm)) habove rfl)

/-! ## Permitted changes -/

/-- The visit leaves a tree, and changes only what a visitor may change: its node, nodes that the walk
has not come to yet, and, in place, the lists above it behind the positions that are walked. -/
structure Permitted (root : NodeId) (earlier : List (Moment μ)) (m : Moment μ) : Prop where
  tree : ∃ ks, m.after.store.Spells (.node root ks) ∧ (Skeleton.node root ks).nodes.Nodup
  node : ∀ c ∈ earlier.map Moment.call, c.node ≠ m.call.node →
    m.after.store.node c.node = m.before.store.node c.node
  list : ∀ c ∈ earlier.map Moment.call, c.node ≠ m.call.node →
    (∀ j, ¬ Above (earlier.map Moment.call) m.call c.node j) →
    m.after.store.children c.node = m.before.store.children c.node
  above : ∀ k j, Above (earlier.map Moment.call) m.call k j →
    (m.after.store.children k).take (j + 1) = (m.before.store.children k).take (j + 1)

/-- A visit that leaves a tree and changes nothing is permitted. -/
theorem permitted_of_unchanged {earlier : List (Moment μ)} {m : Moment μ} {ks : List Skeleton}
    (hspells : m.after.store.Spells (.node root ks)) (hks : (Skeleton.node root ks).nodes.Nodup)
    (h : m.after.store = m.before.store) : Permitted root earlier m where
  tree := ⟨ks, hspells, hks⟩
  node _ _ _ := by rw [h]
  list _ _ _ _ := by rw [h]
  above _ _ _ := by rw [h]

theorem Opened.congr (h : Opened s n f ms) (hnode : s'.node n = s.node n)
    (hlist : (s'.list f.list).take f.position = (s.list f.list).take f.position)
    (hsame : ∀ m ∈ ms, s'.children m.call.node = s.children m.call.node) : Opened s' n f ms where
  parent := h.parent
  list := by rw [hnode, h.list]
  listed := by
    rw [hlist]
    exact h.listed.congr hsame

/-- What has been listed stays so while visited nodes stay as they are, and lists too, but for what is
behind the positions of frames. -/
theorem Stands.congr {frames : List Frame} (h : Stands s root frames ms)
    (hnodup : (ms.map (·.call.node)).Nodup)
    (hnode : ∀ m ∈ ms, s'.node m.call.node = s.node m.call.node)
    (hlist : ∀ g ∈ frames, (s'.list g.list).take g.position = (s.list g.list).take g.position)
    (hsame : ∀ m ∈ ms, m.call.node ∉ frames.map Frame.parent →
      s'.children m.call.node = s.children m.call.node) : Stands s' root frames ms := by
  induction h with
  | @root f m ms hcall hproceed hopened =>
    have hroot := hnode m List.mem_cons_self
    rw [hcall] at hroot
    refine .root hcall hproceed (hopened.congr hroot (hlist f List.mem_cons_self) fun x hx => ?_)
    refine hsame x (List.mem_cons_of_mem _ hx) fun hin => ?_
    rw [List.map_cons, hcall] at hnodup
    rw [List.map_singleton, List.mem_singleton, hopened.parent] at hin
    exact (List.nodup_cons.1 hnodup).1 (hin ▸ List.mem_map_of_mem hx)
  | @child f g rest n m ms more hstands hn hcall hproceed hopened ih =>
    rw [List.map_append, List.map_cons, hcall] at hnodup
    obtain ⟨hfirst, hlast, hapart⟩ := List.nodup_append.1 hnodup
    have hstep : ∀ {l : List NodeId}, (l.take (f.position + 1)).take f.position = l.take f.position := by
      intro l
      rw [List.take_take, Nat.min_eq_left (Nat.le_succ _)]
    have hf : (s'.list f.list).take (f.position + 1) = (s.list f.list).take (f.position + 1) :=
      hlist f.advance (List.mem_cons_of_mem _ List.mem_cons_self)
    have houter : Stands s' root (f :: rest) ms := by
      refine ih hfirst (fun x hx => hnode x (List.mem_append_left _ hx)) (fun h hh => ?_)
        fun x hx hout => hsame x (List.mem_append_left _ hx) fun hin => ?_
      · rcases List.mem_cons.1 hh with rfl | hh
        · rw [← hstep, hf, hstep]
        · exact hlist h (List.mem_cons_of_mem _ (List.mem_cons_of_mem _ hh))
      · rw [List.map_cons, List.mem_cons, hopened.parent] at hin
        rcases hin with hin | hin
        · exact hapart _ (List.mem_map_of_mem hx) _ List.mem_cons_self hin
        · exact hout hin
    have hn' : (s'.list f.list)[f.position]? = some n := by
      rw [← List.getElem?_take_of_lt (Nat.lt_succ_self f.position), hf,
        List.getElem?_take_of_lt (Nat.lt_succ_self f.position), hn]
    have hm := hnode m (List.mem_append_right _ List.mem_cons_self)
    rw [hcall] at hm
    refine .child houter hn' hcall hproceed
      (hopened.congr hm (hlist g List.mem_cons_self) fun x hx => ?_)
    have hin : x ∈ ms ++ m :: more := List.mem_append_right _ (List.mem_cons_of_mem _ hx)
    refine hsame x hin fun hparent => ?_
    rw [List.map_cons, List.mem_cons, hopened.parent] at hparent
    rcases hparent with hparent | hparent
    · exact (List.nodup_cons.1 hlast).1 (hparent ▸ List.mem_map_of_mem hx)
    · obtain ⟨h, hh, hparent⟩ := List.mem_map.1 hparent
      have hearlier : h.parent ∈ ms.map (·.call.node) := by
        rcases List.mem_cons.1 hh with rfl | hh
        · exact hstands.parent_mem f List.mem_cons_self
        · exact hstands.parent_mem h (List.mem_cons_of_mem _ hh)
      exact hapart _ hearlier _ (List.mem_cons_of_mem _ (List.mem_map_of_mem hx)) hparent

theorem Stands.list_eq {frames : List Frame} (h : Stands s root frames ms) :
    ∀ g ∈ frames, g.list = (s.node g.parent).children := by
  induction h with
  | root _ _ hopened =>
    intro g hg
    rw [List.mem_singleton.1 hg, hopened.list, hopened.parent]
  | @child f g rest n m ms more _ _ _ _ hopened ih =>
    intro h hh
    rcases List.mem_cons.1 hh with rfl | hh
    · rw [hopened.list, hopened.parent]
    · rcases List.mem_cons.1 hh with rfl | hh
      · exact ih f List.mem_cons_self
      · exact ih h (List.mem_cons_of_mem _ hh)

/-- A permitted visit of the next node changes nothing of what has been listed, and the node stays where
it is. -/
theorem Stands.of_permitted {k : NodeId} {ks : List Skeleton} {m : Moment μ}
    (h : Stands m.before.store root (f :: rest) ms)
    (hk : (m.before.store.list f.list)[f.position]? = some k)
    (hcall : m.call = ⟨k, some f.position, some f.parent⟩)
    (hspells : m.before.store.Spells (.node root ks))
    (hks : (Skeleton.node root ks).nodes.Nodup) (hpermitted : Permitted root ms m) :
    Stands m.after.store root (f :: rest) ms ∧
      (m.after.store.list f.list)[f.position]? = some k := by
  obtain ⟨hnodup, -, hapart⟩ := List.nodup_append.1 (h.nodup hk hspells hks m.before)
  have hother : ∀ x ∈ ms, x.call.node ≠ m.call.node := by
    intro x hx
    rw [hcall]
    exact hapart _ (List.mem_map_of_mem hx) k (List.mem_singleton.2 rfl)
  have hcalls : ∀ x ∈ ms, x.call ∈ ms.map Moment.call := fun x hx => List.mem_map_of_mem hx
  have hunique : ∀ c ∈ ms.map Moment.call, ∀ d ∈ ms.map Moment.call, c.node = d.node → c = d := by
    rintro c hc d hd hnodes
    obtain ⟨x, hx, rfl⟩ := List.mem_map.1 hc
    obtain ⟨y, hy, rfl⟩ := List.mem_map.1 hd
    rw [List.inj_on_of_nodup_map hnodup hx hy hnodes]
  -- the lists of the frames are changed behind their positions at most
  have hlist : ∀ g ∈ f :: rest, ∀ j, Above (ms.map Moment.call) m.call g.parent j →
      (m.after.store.list g.list).take (j + 1) = (m.before.store.list g.list).take (j + 1) := by
    intro g hg j habove
    obtain ⟨x, hx, hparent⟩ := List.mem_map.1 (h.parent_mem g hg)
    have hnode := hpermitted.node x.call (hcalls x hx) (hother x hx)
    have hchildren := hpermitted.above g.parent j habove
    rwa [Store.children, Store.children, ← hparent, hnode, hparent, ← h.list_eq g hg] at hchildren
  have hfirst : (m.after.store.list f.list).take (f.position + 1) =
      (m.before.store.list f.list).take (f.position + 1) := by
    refine hlist f List.mem_cons_self f.position ?_
    rw [hcall]
    exact .parent
  constructor
  · refine h.congr hnodup (fun x hx => hpermitted.node x.call (hcalls x hx) (hother x hx))
      (fun g hg => ?_) fun x hx hout => ?_
    · rcases List.mem_cons.1 hg with rfl | hg
      · have hmin : min g.position (g.position + 1) = g.position := Nat.min_eq_left (Nat.le_succ _)
        rw [← hmin, ← List.take_take, hfirst, List.take_take]
      · obtain ⟨j, hj, habove⟩ := h.above hcalls k g hg
        rw [hj]
        refine hlist g (List.mem_cons_of_mem _ hg) j ?_
        rwa [hcall]
    · refine hpermitted.list x.call (hcalls x hx) (hother x hx) fun j habove => ?_
      rw [hcall] at habove
      exact hout (h.mem_of_above hcalls hunique habove)
  · rw [← List.getElem?_take_of_lt (Nat.lt_succ_self f.position), hfirst,
      List.getElem?_take_of_lt (Nat.lt_succ_self f.position), hk]

/-! ## The walk -/

/-- The visits of a walk that comes to its end list the tree that it leaves. -/
theorem lists_of_loop {visit : Visitor μ} {all : List (Moment μ)}
    (hpermitted : ∀ earlier m later, all = earlier ++ m :: later → Permitted root earlier m)
    {budget : Nat} {w w' : World (μ × List (Moment μ))} {ks : List Skeleton}
    (hrun : loop .any (observed visit) budget (f :: rest) w = .ok () w') (hall : w'.memory.2 = all)
    (hstands : Stands w.store root (f :: rest) w.memory.2) (hspells : w.store.Spells (.node root ks))
    (hks : (Skeleton.node root ks).nodes.Nodup) :
    ∃ goesOn ks', Lists w'.store root none none all goesOn ∧ w'.store.Spells (.node root ks') ∧
      (Skeleton.node root ks').nodes.Nodup := by
  induction budget generalizing f rest w ks with
  | zero => cases hrun
  | succ budget ih =>
    rw [loop_cons] at hrun
    cases hk : (w.store.list f.list)[f.position]? with
    | none =>
      rw [step_of_none hk] at hrun
      dsimp only at hrun
      cases rest with
      | nil =>
        rw [loop_nil] at hrun
        cases hrun
        exact ⟨true, ks, hall ▸ hstands.finish hk, hspells, hks⟩
      | cons g rest => exact ih hrun (hstands.close hk) hspells hks
    | some k =>
      rw [step_of_some hk, enter_of_accepts rfl] at hrun
      cases hvisit : observed visit k (some f.position) (some f.parent) w with
      | error fault v =>
        rw [hvisit] at hrun
        cases hrun
      | ok action v =>
        rw [hvisit] at hrun
        obtain ⟨m, hcall, hbefore, hafter, hanswer, haccount⟩ := observed_of_ok hvisit
        have hstore : m.before.store = w.store := by rw [hbefore, store_view]
        have hstore' : m.after.store = v.store := by rw [hafter, store_view]
        obtain ⟨frames, hnext⟩ : ∃ frames, loop .any (observed visit) budget frames v = .ok () w' := by
          cases action <;> exact ⟨_, hrun⟩
        obtain ⟨later, hlater⟩ := account_loop hnext
        rw [haccount, List.append_assoc, hall] at hlater
        have hvisited := hpermitted _ m later hlater
        obtain ⟨ks', hspells', hks'⟩ := hvisited.tree
        rw [← hstore] at hstands hk hspells
        obtain ⟨hstands', hk'⟩ := hstands.of_permitted hk hcall hspells hks hvisited
        rw [hstore'] at hstands' hk' hspells'
        cases action with
        | exit =>
          dsimp only at hrun
          rw [loop_nil] at hrun
          cases hrun
          rw [haccount] at hall
          exact ⟨false, ks', hall ▸ hstands'.stop hk' (.exit hcall hanswer), hspells', hks'⟩
        | skip =>
          refine ih hrun ?_ hspells' hks'
          rw [haccount]
          exact hstands'.extend hk' (.skip hcall hanswer)
        | proceed =>
          refine ih hrun ?_ hspells' hks'
          rw [haccount]
          exact .child hstands' hk' hcall hanswer (opened_nil v.store k)

/-- The visits of a walk list the tree that it leaves, from the visit of the root on. -/
theorem lists_of_run {visit : Visitor μ} {budget : Nat} {w w' : World (μ × List (Moment μ))}
    (hempty : w.memory.2 = []) (hrun : run .any (observed visit) budget root w = .ok () w')
    (hpermitted : ∀ earlier m later, w'.memory.2 = earlier ++ m :: later →
      Permitted root earlier m) :
    ∃ goesOn ks, Lists w'.store root none none w'.memory.2 goesOn ∧
      w'.store.Spells (.node root ks) ∧ (Skeleton.node root ks).nodes.Nodup := by
  rw [run_apply, enter_of_accepts rfl] at hrun
  cases hvisit : observed visit root none none w with
  | error fault v =>
    rw [hvisit] at hrun
    cases hrun
  | ok action v =>
    rw [hvisit] at hrun
    obtain ⟨m, hcall, -, hafter, hanswer, haccount⟩ := observed_of_ok hvisit
    rw [hempty, List.nil_append] at haccount
    obtain ⟨frames, hnext⟩ : ∃ frames, loop .any (observed visit) budget frames v = .ok () w' := by
      cases action with
      | proceed => exact ⟨_, hrun⟩
      | skip | exit => exact ⟨[], by rwa [loop_nil]⟩
    obtain ⟨later, hlater⟩ := account_loop hnext
    rw [haccount] at hlater
    obtain ⟨ks, hspells, hks⟩ := (hpermitted [] m later hlater).tree
    rw [hafter, store_view] at hspells
    cases action with
    | exit =>
      cases hrun
      rw [haccount]
      exact ⟨false, ks, .exit hcall hanswer, hspells, hks⟩
    | skip =>
      cases hrun
      rw [haccount]
      exact ⟨true, ks, .skip hcall hanswer, hspells, hks⟩
    | proceed =>
      refine lists_of_loop hpermitted hrun rfl ?_ hspells hks
      rw [haccount]
      exact .root hcall hanswer (opened_nil v.store root)

/-- **A walk visits the tree that it leaves, in document order**, whatever its visitor does to nodes that
the walk has not come to yet, to the node that it is called on and to the lists above it behind the
positions that are walked. Each node that is visited is visited once, at the position and below the
parent that it has in the end; what is below nodes answered with `skip` is left out. If a visit answers
with `exit`, it is the last one, and the visits are the first ones in the order of the tree that there
is then. -/
theorem run_in_document_order {visit : Visitor μ} {budget : Nat} {root : NodeId} {w w' : World μ}
    (hrun : run .any visit budget root w = .ok () w')
    (hpermitted : ∀ earlier m later, momentsOf .any visit budget root w = earlier ++ m :: later →
      Permitted root earlier m) :
    ∃ sk : Skeleton, sk.root = root ∧ w'.store.Spells sk ∧ sk.nodes.Nodup ∧
      ((callsOf (run .any · budget root) visit w).map Call.node).Nodup ∧
      ((∀ m ∈ momentsOf .any visit budget root w, m.answer? ≠ some .exit) →
        callsOf (run .any · budget root) visit w =
          sk.preorder (skippedIn (momentsOf .any visit budget root w)) none none) ∧
      ∀ earlier m later, momentsOf .any visit budget root w = earlier ++ m :: later →
        m.answer? = some .exit → later = [] ∧
          callsOf (run .any · budget root) visit w <+:
            sk.preorder (skippedIn (momentsOf .any visit budget root w)) none none := by
  have hview := run_observed .any visit budget root w
  have hmoments : momentsOf .any visit budget root w =
    (left (run .any (observed visit) budget root ⟨w.store, w.memory, []⟩)).memory.2 := rfl
  rw [hrun] at hview
  cases hobserved : run .any (observed visit) budget root ⟨w.store, w.memory, []⟩ with
  | error halt v =>
    rw [hobserved] at hview
    cases hview
  | ok a v =>
    rw [hobserved, viewed_ok] at hview
    cases hview
    rw [hobserved] at hmoments
    rw [callsOf_eq_map_momentsOf]
    rw [hmoments] at hpermitted ⊢
    obtain ⟨goesOn, ks, hlists, hspells, hks⟩ := lists_of_run rfl hobserved hpermitted
    have hnodup := hks.sublist (hlists.nodes_sublist hspells)
    obtain ⟨rest, horder, hall⟩ := hlists.calls_preorder hspells fun m hm =>
      skippedIn_of_mem hnodup hm
    obtain ⟨init, ends, hsplit, hinit, hends⟩ := hlists.exists_init
    refine ⟨.node root ks, rfl, hspells, hks, ?_, fun hnone => ?_, fun earlier m later hm hexit => ?_⟩
    · rwa [List.map_map]
    · cases goesOn with
      | true =>
        rw [hall rfl, List.append_nil] at horder
        exact horder.symm
      | false =>
        obtain ⟨m, rfl, hexit⟩ := hends
        refine absurd hexit (hnone m ?_)
        rw [left, hsplit]
        exact List.mem_append_right _ List.mem_cons_self
    · refine ⟨?_, ⟨rest, horder.symm⟩⟩
      rw [left] at hm
      rw [hm] at hlists
      exact hlists.later_eq_nil hexit

/-- A root with one child, which has a child itself, and a node beside them. -/
def smallTree : Store where
  nodes := #[
    { type := "root", children := ⟨0⟩ },
    { type := "paragraph", children := ⟨1⟩ },
    { type := "paragraph", children := ⟨2⟩ },
    { type := "text", children := ⟨3⟩ }]
  lists := #[[⟨1⟩], [⟨3⟩], [], []]

/-- The visitor that, at the child, appends the node to the list of the root and skips the child. -/
def appending : Visitor Unit := fun n _ _ => do
  if n = ⟨1⟩ then
    Effect.changeStore (Store.append · ⟨0⟩ ⟨2⟩)
    return .skip
  else return .proceed

/-- The tree with the node appended. -/
def grownTree : Store :=
  smallTree.append ⟨0⟩ ⟨2⟩

theorem momentsOf_appending : momentsOf .any appending 6 ⟨0⟩ ⟨smallTree, ()⟩ =
    [moment appending ⟨0⟩ none none ⟨smallTree, ()⟩,
      moment appending ⟨1⟩ (some 0) (some ⟨0⟩) ⟨smallTree, ()⟩,
      moment appending ⟨2⟩ (some 1) (some ⟨0⟩) ⟨grownTree, ()⟩] := by
  rfl

/-- The skeleton of that tree. -/
def grownSkeleton : Skeleton :=
  .node ⟨0⟩ [.node ⟨1⟩ [.node ⟨3⟩ []], .node ⟨2⟩ []]

theorem spells_grownTree : grownTree.Spells grownSkeleton := by
  decide

theorem permitted_appending (earlier : List (Moment Unit)) (m : Moment Unit)
    (later : List (Moment Unit))
    (h : momentsOf .any appending 6 ⟨0⟩ ⟨smallTree, ()⟩ = earlier ++ m :: later) :
    Permitted ⟨0⟩ earlier m := by
  have hsmall : smallTree.Spells (.node ⟨0⟩ [.node ⟨1⟩ [.node ⟨3⟩ []]]) := by decide
  rw [momentsOf_appending] at h
  match earlier, h with
  | [], h =>
    cases h
    exact permitted_of_unchanged hsmall (by decide) rfl
  | [_], h =>
    cases h
    constructor
    case tree => exact ⟨_, spells_grownTree, by decide⟩
    case node =>
      intro c hc _
      rw [List.mem_singleton.1 hc]
      rfl
    case list =>
      intro c hc _ habove
      rw [List.mem_singleton.1 hc] at habove
      exact absurd .parent (habove 0)
    case above =>
      intro k j habove
      cases habove with
      | parent => rfl
      | further hd _ habove =>
        rw [List.mem_singleton.1 hd] at habove
        cases habove with
        | further _ hnone _ => cases hnone
  | [_, _], h =>
    cases h
    exact permitted_of_unchanged spells_grownTree (by decide) rfl
  | _ :: _ :: _ :: earlier, h => cases earlier <;> cases h

/-- The appended node is visited where it is in the end, and what is below the skipped child is not. -/
theorem run_appending_in_document_order :
    ∃ w', run .any appending 6 ⟨0⟩ ⟨smallTree, ()⟩ = .ok () w' ∧ w'.store.Spells grownSkeleton ∧
      callsOf (run .any · 6 ⟨0⟩) appending ⟨smallTree, ()⟩ =
        grownSkeleton.preorder (· == ⟨1⟩) none none := by
  have hrun : run .any appending 6 ⟨0⟩ ⟨smallTree, ()⟩ = .ok () ⟨grownTree, ()⟩ := rfl
  obtain ⟨sk, hroot, hspells, -, -, horder, -⟩ := run_in_document_order hrun permitted_appending
  obtain rfl : sk = grownSkeleton := spells_grownTree.unique hspells hroot
  refine ⟨_, hrun, hspells, ?_⟩
  rw [horder (by rw [momentsOf_appending]; decide), momentsOf_appending]
  rfl

end DirectiveLowering.Walk
