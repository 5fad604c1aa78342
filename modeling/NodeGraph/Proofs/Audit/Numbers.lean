import NodeGraph.Proofs.Audit.Beat

/-!
# Numbers are never given out twice

Everything that outlives its node is told apart from what came later by its
number alone, so two facts carry all that follows.

> `Numbered`: the numbers of all nodes and handles ever given are distinct and
> none is above the graph's `lastId`; neither is any that was shut down or
> dropped.
>
> `Coherent`: a handle names the topic or service that was asked for, resolved,
> and a publisher belongs to the node that asked.

Both hold of the empty audit and are kept by every beat, because a number is
entered only where `lastId` moves up to it. `handle_inj` and `members_drop_of_ne`
are what other files take from here: a number belongs to one handle, and so a
drop leaves every topic alone that the handle does not name.
-/

namespace NodeGraph

universe u

variable {ε : Type} {τ : Type u}

/-- Numbers are distinct, and `lastId` is above all that were ever in use. -/
structure Numbered (g : Graph ε) (l : Ledger ε) : Prop where
  ids : l.ids.Nodup
  bound : ∀ id ∈ l.ids, id ≤ g.lastId
  dropped : ∀ id ∈ l.dropped, id ≤ g.lastId
  down : ∀ id ∈ l.down, id ≤ g.lastId

/-- Handles say what was asked for. -/
structure Coherent (l : Ledger ε) : Prop where
  subscription : ∀ c ∈ l.subscriptions, c.handle = .subscriber c.target c.id
  publication : ∀ c ∈ l.publications, c.handle = .publisher c.target c.id ∧
    c.item.publisher.node = c.node.id ∧ c.item.publisher.topic = c.target
  offer : ∀ c ∈ l.offers, c.handle = .service c.target c.id

/-! ## What follows from them -/

namespace Numbered

variable {g : Graph ε} {l : Ledger ε}

/-- A number belongs to one handle only. -/
theorem handle_inj (h : Numbered g l) {r s : Registration} (hr : r ∈ l.handles)
    (hs : s ∈ l.handles) (hid : r.id = s.id) : r = s := by
  have hnodup : (l.handles.map Registration.id).Nodup := (List.nodup_append.mp h.ids).2.1
  exact List.inj_on_of_nodup_map hnodup hr hs hid

/-- A number belongs to one node only. -/
theorem node_inj (h : Numbered g l) {m n : Node} (hm : m ∈ l.nodes) (hn : n ∈ l.nodes)
    (hid : m.id = n.id) : m = n := by
  have hnodup : (l.nodes.map Node.id).Nodup := (List.nodup_append.mp h.ids).1
  exact List.inj_on_of_nodup_map hnodup hm hn hid

/-- A number belongs to one grant of each kind only. -/
theorem grants_nodup (h : Numbered g l) : (l.subscriptions.map Grant.id).Nodup ∧
    (l.publications.map Grant.id).Nodup ∧ (l.offers.map Grant.id).Nodup := by
  have hnodup : (l.handles.map Registration.id).Nodup := (List.nodup_append.mp h.ids).2.1
  unfold Ledger.handles at hnodup
  rw [List.map_append, List.map_append, List.map_map, List.map_map, List.map_map] at hnodup
  obtain ⟨hsubs, hrest, -⟩ := List.nodup_append.mp hnodup
  obtain ⟨hpubs, hoffers, -⟩ := List.nodup_append.mp hrest
  exact ⟨hsubs, hpubs, hoffers⟩

theorem subscription_inj (h : Numbered g l) {c d : Grant (Intake ε)}
    (hc : c ∈ l.subscriptions) (hd : d ∈ l.subscriptions) (hid : c.id = d.id) : c = d :=
  List.inj_on_of_nodup_map h.grants_nodup.1 hc hd hid

theorem publication_inj (h : Numbered g l) {c d : Grant Outlet} (hc : c ∈ l.publications)
    (hd : d ∈ l.publications) (hid : c.id = d.id) : c = d :=
  List.inj_on_of_nodup_map h.grants_nodup.2.1 hc hd hid

theorem offer_inj (h : Numbered g l) {c d : Grant Offer} (hc : c ∈ l.offers)
    (hd : d ∈ l.offers) (hid : c.id = d.id) : c = d :=
  List.inj_on_of_nodup_map h.grants_nodup.2.2 hc hd hid

/-- The next number has not been dropped yet, so a grant that gets it to a live
node stands. -/
theorem isOpen_of_next (h : Numbered g l) {c : Grant τ} (hid : c.id = g.lastId + 1)
    (hlive : c.node ∈ l.live) : l.isOpen c = true := by
  rw [Ledger.isOpen_iff, hid]
  refine ⟨fun hdropped => ?_, (Ledger.mem_live.mp hlive).2⟩
  have := h.dropped _ hdropped
  omega

/-- A drop leaves the topic `topic` alone unless the handle is one of its
grants. -/
theorem members_drop_of_ne (h : Numbered g l) {cs : List (Grant τ)} {topic : String}
    {r : Registration} (hr : r ∈ l.handles) (hcs : ∀ c ∈ cs, c.handle ∈ l.handles)
    (hne : ∀ c ∈ cs, c.target = topic → c.handle ≠ r) :
    (l.drop r.id).members cs topic = l.members cs topic := by
  rw [Ledger.members_drop, List.filter_eq_self]
  intro m hm
  obtain ⟨c, hc, -, ht, rfl⟩ := Ledger.mem_members.mp hm
  rw [decide_eq_true_iff]
  intro hid
  exact hne c hc ht (h.handle_inj (hcs c hc) hr hid)

/-- Everybody who has a number more has the next one. -/
theorem grow (h : Numbered g l) {g' : Graph ε} {l' : Ledger ε} (hlast : g'.lastId = g.lastId + 1)
    (hids : l'.ids.Perm ((g.lastId + 1) :: l.ids)) (hdropped : l'.dropped = l.dropped)
    (hdown : l'.down = l.down) : Numbered g' l' := by
  -- the next number is above all that were given out
  have hfresh : g.lastId + 1 ∉ l.ids := by
    intro hmem
    have := h.bound _ hmem
    omega
  refine ⟨hids.nodup_iff.mpr (List.nodup_cons.mpr ⟨hfresh, h.ids⟩), ?_, ?_, ?_⟩
  · intro id hid
    rcases List.mem_cons.mp (hids.mem_iff.mp hid) with rfl | hold
    · omega
    · have := h.bound id hold
      omega
  · intro id hid
    have := h.dropped id (hdropped ▸ hid)
    omega
  · intro id hid
    have := h.down id (hdown ▸ hid)
    omega

end Numbered

/-- What is written down beside the handles and nodes does not matter. -/
theorem Numbered.congr {g g' : Graph ε} {l l' : Ledger ε} (h : Numbered g l)
    (hlast : g'.lastId = g.lastId) (hnodes : l'.nodes = l.nodes)
    (hhandles : l'.handles = l.handles) (hdropped : l'.dropped = l.dropped)
    (hdown : l'.down = l.down) : Numbered g' l' := by
  have hids : l'.ids = l.ids := by
    unfold Ledger.ids
    rw [hnodes, hhandles]
  refine ⟨hids ▸ h.ids, ?_, ?_, ?_⟩
  · rw [hids, hlast]
    exact h.bound
  · rw [hdropped, hlast]
    exact h.dropped
  · rw [hdown, hlast]
    exact h.down

namespace Ledger

variable {l : Ledger ε}

theorem handle_of_subscription {c : Grant (Intake ε)} (h : c ∈ l.subscriptions) :
    c.handle ∈ l.handles :=
  mem_handles.mpr (.inl ⟨c, h, rfl⟩)

theorem handle_of_publication {c : Grant Outlet} (h : c ∈ l.publications) :
    c.handle ∈ l.handles :=
  mem_handles.mpr (.inr (.inl ⟨c, h, rfl⟩))

theorem handle_of_offer {c : Grant Offer} (h : c ∈ l.offers) : c.handle ∈ l.handles :=
  mem_handles.mpr (.inr (.inr ⟨c, h, rfl⟩))

theorem id_mem_ids {r : Registration} (h : r ∈ l.handles) : r.id ∈ l.ids :=
  List.mem_append_right _ (List.mem_map_of_mem h)

theorem node_id_mem_ids {n : Node} (h : n ∈ l.nodes) : n.id ∈ l.ids :=
  List.mem_append_left _ (List.mem_map_of_mem h)

end Ledger

/-! ## Every beat keeps them -/

namespace Audit

@[simp] theorem lastId_unregister (g : Graph ε) (r : Registration) :
    (g.unregister r).lastId = g.lastId := by
  cases r <;> rfl

theorem numbered_beat {a b : Audit ε} (hb : Beat a b) (h : Numbered a.graph a.ledger) :
    Numbered b.graph b.ledger := by
  cases hb with
  | journal => exact ⟨h.ids, h.bound, h.dropped, h.down⟩
  | skip =>
    exact ⟨h.ids, fun id hid => Nat.le_succ_of_le (h.bound id hid),
      fun id hid => Nat.le_succ_of_le (h.dropped id hid),
      fun id hid => Nat.le_succ_of_le (h.down id hid)⟩
  | enter node hid _ =>
    exact h.grow hid (hid ▸ Ledger.ids_enter a.ledger node) rfl rfl
  | subscribe c base t _ hhandle _ _ =>
    have hid : c.id = a.graph.lastId + 1 := congrArg Registration.id hhandle
    refine h.grow hid ?_ rfl rfl
    rw [← hid]
    exact Ledger.ids_of_handles rfl (Ledger.handles_subscribe _ c)
  | publish c base t _ hhandle _ _ _ =>
    have hid : c.id = a.graph.lastId + 1 := congrArg Registration.id hhandle
    refine h.grow hid ?_ rfl rfl
    rw [← hid]
    exact Ledger.ids_of_handles rfl (Ledger.handles_publish _ c)
  | offer c _ hhandle _ =>
    have hid : c.id = a.graph.lastId + 1 := congrArg Registration.id hhandle
    refine h.grow hid ?_ rfl rfl
    rw [← hid]
    exact Ledger.ids_of_handles rfl (Ledger.handles_offer _ c)
  | post letter t _ _ => exact h.congr rfl rfl (Ledger.handles_post _ _) rfl rfl
  | drop r hr =>
    -- what is dropped was held, so it has a number that is known
    refine ⟨h.ids, ?_, ?_, ?_⟩
    · rw [lastId_unregister]
      exact h.bound
    · intro id hid
      rw [lastId_unregister]
      rcases List.mem_append.mp hid with hold | hnew
      · exact h.dropped id hold
      · rw [List.mem_singleton.mp hnew]
        exact h.bound _ (Ledger.id_mem_ids hr.1)
    · rw [lastId_unregister]
      exact h.down
  | shutDown node hnode =>
    refine ⟨h.ids, h.bound, h.dropped, ?_⟩
    intro id hid
    rcases List.mem_append.mp hid with hold | hnew
    · exact h.down id hold
    · rw [List.mem_singleton.mp hnew]
      exact h.bound _ (Ledger.node_id_mem_ids (Ledger.mem_live.mp hnode).1)
  | turn feed _ _ _ => exact h.congr rfl rfl (Ledger.handles_turn _ _) rfl rfl

/-- Adding a grant that says what was asked for keeps a list of such grants. -/
private theorem forall_append {P : Grant τ → Prop} {cs : List (Grant τ)} {c : Grant τ}
    (hcs : ∀ d ∈ cs, P d) (hc : P c) : ∀ d ∈ cs ++ [c], P d := by
  intro d hd
  rcases List.mem_append.mp hd with hold | hnew
  · exact hcs d hold
  · rw [List.mem_singleton.mp hnew]
    exact hc

/-- What does not look at the item survives updates of the items. -/
private theorem forall_update {P : Grant τ → Prop} {cs : List (Grant τ)}
    (f : Grant τ → τ → τ) (hcs : ∀ d ∈ cs, P d)
    (hP : ∀ d change, P d → P (Grant.update change d)) :
    ∀ d ∈ cs.map (fun c => c.update (f c)), P d := by
  intro d hd
  obtain ⟨c, hc, rfl⟩ := List.mem_map.mp hd
  exact hP c _ (hcs c hc)

theorem coherent_beat {a b : Audit ε} (hb : Beat a b) (h : Coherent a.ledger) :
    Coherent b.ledger := by
  cases hb with
  | journal => exact h
  | skip => exact h
  | enter => exact ⟨h.subscription, h.publication, h.offer⟩
  | subscribe c base t _ hhandle _ _ =>
    have hid : c.id = a.graph.lastId + 1 := congrArg Registration.id hhandle
    exact ⟨forall_append h.subscription (hid ▸ hhandle), h.publication, h.offer⟩
  | publish c base t _ hhandle hnode htopic _ =>
    have hid : c.id = a.graph.lastId + 1 := congrArg Registration.id hhandle
    exact ⟨h.subscription, forall_append h.publication ⟨hid ▸ hhandle, hnode, htopic⟩, h.offer⟩
  | offer c _ hhandle _ =>
    have hid : c.id = a.graph.lastId + 1 := congrArg Registration.id hhandle
    exact ⟨h.subscription, h.publication, forall_append h.offer (hid ▸ hhandle)⟩
  | post letter t _ _ =>
    exact ⟨forall_update _ h.subscription fun _ _ hd => hd, h.publication, h.offer⟩
  | drop => exact ⟨h.subscription, h.publication, h.offer⟩
  | shutDown => exact ⟨h.subscription, h.publication, h.offer⟩
  | turn feed _ _ _ =>
    exact ⟨forall_update _ h.subscription fun _ _ hd => hd, h.publication, h.offer⟩

theorem numbered_start : Numbered ({} : Graph ε) {} :=
  ⟨List.nodup_nil, by simp [Ledger.ids, Ledger.handles], by simp, by simp⟩

theorem coherent_start : Coherent ({} : Ledger ε) := ⟨by simp, by simp, by simp⟩

end Audit

end NodeGraph
