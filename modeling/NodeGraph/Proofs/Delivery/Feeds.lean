import NodeGraph.Proofs.Delivery.Serves
import NodeGraph.Proofs.Registry.Exact

/-!
# Every feed serves its subscription

> `Fed`: the feeds are those of the granted subscriptions, in their order, and
> each serves its own.

Whether a feed is pushed to is decided by the topic's list of subscriptions, and
whether it is closed by a number in a handle or in those lists. The registry
being exact (`Sound`) turns both into the ledger's terms: the feeds pushed to
are those of the open subscriptions on the topic, and the feeds closed are those
that an entry in the ledger closes. What is left is to do the same thing to each
feed and to its grant, which is `Fed.map`.
-/

namespace NodeGraph

variable {ε : Type}

/-- All feeds, each with its grant. -/
structure Fed (a : Audit ε) : Prop where
  ids : a.graph.feeds.map Feed.id = a.ledger.subscriptions.map Grant.id
  serves : ∀ c ∈ a.ledger.subscriptions, ∀ f ∈ a.graph.feeds, f.id = c.id →
    Serves (a.ledger.isOpen c) c f

/-! ## What happens to all feeds -/

/-- The subscriptions whose feeds close when a handle is dropped. -/
def Graph.closes (g : Graph ε) : Handle → List Nat
  | .node node => g.subscriptionsOf node.id
  | .registration (.subscriber _ id) => [id]
  | _ => []

/-- **Dropping a handle closes feeds and does nothing else to them.** -/
theorem feeds_drop (g : Graph ε) (handle : Handle) :
    (g.drop handle).feeds = g.feeds.close (g.closes handle) := by
  have hnone : g.feeds.close [] = g.feeds := by
    unfold Feeds.close
    simp
  rcases handle with node | logger | registration
  · rfl
  · exact hnone.symm
  · rcases registration with ⟨topic, id⟩ | ⟨topic, id⟩ | ⟨name, id⟩
    · rfl
    · exact hnone.symm
    · exact hnone.symm

namespace Fed

variable {a b : Audit ε}

/-- A number belongs to one feed only. -/
theorem feed_inj (h : Fed a) (hs : Sound a) {f f' : Feed ε} (hf : f ∈ a.graph.feeds)
    (hf' : f' ∈ a.graph.feeds) (hid : f.id = f'.id) : f = f' := by
  have hnodup : (a.graph.feeds.map Feed.id).Nodup := h.ids ▸ hs.numbered.grants_nodup.1
  exact List.inj_on_of_nodup_map hnodup hf hf' hid

/-- Every subscription ever granted has its feed. -/
theorem exists_feed (h : Fed a) {c : Grant (Intake ε)} (hc : c ∈ a.ledger.subscriptions) :
    ∃ f ∈ a.graph.feeds, f.id = c.id ∧ Serves (a.ledger.isOpen c) c f := by
  have hmem : c.id ∈ a.graph.feeds.map Feed.id := h.ids ▸ List.mem_map_of_mem hc
  obtain ⟨f, hf, hid⟩ := List.mem_map.mp hmem
  exact ⟨f, hf, hid, h.serves c hc f hf hid⟩

/-- What is done to feeds one by one, while the ledger does the same to their
grants. -/
theorem map (h : Fed a) (F : Feed ε → Feed ε) (G : Grant (Intake ε) → Grant (Intake ε))
    (hfeeds : b.graph.feeds = a.graph.feeds.map F)
    (hgrants : b.ledger.subscriptions = a.ledger.subscriptions.map G)
    (hF : ∀ f ∈ a.graph.feeds, (F f).id = f.id) (hG : ∀ c, (G c).id = c.id)
    (hserves : ∀ c ∈ a.ledger.subscriptions, ∀ f ∈ a.graph.feeds, f.id = c.id →
      Serves (a.ledger.isOpen c) c f → Serves (b.ledger.isOpen (G c)) (G c) (F f)) : Fed b := by
  refine ⟨?_, ?_⟩
  · rw [hfeeds, hgrants, List.map_map, List.map_map]
    calc a.graph.feeds.map (Feed.id ∘ F)
        = a.graph.feeds.map Feed.id := List.map_congr_left hF
      _ = a.ledger.subscriptions.map Grant.id := h.ids
      _ = a.ledger.subscriptions.map (Grant.id ∘ G) := List.map_congr_left fun c _ => (hG c).symm
  · intro c' hc' f' hf' hid
    rw [hgrants] at hc'
    rw [hfeeds] at hf'
    obtain ⟨c, hc, rfl⟩ := List.mem_map.mp hc'
    obtain ⟨f, hf, rfl⟩ := List.mem_map.mp hf'
    rw [hF f hf, hG c] at hid
    exact hserves c hc f hf hid (h.serves c hc f hf hid)

/-- Nothing happens to any feed or its grant. -/
theorem congr (h : Fed a) (hfeeds : b.graph.feeds = a.graph.feeds)
    (hgrants : b.ledger.subscriptions = a.ledger.subscriptions)
    (hopen : ∀ c ∈ a.ledger.subscriptions, b.ledger.isOpen c = a.ledger.isOpen c) : Fed b := by
  refine ⟨by rw [hfeeds, hgrants, h.ids], ?_⟩
  intro c hc f hf hid
  rw [hgrants] at hc
  rw [hfeeds] at hf
  rw [hopen c hc]
  exact h.serves c hc f hf hid

/-- A subscription more, and a feed for it. -/
theorem subscribe (h : Fed a) (hs : Sound a) {c : Grant (Intake ε)}
    (hnew : c.item.window = [] ∧ c.item.taken = [] ∧ c.item.heard = [])
    (hid : c.id = a.graph.lastId + 1) (hopen : a.ledger.isOpen c = true) {g : Graph ε}
    (hfeeds : g.feeds = a.graph.feeds ++ [c.feed]) : Fed ⟨g, a.ledger.subscribe c⟩ := by
  have hfresh : ∀ d ∈ a.ledger.subscriptions, d.id ≠ c.id := by
    intro d hd he
    have hle := hs.numbered.bound _ (Ledger.id_mem_ids (Ledger.handle_of_subscription hd))
    have heq : d.handle.id = a.graph.lastId + 1 := he.trans hid
    omega
  refine ⟨?_, ?_⟩
  · show g.feeds.map Feed.id = (a.ledger.subscriptions ++ [c]).map Grant.id
    rw [hfeeds, List.map_append, List.map_append, h.ids]
    rfl
  · intro d hd f hf hfd
    have hd : d ∈ a.ledger.subscriptions ++ [c] := hd
    have hf : f ∈ a.graph.feeds ++ [c.feed] := hfeeds ▸ hf
    rcases List.mem_append.mp hd with hold | hnewd
    · rcases List.mem_append.mp hf with hfold | hfnew
      · exact h.serves d hold f hfold hfd
      · rw [List.mem_singleton.mp hfnew] at hfd
        exact absurd hfd.symm (hfresh d hold)
    · rw [List.mem_singleton.mp hnewd] at hfd ⊢
      rcases List.mem_append.mp hf with hfold | hfnew
      · -- an older feed has the number of an older grant
        have hmem : f.id ∈ a.ledger.subscriptions.map Grant.id :=
          h.ids ▸ List.mem_map_of_mem hfold
        obtain ⟨e, he, hef⟩ := List.mem_map.mp hmem
        exact absurd (hef.trans hfd) (hfresh e he)
      · rw [List.mem_singleton.mp hfnew]
        have hstands : (a.ledger.subscribe c).isOpen c = true := hopen
        rw [hstands]
        exact Serves.start hnew

end Fed

/-! ## Every beat -/

namespace Audit

variable {a b : Audit ε}

/-- A topic hands letters to the open subscriptions on it. -/
theorem mem_subscribers_iff (hs : Sound a) {t : Topic} (ht : t ∈ a.graph.topics)
    {c : Grant (Intake ε)} (hc : c ∈ a.ledger.subscriptions) :
    c.id ∈ t.subscribers.map Member.id ↔ a.ledger.isOpen c = true ∧ c.target = t.name := by
  rw [hs.exact.topics.subscribers t ht, List.mem_map]
  constructor
  · intro hex
    obtain ⟨m, hm, hid⟩ := hex
    obtain ⟨d, hd, hopen, htarget, rfl⟩ := Ledger.mem_members.mp hm
    have hdc : d = c := hs.numbered.subscription_inj hd hc hid
    exact ⟨hdc ▸ hopen, hdc ▸ htarget⟩
  · intro hboth
    obtain ⟨hopen, htarget⟩ := hboth
    exact ⟨c.member, Ledger.mem_members.mpr ⟨c, hc, hopen, htarget, rfl⟩, rfl⟩

/-- A node has those open subscriptions that are its own. -/
theorem mem_subscriptionsOf_iff (hs : Sound a) {node : Nat} {c : Grant (Intake ε)}
    (hc : c ∈ a.ledger.subscriptions) :
    c.id ∈ a.graph.subscriptionsOf node ↔ a.ledger.isOpen c = true ∧ c.node.id = node := by
  unfold Graph.subscriptionsOf
  rw [List.mem_map]
  constructor
  · intro hex
    obtain ⟨m, hm, hid⟩ := hex
    obtain ⟨hmem, hnode⟩ := List.mem_filter.mp hm
    obtain ⟨t, ht, hmt⟩ := List.mem_flatMap.mp hmem
    rw [hs.exact.topics.subscribers t ht] at hmt
    obtain ⟨d, hd, hopen, -, rfl⟩ := Ledger.mem_members.mp hmt
    have hdc : d = c := hs.numbered.subscription_inj hd hc hid
    rw [hdc] at hopen hnode
    exact ⟨hopen, of_decide_eq_true hnode⟩
  · intro hboth
    obtain ⟨hopen, hnode⟩ := hboth
    have hmem : c.member ∈ a.ledger.subscribersOf c.target :=
      Ledger.mem_members.mpr ⟨c, hc, hopen, rfl, rfl⟩
    -- an open grant is in use, so its topic is there
    obtain ⟨t, ht, hname⟩ :=
      (hs.exact.topics.exists_iff c.target).mpr (.inl (List.ne_nil_of_mem hmem))
    rw [← hname, ← hs.exact.topics.subscribers t ht] at hmem
    exact ⟨c.member, List.mem_filter.mpr
      ⟨List.mem_flatMap.mpr ⟨t, ht, hmem⟩, decide_eq_true hnode⟩, rfl⟩

theorem fed_post (hs : Sound a) (h : Fed a) {letter : Letter} {t : Topic}
    (ht : a.graph.topic? letter.topic = some t) :
    Fed ⟨a.graph.fanOut t letter.payload, a.ledger.post letter⟩ := by
  obtain ⟨hmem, hname⟩ := mem_of_find?_topic ht
  refine h.map
    (fun f => if f.id ∈ t.subscribers.map Member.id then f.push letter.payload else f)
    (fun c => c.update fun s =>
      if a.ledger.isOpen c ∧ c.target = letter.topic then s.witness letter else s)
    rfl rfl ?_ (fun _ => rfl) ?_
  · intro f _
    split <;> rfl
  · intro c hc f hf hid hserves
    show Serves (a.ledger.isOpen c) _ _
    rw [hid]
    by_cases hon : c.id ∈ t.subscribers.map Member.id
    · obtain ⟨hopen, htarget⟩ := (mem_subscribers_iff hs hmem hc).mp hon
      have hyes : a.ledger.isOpen c = true ∧ c.target = letter.topic :=
        ⟨hopen, htarget.trans hname⟩
      simp only [if_pos hon, if_pos hyes]
      rw [hopen] at hserves ⊢
      exact hserves.push letter
    · have hoff : ¬ (a.ledger.isOpen c = true ∧ c.target = letter.topic) := by
        intro hboth
        obtain ⟨hopen, htarget⟩ := hboth
        exact hon ((mem_subscribers_iff hs hmem hc).mpr ⟨hopen, htarget.trans hname.symm⟩)
      simp only [if_neg hon, if_neg hoff]
      exact hserves

/-- Dropping a handle closes the feeds of the grants that the ledger closes. -/
theorem fed_drop (h : Fed a) (handle : Handle) {l' : Ledger ε}
    (hgrants : l'.subscriptions = a.ledger.subscriptions)
    (hclosed : ∀ c ∈ a.ledger.subscriptions, c.id ∈ a.graph.closes handle →
      l'.isOpen c = false)
    (hkept : ∀ c ∈ a.ledger.subscriptions, c.id ∉ a.graph.closes handle →
      l'.isOpen c = a.ledger.isOpen c) : Fed ⟨a.graph.drop handle, l'⟩ := by
  refine h.map (fun f => if f.id ∈ a.graph.closes handle then f.close else f) id
    (feeds_drop a.graph handle) (by rw [List.map_id]; exact hgrants) ?_ (fun _ => rfl) ?_
  · intro f _
    split <;> rfl
  · intro c hc f hf hid hserves
    show Serves (l'.isOpen c) c _
    rw [hid]
    by_cases hon : c.id ∈ a.graph.closes handle
    · rw [if_pos hon, hclosed c hc hon]
      exact hserves.close
    · rw [if_neg hon, hkept c hc hon]
      exact hserves

theorem fed_unregister (hs : Sound a) (h : Fed a) {r : Registration}
    (hr : r ∈ a.ledger.handles) : Fed ⟨a.graph.unregister r, a.ledger.drop r.id⟩ := by
  have hcloses : ∀ c ∈ a.ledger.subscriptions,
      c.id ∈ a.graph.closes (.registration r) ↔ c.id = r.id := by
    intro c hc
    constructor
    · intro hmem
      rcases r with ⟨topic, id⟩ | ⟨topic, id⟩ | ⟨name, id⟩
      · exact List.mem_singleton.mp hmem
      · exact absurd hmem List.not_mem_nil
      · exact absurd hmem List.not_mem_nil
    · intro hid
      have hhandle := hs.numbered.handle_inj (Ledger.handle_of_subscription hc) hr hid
      rw [← hhandle, hs.coherent.subscription c hc]
      exact List.mem_singleton_self _
  refine fed_drop h (.registration r) rfl ?_ ?_
  · intro c hc hon
    have hdropped : c.id ∈ (a.ledger.drop r.id).dropped :=
      List.mem_append_right _ (List.mem_singleton.mpr ((hcloses c hc).mp hon))
    rw [Bool.eq_false_iff]
    intro hopen
    exact (Ledger.isOpen_iff.mp hopen).1 hdropped
  · intro c hc hoff
    rw [Bool.eq_iff_iff, Ledger.isOpen_iff, Ledger.isOpen_iff]
    show c.id ∉ a.ledger.dropped ++ [r.id] ∧ _ ↔ _
    rw [List.mem_append, List.mem_singleton, or_iff_left fun he => hoff ((hcloses c hc).mpr he)]
    rfl

theorem fed_removeNode (hs : Sound a) (h : Fed a) {node : Node} :
    Fed ⟨a.graph.removeNode node, a.ledger.shutDown node.id⟩ := by
  refine fed_drop h (.node node) rfl ?_ ?_
  · intro c hc hon
    have hnode := ((mem_subscriptionsOf_iff hs hc).mp hon).2
    rw [Bool.eq_false_iff]
    intro hopen
    exact (Ledger.isOpen_iff.mp hopen).2
      (List.mem_append_right _ (List.mem_singleton.mpr hnode))
  · intro c hc hoff
    rw [Bool.eq_iff_iff]
    constructor
    · exact Ledger.isOpen_of_shutDown
    · intro hopen
      obtain ⟨hdropped, hdown⟩ := Ledger.isOpen_iff.mp hopen
      refine Ledger.isOpen_iff.mpr ⟨hdropped, fun hd => ?_⟩
      rcases List.mem_append.mp hd with hold | hnew
      · exact hdown hold
      · exact hoff ((mem_subscriptionsOf_iff hs hc).mpr ⟨hopen, List.mem_singleton.mp hnew⟩)

theorem fed_turn (hs : Sound a) (h : Fed a) {feed next : Feed ε} (hfeed : feed ∈ a.graph.feeds)
    (hnext : feed.advance? = some next) :
    Fed ⟨{ a.graph with feeds := a.graph.feeds.modify feed.id fun _ => next },
      a.ledger.turn feed⟩ := by
  have hid := Feed.id_of_advance? hnext
  refine h.map (fun f => if f.id = feed.id then next else f)
    (fun c => c.update fun s => if c.id = feed.id then s.advance feed else s)
    rfl rfl ?_ (fun _ => rfl) ?_
  · intro f _
    split
    next hf => exact hid.trans hf.symm
    next => rfl
  · intro c hc f hf hfc hserves
    show Serves (a.ledger.isOpen c) _ _
    rw [← hfc]
    by_cases hon : f.id = feed.id
    · simp only [if_pos hon]
      rw [h.feed_inj hs hf hfeed hon] at hserves
      exact hserves.advance hnext
    · simp only [if_neg hon]
      exact hserves

theorem fed_beat (hb : Beat a b) (hs : Sound a) (h : Fed a) : Fed b := by
  cases hb with
  | journal => exact h.congr rfl rfl fun _ _ => rfl
  | skip => exact h.congr rfl rfl fun _ _ => rfl
  | enter => exact h.congr rfl rfl fun _ _ => rfl
  | subscribe c base t hlive hhandle hnew _ =>
    have hid : c.id = a.graph.lastId + 1 := congrArg Registration.id hhandle
    exact h.subscribe hs hnew hid (hs.numbered.isOpen_of_next hid hlive) rfl
  | publish => exact h.congr rfl rfl fun _ _ => rfl
  | offer => exact h.congr rfl rfl fun _ _ => rfl
  | post letter t ht _ => exact fed_post hs h ht
  | drop r hr => exact fed_unregister hs h hr.1
  | shutDown node _ => exact fed_removeNode hs h
  | turn feed hfeed next hnext => exact fed_turn hs h hfeed hnext

theorem fed_start : Fed ({} : Audit ε) := ⟨rfl, by simp⟩

/-- All that is reachable is fed as its ledger says. -/
theorem Reachable.fed (h : Reachable a) : Fed a :=
  Steps.preserve_sound h sound_start fed_beat fed_start

end Audit

end NodeGraph
