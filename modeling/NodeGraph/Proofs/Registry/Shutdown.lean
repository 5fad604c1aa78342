import NodeGraph.Proofs.Delivery.Feeds

/-!
# Shutting a node down is for good

What a node leaves behind is used by number. Its publishers and loggers ask
whether the node of their number is alive, its handles look for entries of their
number, and no number is given to anybody else. So it does not matter who has
taken its name, its topics or its services in the meantime:

> `Gone`: what is left of the node sends and logs to nobody, is found by nobody,
> and takes nothing away when it is dropped.
>
> `shutdown_permanent`: a node that has been shut down is gone in every state from
> then on, and the queues of its subscriptions only ever get shorter.

The first part is read off `Sound` at the state in question. The second is about
two states, and goes through the run between them beat by beat (`Dry`).
-/

namespace NodeGraph

open Wire (Bytes)

universe u

variable {ε : Type}

/-- A feed that was closed before is not changed by being closed again. -/
theorem Feed.close_of_senders {f : Feed ε} (h : f.queue.channel.senders = 0) : f.close = f := by
  rcases f with ⟨id, topic, ⟨⟨items, senders⟩, capacity⟩, receive, held, ended⟩
  have hsenders : senders = 0 := h
  subst hsenders
  rfl

namespace Audit

variable {a b : Audit ε}

/-- The handle of something that a node has registered. -/
def Owns (a : Audit ε) (node : Nat) (r : Registration) : Prop :=
  (∃ c ∈ a.ledger.subscriptions, c.node.id = node ∧ c.handle = r) ∨
  (∃ c ∈ a.ledger.publications, c.node.id = node ∧ c.handle = r) ∨
  ∃ c ∈ a.ledger.offers, c.node.id = node ∧ c.handle = r

/-- What is left of the node can do nothing. -/
structure Gone (a : Audit ε) (node : Nat) : Prop where
  /-- Its publishers refuse, and nothing goes out. -/
  unwritable : ∀ c ∈ a.ledger.publications, c.node.id = node → ∀ message fault,
    c.item.publisher.type.pack message = .error fault →
      a.graph.send c.item.publisher message = (.error (Cause.io fault), a.graph)
  closed : ∀ c ∈ a.ledger.publications, c.node.id = node → ∀ message payload,
    c.item.publisher.type.pack message = .ok payload →
      a.graph.send c.item.publisher message = (.error (Cause.closed c.target), a.graph)
  /-- Its loggers are heard in the process log alone. -/
  silent : ∀ logger : Logger, logger.node = node → ∀ entry, ∃ journal,
    a.graph.log logger entry = { a.graph with journal }
  /-- Whoever looks a service up finds that of another node, which is up. -/
  unfound : ∀ name typeName md5 handler, a.graph.provider name typeName md5 = .ok handler →
    ∃ c ∈ a.ledger.offers, a.ledger.isOpen c = true ∧ c.node.id ≠ node ∧ c.target = name ∧
      c.item.handler = handler
  /-- Its handles take nothing away. -/
  harmless : ∀ r, a.Owns node r → a.graph.drop (.registration r) = a.graph

/-! ## A handle without an entry -/

/-- Members that are not there are not missed. -/
theorem prune_eq_self (hs : Sound a) (name : String) {change : Topic → Topic}
    (hchange : ∀ t ∈ a.graph.topics, change t = t) :
    ((a.graph.modifyTopic name change).pruneTopic name).topics = a.graph.topics := by
  have hmap : a.graph.topics.map (fun t => if t.name = name then change t else t) =
      a.graph.topics := by
    calc a.graph.topics.map (fun t => if t.name = name then change t else t)
        = a.graph.topics.map id := by
          apply List.map_congr_left
          intro t ht
          rw [hchange t ht, ite_self]
          rfl
      _ = a.graph.topics := List.map_id _
  show (a.graph.topics.map fun t => if t.name = name then change t else t).filter _ = _
  rw [hmap, List.filter_eq_self]
  intro t ht
  rw [hs.exact.topics.isUsed ht, Bool.or_true]

theorem drop_subscription (hs : Sound a) (hf : Fed a) {c : Grant (Intake ε)}
    (hc : c ∈ a.ledger.subscriptions) (hclosed : a.ledger.isOpen c = false) :
    a.graph.drop (.registration c.handle) = a.graph := by
  have habsent : ∀ t ∈ a.graph.topics, t.withoutSubscriber c.id = t := by
    intro t ht
    unfold Topic.withoutSubscriber
    rw [List.filter_eq_self.mpr]
    intro m hm
    rw [decide_eq_true_iff]
    intro hid
    have hopen := ((mem_subscribers_iff hs ht hc).mp (hid ▸ List.mem_map_of_mem hm)).1
    exact Bool.eq_false_iff.mp hclosed hopen
  have hfeeds : a.graph.feeds.close [c.id] = a.graph.feeds := by
    unfold Feeds.close
    calc a.graph.feeds.map (fun f => if f.id ∈ [c.id] then f.close else f)
        = a.graph.feeds.map id := by
          apply List.map_congr_left
          intro f hmem
          split
          next hid =>
            -- the feed was closed with its node, and has no sender left
            have hserves := hf.serves c hc f hmem (List.mem_singleton.mp hid)
            refine Feed.close_of_senders ?_
            rw [hserves.senders, hclosed]
            rfl
          next => rfl
      _ = a.graph.feeds := List.map_id _
  rw [hs.coherent.subscription c hc]
  have htopics := prune_eq_self hs c.target habsent
  show ({ a.graph with
    feeds := a.graph.feeds.close [c.id]
    topics := ((a.graph.modifyTopic c.target (·.withoutSubscriber c.id)).pruneTopic
      c.target).topics } : Graph ε) = a.graph
  rw [hfeeds, htopics]

theorem drop_publication (hs : Sound a) {c : Grant Outlet} (hc : c ∈ a.ledger.publications)
    (hclosed : a.ledger.isOpen c = false) : a.graph.drop (.registration c.handle) = a.graph := by
  have habsent : ∀ t ∈ a.graph.topics, t.withoutPublisher c.id = t := by
    intro t ht
    unfold Topic.withoutPublisher
    rw [List.filter_eq_self.mpr]
    intro m hm
    rw [decide_eq_true_iff]
    intro hid
    rw [hs.exact.topics.publishers t ht] at hm
    obtain ⟨d, hd, hopen, -, rfl⟩ := Ledger.mem_members.mp hm
    rw [hs.numbered.publication_inj hd hc hid] at hopen
    exact Bool.eq_false_iff.mp hclosed hopen
  rw [(hs.coherent.publication c hc).1]
  have htopics := prune_eq_self hs c.target habsent
  show ({ a.graph with
    topics := ((a.graph.modifyTopic c.target (·.withoutPublisher c.id)).pruneTopic
      c.target).topics } : Graph ε) = a.graph
  rw [htopics]

theorem drop_offer (hs : Sound a) {c : Grant Offer} (hc : c ∈ a.ledger.offers)
    (hclosed : a.ledger.isOpen c = false) : a.graph.drop (.registration c.handle) = a.graph := by
  have hservices : (a.graph.services.filter fun s => s.name ≠ c.target || s.id ≠ c.id) =
      a.graph.services := by
    rw [List.filter_eq_self]
    intro s hmem
    rw [hs.exact.services] at hmem
    obtain ⟨d, hd, hopen, rfl⟩ := Ledger.mem_services.mp hmem
    have hid : d.id ≠ c.id := by
      intro hid
      rw [hs.numbered.offer_inj hd hc hid] at hopen
      exact Bool.eq_false_iff.mp hclosed hopen
    rw [Bool.or_eq_true, decide_eq_true_iff, decide_eq_true_iff]
    exact .inr hid
  rw [hs.coherent.offer c hc]
  show ({ a.graph with
    services := a.graph.services.filter fun s => s.name ≠ c.target || s.id ≠ c.id } :
      Graph ε) = a.graph
  rw [hservices]

/-! ## What is left of a node -/

/-- Grants of a node that is down do not stand. -/
theorem isOpen_eq_false {τ : Type u} {c : Grant τ} {node : Nat} (hnode : c.node.id = node)
    (hdown : node ∈ a.ledger.down) : a.ledger.isOpen c = false := by
  rw [Bool.eq_false_iff]
  intro hopen
  exact (Ledger.isOpen_iff.mp hopen).2 (hnode ▸ hdown)

theorem not_alive (hs : Sound a) {node : Nat} (hdown : node ∈ a.ledger.down) :
    a.graph.isAlive node = false := by
  rw [Bool.eq_false_iff]
  intro halive
  obtain ⟨n, hn, rfl⟩ := hs.isAlive_iff.mp halive
  exact (Ledger.mem_live.mp hn).2 hdown

/-- Looking a service up finds an open offer of that name. -/
theorem exists_offer_of_provider (hs : Sound a) {name typeName md5 : String} {handler : Handler}
    (h : a.graph.provider name typeName md5 = .ok handler) :
    ∃ c ∈ a.ledger.offers, a.ledger.isOpen c = true ∧ c.target = name ∧
      c.item.handler = handler := by
  unfold Graph.provider Graph.service? at h
  split at h
  next => exact absurd h (by simp)
  next s hservice =>
    split at h
    next =>
      have hname : s.name = name := by simpa using List.find?_some hservice
      have hmem := List.mem_of_find?_eq_some hservice
      rw [hs.exact.services] at hmem
      obtain ⟨c, hc, hopen, rfl⟩ := Ledger.mem_services.mp hmem
      exact ⟨c, hc, hopen, hname, Except.ok.inj h⟩
    next => exact absurd h (by simp)

theorem gone_of_down (hs : Sound a) (hf : Fed a) {node : Nat} (hdown : node ∈ a.ledger.down) :
    Gone a node := by
  have hdead := not_alive hs hdown
  refine ⟨?_, ?_, ?_, ?_, ?_⟩
  · intro c hc hnode message fault hpack
    unfold Graph.send
    rw [hpack]
  · intro c hc hnode message payload hpack
    obtain ⟨-, hsender, htopic⟩ := hs.coherent.publication c hc
    unfold Graph.send
    rw [hpack]
    simp only [hsender, hnode, hdead, htopic, Bool.false_eq_true, if_false]
  · intro logger hlogger entry
    unfold Graph.log
    cases Record.type.pack (Graph.record logger entry) with
    | ok payload =>
      unfold Graph.broadcast
      have hnoted : (a.graph.note ⟨.ofLevel entry.level, logger.name, entry.text⟩).isAlive
          logger.node = false := by
        rw [hlogger]
        exact hdead
      simp only [hnoted, Bool.false_eq_true, if_false]
      exact ⟨_, rfl⟩
    | error fault => exact ⟨_, rfl⟩
  · intro name typeName md5 handler hfound
    obtain ⟨c, hc, hopen, htarget, hhandler⟩ := exists_offer_of_provider hs hfound
    refine ⟨c, hc, hopen, ?_, htarget, hhandler⟩
    intro hnode
    exact (Ledger.isOpen_iff.mp hopen).2 (hnode ▸ hdown)
  · intro r howns
    -- each kind of handle finds its own entry missing
    rcases howns with ⟨c, hc, hnode, rfl⟩ | ⟨c, hc, hnode, rfl⟩ | ⟨c, hc, hnode, rfl⟩
    · exact drop_subscription hs hf hc (isOpen_eq_false hnode hdown)
    · exact drop_publication hs hc (isOpen_eq_false hnode hdown)
    · exact drop_offer hs hc (isOpen_eq_false hnode hdown)

/-! ## From then on -/

/-- A subscription that has closed, with its feed. -/
structure Closed (a : Audit ε) (c : Grant (Intake ε)) (f : Feed ε) : Prop where
  grant : c ∈ a.ledger.subscriptions
  feed : f ∈ a.graph.feeds
  id : f.id = c.id
  closed : a.ledger.isOpen c = false

theorem closed_drop {c : Grant (Intake ε)} {f : Feed ε} (h : Closed a c f) (handle : Handle)
    (l' : Ledger ε) (hgrants : l'.subscriptions = a.ledger.subscriptions)
    (hopen : l'.isOpen c = true → a.ledger.isOpen c = true) :
    ∃ f', Closed ⟨a.graph.drop handle, l'⟩ c f' ∧ f'.pending = f.pending ∧ f'.held = f.held := by
  obtain ⟨hc, hf, hid, hclosed⟩ := h
  have hstill : l'.isOpen c = false := by
    rw [Bool.eq_false_iff] at hclosed ⊢
    exact fun h => hclosed (hopen h)
  refine ⟨if f.id ∈ a.graph.closes handle then f.close else f, ⟨hgrants ▸ hc, ?_, ?_, hstill⟩, ?_⟩
  · show _ ∈ (a.graph.drop handle).feeds
    rw [feeds_drop]
    exact List.mem_map_of_mem hf
  · split <;> exact hid
  · split <;> exact ⟨rfl, rfl⟩

/-- Whatever happens, a subscription that has closed gets nothing more: it is left as
it was, or its thread goes on. -/
theorem closed_beat {c : Grant (Intake ε)} {f : Feed ε} (hb : Beat a b) (hs : Sound a)
    (hfed : Fed a) (h : Closed a c f) :
    ∃ c' f', Closed b c' f' ∧ c'.id = c.id ∧
      (c'.item = c.item ∧ f'.pending = f.pending ∧ f'.held = f.held ∨
        c'.item = c.item.advance f ∧ f.advance? = some f') := by
  have hclosed := h
  obtain ⟨hc, hf, hid, hnot⟩ := hclosed
  cases hb with
  | subscribe =>
    exact ⟨c, f, ⟨List.mem_append_left _ hc, List.mem_append_left _ hf, hid, hnot⟩, rfl,
      .inl ⟨rfl, rfl, rfl⟩⟩
  | post letter t ht _ =>
    obtain ⟨hmem, -⟩ := mem_of_find?_topic ht
    -- the topic does not list a subscription that has closed
    have hoff : f.id ∉ t.subscribers.map Member.id := by
      rw [hid]
      intro hon
      exact Bool.eq_false_iff.mp hnot ((mem_subscribers_iff hs hmem hc).mp hon).1
    have hmissed : ¬ (a.ledger.isOpen c = true ∧ c.target = letter.topic) :=
      fun hopen => Bool.eq_false_iff.mp hnot hopen.1
    refine ⟨_, _, ⟨List.mem_map_of_mem hc, List.mem_map_of_mem hf, ?_, hnot⟩, rfl,
      .inl ⟨?_, ?_, ?_⟩⟩
    · rw [if_neg hoff]
      exact hid
    · rw [Grant.update_item, if_neg hmissed]
    · rw [if_neg hoff]
    · rw [if_neg hoff]
  | drop r _ =>
    obtain ⟨f', hf', hsame⟩ := closed_drop h (.registration r) (a.ledger.drop r.id) rfl
      Ledger.isOpen_of_drop
    exact ⟨c, f', hf', rfl, .inl ⟨rfl, hsame⟩⟩
  | shutDown node _ =>
    obtain ⟨f', hf', hsame⟩ := closed_drop h (.node node) (a.ledger.shutDown node.id) rfl
      Ledger.isOpen_of_shutDown
    exact ⟨c, f', hf', rfl, .inl ⟨rfl, hsame⟩⟩
  | turn feed hfeed next hnext =>
    refine ⟨_, _, ⟨List.mem_map_of_mem hc, List.mem_map_of_mem hf, ?_, hnot⟩, rfl, ?_⟩
    · split
      next he => exact (Feed.id_of_advance? hnext).trans (he.symm.trans hid)
      next => exact hid
    · rw [Grant.update_item, ← hid]
      split
      next he =>
        -- the feed that moves on is this one
        rw [hfed.feed_inj hs hf hfeed he]
        exact .inr ⟨rfl, hnext⟩
      next => exact .inl ⟨rfl, rfl, rfl⟩
  | _ => exact ⟨c, f, ⟨hc, hf, hid, hnot⟩, rfl, .inl ⟨rfl, rfl, rfl⟩⟩

/-- A subscription that has closed, with what had gone out on it and the queue it
was left with: nothing more goes out, and the queue gets no longer. -/
def Dry (id : Nat) (window : List Letter) (queue : List Bytes) (a : Audit ε) : Prop :=
  ∃ c ∈ a.ledger.subscriptions, ∃ f ∈ a.graph.feeds, c.id = id ∧ f.id = id ∧
    a.ledger.isOpen c = false ∧ c.item.window = window ∧ f.pending <:+ queue

theorem dry_beat {id : Nat} {window : List Letter} {queue : List Bytes} (hb : Beat a b)
    (hs : Sound a) (hfed : Fed a) (h : Dry id window queue a) : Dry id window queue b := by
  obtain ⟨c, hc, f, hf, hcid, hfid, hnot, hwindow, hqueue⟩ := h
  obtain ⟨c', f', ⟨hc', hf', hid', hnot'⟩, hcid', hitem⟩ :=
    closed_beat hb hs hfed ⟨hc, hf, hfid.trans hcid.symm, hnot⟩
  refine ⟨c', hc', f', hf', hcid'.trans hcid, hid'.trans (hcid'.trans hcid), hnot', ?_⟩
  rcases hitem with ⟨hitem, hpending, -⟩ | ⟨hitem, hnext⟩
  · rw [hitem, hpending]
    exact ⟨hwindow, hqueue⟩
  · refine ⟨?_, (Feed.pending_of_advance? hnext).trans hqueue⟩
    rw [hitem]
    unfold Intake.advance
    split <;> exact hwindow

/-- A node that is down stays down. -/
theorem down_beat {node : Nat} (hb : Beat a b) (h : node ∈ a.ledger.down) :
    node ∈ b.ledger.down := by
  cases hb with
  | shutDown => exact List.mem_append_left _ h
  | _ => exact h

/-- **Shutting a node down is permanent.** Whatever happens after a node was shut
down, and whoever takes its names, it is `Gone` for good; and between any two
states after it nothing goes out on a subscription of the node, whose queue in the
later state is the end of what it was. -/
theorem shutdown_permanent {node : Node} (h : Reachable a) (hnode : node ∈ a.ledger.live)
    (hlater : Steps (a.shutDown node) b) :
    Gone b node.id ∧ ∀ {b' : Audit ε}, Steps b b' →
      ∀ c ∈ b.ledger.subscriptions, c.node.id = node.id →
        ∀ f ∈ b.graph.feeds, f.id = c.id → Dry c.id c.item.window f.pending b' := by
  have hreach : Reachable b :=
    (Relation.ReflTransGen.tail h (.operation (.shutDown a node hnode))).trans hlater
  have hdown : node.id ∈ b.ledger.down := by
    refine Steps.preserve (P := fun a => node.id ∈ a.ledger.down) hlater down_beat ?_
    exact List.mem_append_right _ (List.mem_singleton_self _)
  refine ⟨gone_of_down hreach.sound hreach.fed hdown, ?_⟩
  intro b' hsteps c hc hcnode f hf hfid
  have hstart : Dry c.id c.item.window f.pending b :=
    ⟨c, hc, f, hf, rfl, hfid, isOpen_eq_false hcnode hdown, rfl, List.suffix_refl _⟩
  have hboth : Fed b' ∧ Dry c.id c.item.window f.pending b' := by
    refine Steps.preserve_sound (P := fun a => Fed a ∧ Dry c.id c.item.window f.pending a)
      hsteps hreach.sound ?_ ⟨hreach.fed, hstart⟩
    intro d e hb hs hd
    exact ⟨fed_beat hb hs hd.1, dry_beat hb hs hd.1 hd.2⟩
  exact hboth.2

/-- The service that the old node offered is not missed when its handle goes: the
one under that name is the new node's, and stays. -/
theorem shutdown_permanent_succession :
    Gone succession 1 ∧ Dry 2 [] [] succession ∧
    succession.graph.drop (.registration (.service "/s" 4)) = succession.graph ∧
    succession.graph.hasService "s" = true := by
  have hlive : (⟨1, "/a"⟩ : Node) ∈ foundation.ledger.live := by decide
  obtain ⟨hgone, -⟩ := shutdown_permanent foundation_reachable hlive succession_steps
  obtain ⟨-, hdry⟩ := shutdown_permanent foundation_reachable hlive .refl
  refine ⟨hgone, ?_, ?_, by decide⟩
  · exact hdry succession_steps _ (.head _) rfl _ (.head _) rfl
  · exact hgone.harmless _ (.inr (.inr ⟨_, .head _, rfl, rfl⟩))

end Audit

end NodeGraph
