import NodeGraph.Proofs.Listening.Loops

/-!
# Texts flow from the thread to the log

A text is handed to the callback, waits in the inbox, is taken in hand and is logged.
Each of these is a place in one line: what has been logged, then what is in hand, then
what waits.

> `Flow`: between two moments some texts have been said and some are new, and what was
> said, with what is now in hand and waits, is what was in hand and waited before, with
> what is new.
>
> `moves_step`: every step is a flow for every inbox.
>
> `Attends`: so the line as a whole is what the callback has been handed.

A flow goes through any number of steps (`Flow.trans`), and knows nothing of where it
began; `Attends` adds that it began with nothing, and whose inbox it is (`Belongs`).
-/

namespace NodeGraph

variable {μ : Type}

/-- The delivery thread of a subscription has come to its end. -/
def Audit.Ended {ε : Type} (a : Audit ε) (id : Nat) : Prop :=
  ∃ f ∈ a.graph.feeds, f.id = id ∧ f.ended = true

/-- A thread that has come to its end stays there. -/
theorem Audit.ended_beat {ε : Type} {a b : Audit ε} {id : Nat} (hb : Beat a b) (hs : Sound a)
    (hf : Fed a) (h : a.Ended id) : b.Ended id := by
  obtain ⟨f, hmem, hid, hended⟩ := h
  have hdrop : ∀ handle, ∃ f ∈ (a.graph.drop handle).feeds, f.id = id ∧ f.ended = true := by
    intro handle
    rw [feeds_drop]
    refine ⟨_, List.mem_map_of_mem hmem, ?_⟩
    split <;> exact ⟨hid, hended⟩
  cases hb with
  | subscribe => exact ⟨f, List.mem_append_left _ hmem, hid, hended⟩
  | post letter t _ _ =>
    refine ⟨_, List.mem_map_of_mem hmem, ?_⟩
    split <;> exact ⟨hid, hended⟩
  | drop r _ => exact hdrop (.registration r)
  | shutDown node _ => exact hdrop (.node node)
  | turn feed hfeed next hnext =>
    refine ⟨_, List.mem_map_of_mem hmem, ?_⟩
    split
    next he =>
      -- this thread still goes on, so it is another one
      have hgoing := (Feed.advance?_cases hnext).1
      rw [← hf.feed_inj hs hmem hfeed he, hended] at hgoing
      cases hgoing
    next => exact ⟨hid, hended⟩
  | _ => exact ⟨f, hmem, hid, hended⟩

namespace Audience

variable {u v w : Audience μ} {i j k : Inbox}

/-- What has become of an inbox between two moments. -/
structure Flow (u v : Audience μ) (i j : Inbox) : Prop where
  listener : j.listener = i.listener
  texts : ∃ said new : List Text,
    v.linesOf i.listener.id = u.linesOf i.listener.id ++ said.map i.listener.line ∧
    (∀ heard, (i.listener.id, heard) ∈ u.ledger.hearings →
      (i.listener.id, heard ++ new.map Arrival.chatter) ∈ v.ledger.hearings) ∧
    said ++ v.handOf i.listener.id ++ j.texts.items =
      u.handOf i.listener.id ++ i.texts.items ++ new

theorem Flow.trans (huv : Flow u v i j) (hvw : Flow v w j k) : Flow u w i k := by
  obtain ⟨hij, said, new, hlines, hheard, htexts⟩ := huv
  obtain ⟨hjk, said', new', hlines', hheard', htexts'⟩ := hvw
  rw [hij] at hjk hlines' hheard' htexts'
  refine ⟨hjk, said ++ said', new ++ new', ?_, fun heard hmem => ?_, ?_⟩
  · rw [hlines', hlines, List.map_append, List.append_assoc]
  · rw [List.map_append, ← List.append_assoc]
    exact hheard' _ (hheard _ hmem)
  · calc said ++ said' ++ w.handOf i.listener.id ++ k.texts.items
        = said ++ (said' ++ w.handOf i.listener.id ++ k.texts.items) := by
          simp only [List.append_assoc]
      _ = said ++ v.handOf i.listener.id ++ j.texts.items ++ new' := by
          rw [htexts']
          simp only [List.append_assoc]
      _ = u.handOf i.listener.id ++ i.texts.items ++ (new ++ new') := by
          rw [htexts]
          simp only [List.append_assoc]

/-- Nothing happens to an inbox. -/
theorem Flow.still (hlogged : v.logged = u.logged)
    (hheard : ∀ e ∈ u.ledger.hearings, e ∈ v.ledger.hearings)
    (hhand : v.handOf i.listener.id = u.handOf i.listener.id) : Flow u v i i := by
  refine ⟨rfl, [], [], ?_, fun heard hmem => ?_, ?_⟩
  · unfold linesOf
    rw [hlogged]
    exact (List.append_nil _).symm
  · rw [List.map_nil, List.append_nil]
    exact hheard _ hmem
  · rw [hhand, List.append_nil]
    rfl

theorem Flow.refl (v : Audience μ) (i : Inbox) : Flow v v i i := .still rfl (fun _ h => h) rfl

/-- Whose inbox it is: the listener of a node that was granted a subscription to texts. -/
structure Belongs (v : Audience μ) (i : Inbox) (c : Grant (Intake (Arrival μ))) : Prop where
  granted : c ∈ v.ledger.subscriptions
  handle : c.handle = i.listener.subscription
  topic : c.asked = Listener.topic
  node : c.node ∈ v.ledger.nodes
  name : i.listener.name = c.node.name
  logger : i.listener.logger = ⟨c.node.id, c.node.name⟩
  read : ∀ payload, c.item.read payload = (Text.type.unpack payload).map Arrival.chatter

theorem Belongs.id_eq {c : Grant (Intake (Arrival μ))} (h : Belongs v i c) :
    c.id = i.listener.id :=
  congrArg Registration.id h.handle

/-- The subscription goes on as it was granted. -/
theorem Belongs.steps {c : Grant (Intake (Arrival μ))} (h : Belongs u i c)
    (hsteps : u.audit.Steps v.audit) (hlistener : j.listener = i.listener) :
    ∃ d, Belongs v j d := by
  obtain ⟨d, hd, hcd⟩ := Audit.Steps.preserve
    (P := fun a => ∃ d ∈ a.ledger.subscriptions, Audit.Continues c d) hsteps
    Audit.continues_beat ⟨c, h.granted, rfl, rfl, rfl, rfl⟩
  have hnode := Audit.Steps.preserve (P := fun a => c.node ∈ a.ledger.nodes) hsteps
    Audit.nodes_beat h.node
  refine ⟨d, hd, ?_, hcd.asked.trans h.topic, ?_, ?_, ?_, ?_⟩
  · rw [hlistener]
    exact hcd.handle.trans h.handle
  · rw [hcd.node]
    exact hnode
  · rw [hlistener, hcd.node]
    exact h.name
  · rw [hlistener, hcd.node]
    exact h.logger
  · rw [hcd.read]
    exact h.read

/-- What is known of an inbox: whose it is, and that nothing is lost on the way to the log. -/
structure Attends (v : Audience μ) (i : Inbox) : Prop where
  belongs : ∃ c, Belongs v i c
  said : ∃ texts, v.linesOf i.listener.id = texts.map i.listener.line ∧
    (i.listener.id, (texts ++ v.handOf i.listener.id ++ i.texts.items).map Arrival.chatter) ∈
      v.ledger.hearings
  gone : i.texts.senders = 0 → v.audit.Ended i.listener.id

/-- What one step does to the inboxes. -/
structure Moves (u v : Audience μ) (move : Inbox → Inbox) (fresh : List Inbox) : Prop where
  inboxes : v.world.inboxes = u.world.inboxes.map move ++ fresh
  flow : ∀ i ∈ u.world.inboxes, Flow u v i (move i)
  gone : ∀ i ∈ u.world.inboxes, (move i).texts.senders = 0 →
    i.texts.senders = 0 ∨ v.audit.Ended i.listener.id
  fresh : ∀ j ∈ fresh, Attends v j

/-- What is known of the inboxes is known of them after a step. -/
theorem Moves.attends {move : Inbox → Inbox} {fresh : List Inbox} (hm : Moves u v move fresh)
    (ha : u.audit.Reachable) (hsteps : u.audit.Steps v.audit)
    (h : ∀ i ∈ u.world.inboxes, Attends u i) : ∀ j ∈ v.world.inboxes, Attends v j := by
  intro j hj
  rw [hm.inboxes] at hj
  rcases List.mem_append.mp hj with hold | hnew
  · obtain ⟨i, hi, rfl⟩ := List.mem_map.mp hold
    obtain ⟨⟨c, hc⟩, ⟨texts, hlines, hheard⟩, hgone⟩ := h i hi
    obtain ⟨hlistener, said, new, hsaid, hnew, hflow⟩ := hm.flow i hi
    rw [← hlistener] at hgone hsaid hnew hflow hlines hheard
    refine ⟨hc.steps hsteps hlistener, ⟨texts ++ said, ?_, ?_⟩, fun hsenders => ?_⟩
    · rw [hsaid, hlines, List.map_append]
    · have hall : texts ++ said ++ v.handOf (move i).listener.id ++ (move i).texts.items =
          texts ++ u.handOf (move i).listener.id ++ i.texts.items ++ new := by
        rw [List.append_assoc texts, List.append_assoc texts, hflow]
        simp only [List.append_assoc]
      rw [hall, List.map_append]
      exact hnew _ hheard
    · rcases hm.gone i hi hsenders with hbefore | hnow
      · exact (Audit.Steps.preserve_sound
          (P := fun a => Fed a ∧ a.Ended (move i).listener.id) hsteps ha.sound
          (fun hb hs hd => ⟨Audit.fed_beat hb hs hd.1, Audit.ended_beat hb hs hd.1 hd.2⟩)
          ⟨ha.fed, hgone hbefore⟩).2
      · rw [hlistener]
        exact hnow
  · exact hm.fresh j hnew

/-! ## Every step is a flow -/

/-- Nobody is handed anything and nobody says anything. -/
theorem Moves.still (hinboxes : v.world.inboxes = u.world.inboxes) (hlogged : v.logged = u.logged)
    (hheard : ∀ e ∈ u.ledger.hearings, e ∈ v.ledger.hearings)
    (hhands : ∀ k, v.handOf k = u.handOf k) : Moves u v id [] := by
  refine ⟨?_, fun i _ => .still hlogged hheard (hhands _), fun _ _ h => .inl h, nofun⟩
  rw [hinboxes, List.map_id, List.append_nil]

/-- Inboxes are told apart by their listeners. -/
theorem Orderly.inbox_inj (h : Orderly v) (hi : i ∈ v.world.inboxes) (hj : j ∈ v.world.inboxes)
    (hid : i.listener.id = j.listener.id) : i = j := by
  have hlisteners := h.listeners
  unfold Audience.listeners at hlisteners
  rw [List.map_map] at hlisteners
  exact List.inj_on_of_nodup_map hlisteners hi hj hid

/-- What a loop changes: what it has in hand and what waits, which together waited before. -/
theorem turned_effect (h : Orderly v) {loop : Loop} (hloop : loop ∈ v.world.loops)
    (hi : i ∈ v.world.inboxes) {hearing : Hearing} {n : Nat} {w : World (Graph (Arrival μ)) μ}
    (hjob : loop.job = .listen i.listener hearing n)
    (ht : World.Turned v.world loop i n hearing w) :
    ∃ hand items, hand ++ items = i.texts.items ∧
      (∀ k, Loop.hands w.loops k = if k = i.listener.id then hand else v.handOf k) ∧
      w.inboxes = v.world.inboxes.map fun j =>
        if j.listener.id = i.listener.id then { j with texts := { i.texts with items } }
        else j := by
  have hear : loop.ear = some i.listener.id := by
    unfold Loop.ear
    rw [hjob]
  have hown : v.handOf i.listener.id = loop.job.hand := Loop.hands_of_mem h.ears hloop hear
  have hsame : v.world.inboxes.map (fun j =>
      if j.listener.id = i.listener.id then { j with texts := { i.texts with
        items := i.texts.items } } else j) = v.world.inboxes := by
    rw [List.map_congr_left (g := id), List.map_id]
    intro j hj
    split
    next hid => rw [h.inbox_inj hj hi hid]; rfl
    next => rfl
  cases ht with
  | wait hopen =>
    exact ⟨[], _, rfl, fun k => Loop.hands_assign h.ids h.ears hloop hear rfl, hsame.symm⟩
  | take text rest hitems =>
    exact ⟨[text], rest, hitems.symm, fun k => Loop.hands_assign h.ids h.ears hloop hear rfl, rfl⟩
  | say text =>
    exact ⟨[], _, rfl, fun k => Loop.hands_assign h.ids h.ears hloop hear rfl, hsame.symm⟩
  | stop stage hwhy =>
    have hnone : loop.job.hand = [] := by rw [hjob]; rfl
    refine ⟨[], _, rfl, fun k => (Loop.hands_filter h.ids hloop hnone).trans ?_, hsame.symm⟩
    split
    next hk => rw [hk]; exact hown.trans hnone
    next => rfl

/-- What a loop has had in hand is logged, for its listener alone. -/
theorem linesOf_proceed {loop : Loop} {hearing : Hearing} {n : Nat}
    {w : World (Graph (Arrival μ)) μ} (hjob : loop.job = .listen i.listener hearing n)
    (ht : World.Turned v.world loop i n hearing w) (k : Nat) :
    (v.proceed loop w).linesOf k = v.linesOf k ++
      if k = i.listener.id then loop.job.hand.map i.listener.line else [] := by
  unfold linesOf proceed
  rw [spokenBy_turned hjob ht, List.filter_append, List.map_append]
  refine congrArg (_ ++ ·) ?_
  split
  next hk =>
    rw [List.filter_eq_self.mpr, List.map_map]
    · rfl
    · intro s hs
      obtain ⟨text, -, rfl⟩ := List.mem_map.mp hs
      exact decide_eq_true hk.symm
  next hk =>
    rw [List.filter_eq_nil_iff.mpr, List.map_nil]
    intro s hs hlistener
    obtain ⟨text, -, rfl⟩ := List.mem_map.mp hs
    exact hk (of_decide_eq_true hlistener).symm

theorem moves_turn (h : Orderly u) {loop : Loop} (hloop : loop ∈ u.world.loops)
    {w : World (Graph (Arrival μ)) μ} (hw : w ∈ u.world.turns loop) :
    ∃ move, Moves u (u.proceed loop w) move [] := by
  obtain ⟨i, hi, hearing, hjob, hturned⟩ := h.turned hloop hw
  obtain ⟨hand, items, hitems, hhands, hinboxes⟩ := turned_effect h hloop hi hjob hturned
  have hown : u.handOf i.listener.id = loop.job.hand :=
    Loop.hands_of_mem h.ears hloop (by unfold Loop.ear; rw [hjob])
  have hlines := linesOf_proceed hjob hturned
  have hheard : (u.proceed loop w).ledger.hearings = u.ledger.hearings :=
    Ledger.hearings_posts _ _
  refine ⟨_, hinboxes.trans (List.append_nil _).symm, fun j hj => ?_,
    fun j hj hsenders => ?_, nofun⟩
  · split
    next hid =>
      -- the loop's own inbox: what was in hand is said
      rw [h.inbox_inj hj hi hid]
      refine ⟨rfl, loop.job.hand, [], ?_, fun heard hmem => ?_, ?_⟩
      · rw [hlines, if_pos rfl]
      · rw [List.map_nil, List.append_nil, hheard]
        exact hmem
      · show loop.job.hand ++ Loop.hands w.loops i.listener.id ++ items = _
        rw [hhands, if_pos rfl, hown, List.append_assoc, hitems, List.append_nil]
    next hid =>
      refine ⟨rfl, [], [], ?_, fun heard hmem => ?_, ?_⟩
      · rw [hlines, if_neg hid]
        rfl
      · rw [List.map_nil, List.append_nil, hheard]
        exact hmem
      · show [] ++ Loop.hands w.loops j.listener.id ++ j.texts.items = _
        rw [hhands, if_neg hid, List.nil_append, List.append_nil]
  · split at hsenders
    next hid =>
      rw [h.inbox_inj hj hi hid]
      exact .inl hsenders
    next => exact .inl hsenders

/-- The thread of a listener hands over texts and nothing else. -/
theorem handed_texts (hf : Fed u.audit) (hi : Attends u i) {feed : Feed (Arrival μ)}
    (hfeed : feed ∈ u.world.net.feeds) (hid : i.listener.id = feed.id) :
    feed.handed = (feed.handed.filterMap Arrival.text?).map Arrival.chatter := by
  obtain ⟨c, hc⟩ := hi.belongs
  have hserves := hf.serves c hc.granted feed hfeed (hid.symm.trans hc.id_eq.symm)
  unfold Feed.handed
  cases feed.held with
  | none => rfl
  | some payload =>
    rw [Option.bind_some, hserves.receive, hc.read]
    cases Text.type.unpack payload <;> rfl

theorem moves_deliver (ha : u.audit.Reachable) (hat : ∀ i ∈ u.world.inboxes, Attends u i)
    {feed : Feed (Arrival μ)} (hfeed : feed ∈ u.world.net.feeds)
    {w : World (Graph (Arrival μ)) μ} (hw : u.world.deliver? feed = some w) :
    ∃ move, Moves u { u with world := w, ledger := u.ledger.turn feed } move [] := by
  obtain ⟨gone, hhanded, hgone⟩ := World.handed_of_deliver hw
  obtain ⟨next, journal, hnext, hnet, -⟩ :=
    World.deliver?_eq (fun f hf => ha.fed.feed_inj ha.sound hf hfeed) hw
  refine ⟨_, hhanded.inboxes.trans (List.append_nil _).symm, fun i hi => ?_,
    fun i hi hsenders => ?_, nofun⟩
  · refine ⟨Inbox.handed_listener .., [], ?_⟩
    unfold Inbox.handed
    split
    next hid =>
      refine ⟨feed.handed.filterMap Arrival.text?, (List.append_nil _).symm,
        fun heard hmem => ?_, ?_⟩
      · rw [← handed_texts ha.fed (hat i hi) hfeed hid, Ledger.hearings_turn]
        exact List.mem_map.mpr ⟨_, hmem, if_pos hid⟩
      · show [] ++ Loop.hands w.loops _ ++ _ = _
        rw [hhanded.loops, List.nil_append, ← List.append_assoc]
        rfl
    next hid =>
      refine ⟨[], (List.append_nil _).symm, fun heard hmem => ?_, ?_⟩
      · rw [List.map_nil, List.append_nil, Ledger.hearings_turn]
        exact List.mem_map.mpr ⟨_, hmem, if_neg hid⟩
      · show [] ++ Loop.hands w.loops _ ++ _ = _
        rw [hhanded.loops, List.nil_append, List.append_nil]
        rfl
  · unfold Inbox.handed at hsenders
    split at hsenders
    next hid =>
      by_cases hends : gone = true
      · -- the thread has taken its sender with it
        refine .inr ⟨next, ?_, (Feed.id_of_advance? hnext).trans hid.symm, ?_⟩
        · show next ∈ w.net.feeds
          rw [hnet]
          exact List.mem_map.mpr ⟨feed, hfeed, if_pos rfl⟩
        · rw [hgone hends] at hnext
          rw [← Option.some.inj hnext]
      · simp only [if_neg hends] at hsenders
        exact .inl hsenders
    next => exact .inl hsenders

/-- An inbox is known to be somebody's, and listeners are numbered as their subscriptions. -/
theorem Attends.bound (ha : u.audit.Reachable) (hi : Attends u i) :
    i.listener.id ≤ u.world.net.lastId := by
  obtain ⟨c, hc⟩ := hi.belongs
  have hle := ha.sound.numbered.bound _
    (Ledger.id_mem_ids (Ledger.handle_of_subscription hc.granted))
  rw [hc.handle] at hle
  exact hle

theorem listeners_bound (ha : u.audit.Reachable) (hat : ∀ i ∈ u.world.inboxes, Attends u i) :
    ∀ l ∈ u.listeners, l.id ≤ u.world.net.lastId := by
  intro l hl
  obtain ⟨i, hi, rfl⟩ := List.mem_map.mp hl
  exact (hat i hi).bound ha

theorem moves_listen (ha : u.audit.Reachable) (h : Orderly u)
    (hat : ∀ i ∈ u.world.inboxes, Attends u i) {node : Node} (hnode : node ∈ u.ledger.live) :
    ∃ move fresh, Moves u { u with
      world := (u.world.listen node).2
      ledger := (u.audit.subscribe node Listener.topic Listener.queueSize Text.type
        .chatter).ledger } move fresh := by
  have hbound := listeners_bound ha hat
  rcases u.listen_cases node with ⟨hworld, hledger⟩ | ⟨hworld, hledger⟩
  · rw [hworld, hledger]
    exact ⟨id, [], .still rfl rfl (fun _ h => h) fun _ => rfl⟩
  · rw [hworld, hledger]
    have hheard : (u.ledger.subscribe (freshGrant node (u.world.net.lastId + 1))).hearings =
        u.ledger.hearings ++ [(u.world.net.lastId + 1, [])] := List.map_append
    refine ⟨id, [freshInbox node (u.world.net.lastId + 1)], ?_, fun i hi => ?_,
      fun i hi hsenders => .inl hsenders, fun j hj => ?_⟩
    · rw [List.map_id]
    · exact .still rfl (fun e he => hheard ▸ List.mem_append_left _ he) rfl
    · rw [List.mem_singleton.mp hj]
      have hfresh : ∀ l ∈ u.listeners, l.id ≠ u.world.net.lastId + 1 := by
        intro l hl he
        have hle := hbound l hl
        omega
      refine ⟨⟨freshGrant node (u.world.net.lastId + 1), ?_⟩, ⟨[], ?_, ?_⟩, nofun⟩
      · exact ⟨List.mem_append_right _ (List.mem_singleton_self _), rfl, rfl,
          (Ledger.mem_live.mp hnode).1, rfl, rfl, fun _ => rfl⟩
      · -- nobody has spoken for a listener that is new
        show ((u.logged.filter _).map _) = []
        rw [List.filter_eq_nil_iff.mpr, List.map_nil]
        intro s hs hlistener
        obtain ⟨-, l, hl, hid⟩ := h.spoken s hs
        exact hfresh l hl (hid.trans (of_decide_eq_true hlistener))
      · have hnone : Loop.hands u.world.loops (u.world.net.lastId + 1) = [] := by
          refine Loop.hands_eq_nil fun l hl hear => ?_
          obtain ⟨-, listener, hlistener, hearing, hjob⟩ := h.listens l hl
          unfold Loop.ear at hear
          rw [hjob] at hear
          exact hfresh listener hlistener (Option.some.inj hear)
        show (_, (([] ++ Loop.hands u.world.loops (u.world.net.lastId + 1)) ++ []).map
          Arrival.chatter) ∈ _
        rw [hnone, hheard]
        exact List.mem_append_right _ (List.mem_singleton_self _)

/-- **Every step moves texts on and loses none.** -/
theorem moves_step (ha : u.audit.Reachable) (h : Orderly u)
    (hat : ∀ i ∈ u.world.inboxes, Attends u i) (hstep : Step u v) :
    ∃ move fresh, Moves u v move fresh := by
  cases hstep with
  | operation hb =>
    refine ⟨id, [], .still rfl rfl (fun e he => ?_) fun _ => rfl⟩
    rcases Audit.hearings_operation hb with hsame | hmore
    · exact hsame ▸ he
    · exact hmore ▸ List.mem_append_left _ he
  | deliver feed hfeed hw =>
    obtain ⟨move, hmoves⟩ := moves_deliver ha hat hfeed hw
    exact ⟨move, [], hmoves⟩
  | listen node hnode => exact moves_listen ha h hat hnode
  | spin i signal =>
    refine ⟨id, [], .still rfl rfl (fun _ h => h) fun k => ?_⟩
    show Loop.hands (u.world.loops ++ [_]) k = Loop.hands u.world.loops k
    unfold Loop.hands
    rw [List.flatMap_append, List.flatMap_singleton]
    split <;> exact List.append_nil _
  | turn loop hloop w hw =>
    obtain ⟨move, hmoves⟩ := moves_turn h hloop hw
    exact ⟨move, [], hmoves⟩
  | newSignal => exact ⟨id, [], .still rfl rfl (fun _ h => h) fun _ => rfl⟩
  | signalAct signal action =>
    refine ⟨id, [], ?_⟩
    unfold World.signalAct
    split <;> exact .still rfl rfl (fun _ h => h) fun _ => rfl
  | hold => exact ⟨id, [], .still rfl rfl (fun _ h => h) fun _ => rfl⟩

/-- **Every step is some steps of the audit.** -/
theorem steps_step (ha : u.audit.Reachable) (h : Orderly u) (hstep : Step u v) :
    u.audit.Steps v.audit := by
  cases hstep with
  | operation hb => exact .single (.operation hb)
  | deliver feed hfeed hw => exact Watch.steps_deliver ha hfeed hw
  | listen node hnode =>
    have hsub : u.audit.Steps (u.audit.subscribe node Listener.topic Listener.queueSize Text.type
        .chatter) := .single (.operation (.subscribe _ _ _ _ _ _ hnode))
    have hnet : (u.world.listen node).2.net = (u.audit.subscribe node Listener.topic
        Listener.queueSize Text.type .chatter).graph := by
      rcases u.listen_cases node with ⟨hworld, -⟩ | ⟨hworld, -⟩ <;> rw [hworld]
    unfold Watch.audit at hsub ⊢
    rw [hnet]
    exact hsub
  | spin => exact .refl
  | turn loop hloop w hw =>
    obtain ⟨i, -, hearing, hjob, hturned⟩ := h.turned hloop hw
    exact steps_turned hjob hturned
  | newSignal => exact .refl
  | signalAct signal action =>
    unfold World.signalAct
    split <;> exact .refl
  | hold => exact .refl

/-! ## Runs -/

/-- All that is known of an audience that has been run. -/
structure Sound (v : Audience μ) : Prop where
  audit : v.audit.Reachable
  orderly : Orderly v
  attends : ∀ i ∈ v.world.inboxes, Attends v i

theorem Sound.step (h : Sound u) (hstep : Step u v) : Sound v := by
  have hsteps := steps_step h.audit h.orderly hstep
  obtain ⟨move, fresh, hmoves⟩ := moves_step h.audit h.orderly h.attends hstep
  exact ⟨h.audit.trans hsteps,
    h.orderly.step (listeners_bound h.audit h.attends) hstep,
    hmoves.attends h.audit hsteps h.attends⟩

/-- What happens to an inbox in any number of steps: it is kept, and its texts flow. -/
theorem Sound.steps (h : Sound u) (hsteps : Steps u v) :
    Sound v ∧ u.audit.Steps v.audit ∧
      ∀ i ∈ u.world.inboxes, ∃ j ∈ v.world.inboxes, Flow u v i j := by
  induction hsteps with
  | refl => exact ⟨h, .refl, fun i hi => ⟨i, hi, .refl u i⟩⟩
  | tail _ hstep ih =>
    obtain ⟨hsound, haudit, hflow⟩ := ih
    obtain ⟨move, fresh, hmoves⟩ := moves_step hsound.audit hsound.orderly hsound.attends hstep
    refine ⟨hsound.step hstep,
      haudit.trans (steps_step hsound.audit hsound.orderly hstep), fun i hi => ?_⟩
    obtain ⟨j, hj, hij⟩ := hflow i hi
    refine ⟨move j, ?_, hij.trans (hmoves.flow j hj)⟩
    rw [hmoves.inboxes]
    exact List.mem_append_left _ (List.mem_map_of_mem hj)

theorem Start.sound (h : Start v) : Sound v := by
  obtain ⟨⟨hnet, -, hledger⟩, hinboxes, hloops, hendings, hlogged⟩ := h
  refine ⟨?_, ⟨?_, ?_, ?_, ?_, ?_, ?_, ?_⟩, ?_⟩
  · unfold Watch.audit
    rw [hnet, hledger]
    exact .refl
  · rw [hloops]
    exact List.nodup_nil
  · rw [hloops]
    exact List.nodup_nil
  · unfold Audience.listeners
    rw [hinboxes]
    exact List.nodup_nil
  · rw [hloops]
    exact nofun
  · rw [hloops]
    exact nofun
  · rw [hendings]
    exact nofun
  · rw [hlogged]
    exact nofun
  · rw [hinboxes]
    exact nofun

theorem Reachable.sound (h : Reachable v) : Sound v := by
  obtain ⟨u, hu, hsteps⟩ := h
  exact (hu.sound.steps hsteps).1

end Audience

end NodeGraph
