import NodeGraph.Proofs.Listening.Playing

/-!
# All that is said is reported

However a talker, any number of listeners, their threads and everybody else take their
turns, the text that the talker says is received by whoever watches the topic of records,
once as the talker has logged it and once for each listener as it has heard it.

> `Reported`: once all that was pending has been delivered, the watcher has received under
> the talker's name the texts, in order and nothing else, under the name of each listener
> what it makes of these texts, in order and nothing else; and every listener gives their
> number as soon as its signal trips.
>
> `chatter_reported`: so it is in every scene that has begun with nothing said. What the talker
> says or spins goes through its acts in these scenes (`Voices`).
>
> `not_always_reported`: it is not if others publish on the topic of records, where they can say
> anything in the talker's name, and not for texts that are too long for their length field
> (`Opening.not_reported`).

Which texts are queued, waiting or in hand when the scene comes to rest is read off
`Follows.conserved`: none, so all have been logged. The loop that has logged them has
counted them (`Seat.Spins.count`).
-/

namespace NodeGraph

open Wire (Bytes Countable)

variable {μ : Type}

/-- A loop that asks goes on when its signal has tripped. -/
theorem World.turns_of_tripped {w : World (Graph (Arrival μ)) μ} {loop : Loop} {i : Inbox}
    {stage : Killable.Stage} {n : Nat} (hjob : loop.job = .listen i.listener (.asking stage) n)
    (hinbox : w.inbox? i.listener = some i) (htripped : w.isTripped loop.signal = true) :
    w.turns loop ≠ [] := by
  unfold turns
  rw [hjob]
  simp only [listenTurns, hinbox]
  cases stage with
  | looking => simp [Killable.Stage.moves]
  | waiting => simp [Killable.Stage.moves, Killable.ready, htripped]

theorem Record.under_eq_nil {name : String} {some all : List Bytes} (h : under name all = [])
    (hsub : ∀ payload ∈ some, payload ∈ all) : under name some = [] := by
  unfold under readAll at h ⊢
  rw [List.filter_eq_nil_iff] at h ⊢
  intro record hrecord
  obtain ⟨payload, hpayload, hread⟩ := List.mem_filterMap.mp hrecord
  exact h record (List.mem_filterMap.mpr ⟨payload, hsub payload hpayload, hread⟩)

namespace Cast

variable {k : Cast μ} {s t : Scene μ} {p : Seat}

/-! ## The beginning -/

/-- What was taken and what waits has gone out. -/
theorem mem_window (ha : s.audit.Reachable) {c : Grant (Intake (Arrival μ))}
    (hc : c ∈ s.ledger.subscriptions) {f : Feed (Arrival μ)} (hf : f ∈ s.world.net.feeds)
    (hid : f.id = c.id) : ∀ payload ∈ c.item.taken ++ f.pending,
      payload ∈ (s.ledger.windowOf c.id).map Letter.payload := by
  intro payload hpayload
  obtain ⟨places, hkept⟩ := (ha.fed.serves c hc f hf hid).kept
  have hwindow : s.ledger.windowOf c.id = c.item.window :=
    Ledger.windowOf_eq ha.sound.numbered.grants_nodup.1 hc
  rw [hwindow]
  exact hkept.mem_sent hpayload

/-- A listener to whom nothing has gone out has been handed nothing and has logged nothing. -/
theorem Opening.quiet (h : k.Opening s) (hp : p ∈ k.seats) :
    (∃ c ∈ s.ledger.subscriptions, ∃ f ∈ s.world.net.feeds, f.id = c.id ∧
      c.id = p.listener.id ∧ c.item.taken ++ f.pending = []) ∧
    s.linesOf p.listener.id = [] := by
  have hsound := h.reachable.sound
  obtain ⟨⟨i, hi, hlistener⟩, -⟩ := h.seats p hp
  obtain ⟨c, hears⟩ := hsound.hears hi
  have hid : c.id = p.listener.id := hears.toBelongs.id_eq.trans (congrArg Listener.id hlistener)
  obtain ⟨f, hf, hfid, hserves⟩ := hsound.audit.fed.exists_feed hears.granted
  have hnone : c.item.taken ++ f.pending = [] := by
    refine List.eq_nil_iff_forall_not_mem.mpr fun payload hpayload => ?_
    have hmem := mem_window hsound.audit hears.granted hf hfid payload hpayload
    rw [hid, h.silent.1 p hp] at hmem
    cases hmem
  obtain ⟨done, htaken, hheard⟩ := hserves.heard
  have hdone : done = [] := by
    rw [htaken, List.append_eq_nil_iff, List.append_eq_nil_iff] at hnone
    exact hnone.1.1
  refine ⟨⟨c, hears.granted, f, hf, hfid, hid, hnone⟩, ?_⟩
  rw [← hlistener]
  exact hears.silent (by rw [hheard, hdone]; rfl)

/-- The loop of a listener that has heard nothing keeps to itself. -/
theorem Opening.spins (h : k.Opening s) (hp : p ∈ k.seats) : p.Spins s.toAudience := by
  have horderly := h.reachable.sound.orderly
  obtain ⟨-, loop, hloop, hid, hearing, hjob⟩ := h.seats p hp
  have hcount : s.countOf p.loop = 0 := by
    obtain ⟨-, listener, -, hearing', hjob'⟩ := horderly.listens loop hloop
    rw [hjob, hid] at hjob'
    injection hjob' with _ _ hn
    exact hn.symm
  have hlines := (h.quiet hp).2
  refine ⟨fun l hl hlid => ?_, fun x hx => ⟨fun hxloop => ?_, fun hxlistener => ?_⟩, ?_,
    .inl ⟨loop, hloop, hid⟩⟩
  · rw [List.inj_on_of_nodup_map horderly.ids hl hloop (hlid.trans hid.symm)]
    unfold Loop.ear
    rw [hjob]
  · unfold Audience.countOf at hcount
    rw [List.length_eq_zero_iff, List.filter_eq_nil_iff] at hcount
    exact absurd (decide_eq_true hxloop) (hcount x hx)
  · unfold Audience.linesOf at hlines
    rw [List.map_eq_nil_iff, List.filter_eq_nil_iff] at hlines
    exact absurd (decide_eq_true hxlistener) (hlines x hx)
  · rw [← hid]
    exact horderly.started loop hloop

theorem Opening.follows (h : k.Opening s) : k.Follows s := by
  have hsound := h.reachable.sound
  obtain ⟨hsaid, hmidway⟩ := h.idle
  have huttered : s.uttered = [] := by
    unfold Scene.uttered
    rw [hsaid, hmidway]
    rfl
  refine ⟨hsound, h.reachable.told, h.place, h.apart, h.talker, ?_, fun p hp => (h.seats p hp).1,
    fun p hp => h.spins hp, ?_, fun p hp => ?_⟩
  · rw [huttered]
    exact nofun
  · obtain ⟨c, hc, hwatches⟩ := h.watcher
    obtain ⟨f, hf, hid, -⟩ := hsound.audit.fed.exists_feed hc
    have hnone : ∀ node ∈ k.nodes, Record.under node.name (c.item.taken ++ f.pending) = [] :=
      fun node hnode => Record.under_eq_nil (hwatches.id ▸ h.silent.2 node hnode)
        (mem_window hsound.audit hc hf hid)
    refine ⟨c, hc, f, hf, hid, hwatches, ?_, fun p hp => ?_⟩
    · rw [hnone _ (talker_mem_nodes k), huttered]
      rfl
    · rw [hnone _ (mem_nodes hp), (h.quiet hp).2]
      rfl
  · obtain ⟨⟨c, hc, f, hf, hid, hcid, hnone⟩, -⟩ := h.quiet hp
    refine ⟨c, hc, f, hf, hid, hcid, ?_⟩
    rw [hnone, hsaid]
    rfl

/-! ## The end -/

/-- What the watcher is handed for payloads are the records in them. -/
theorem Watches.readAll {c : Grant (Intake (Arrival μ))} (h : k.Watches c)
    (payloads : List Bytes) : (c.item.readAll payloads).filterMap Arrival.value? =
      (Record.readAll payloads).map k.report := by
  obtain ⟨capacity, window, taken, heard, hitem⟩ := h.item
  unfold Intake.readAll Record.readAll
  rw [hitem, List.filterMap_filterMap, List.map_filterMap]
  refine List.filterMap_congr fun payload _ => ?_
  unfold Intake.read
  cases Record.type.unpack payload <;> rfl

/-- At rest every text that was sent has been logged. -/
theorem Follows.lines_of_rests (h : k.Follows t) (hrests : k.Rests t) (hp : p ∈ k.seats) :
    t.linesOf p.listener.id = t.said.map fun text => p.node.line ⟨text⟩ := by
  obtain ⟨i, c, hc, f, hf, hid, texts, hlines, hsaid⟩ := h.conserved hp
  obtain ⟨hpending, hheld⟩ := hrests.queues p.listener.id (mem_queues hp) f hf hid
  obtain ⟨hhand, hinbox⟩ := hrests.inboxes p hp
  rw [hpending, hheld, hhand, hinbox i hc.inbox hc.listener] at hsaid
  have hall : t.said.map Text.mk = texts := hsaid.trans (by
    show texts ++ [] ++ [] ++ [] = texts
    simp)
  rw [hlines, ← hall, List.map_map]
  rfl

theorem Follows.count_of_rests (h : k.Follows t) (hrests : k.Rests t) (hp : p ∈ k.seats) :
    t.countOf p.loop = t.said.length := by
  rw [(h.spins p hp).count, h.lines_of_rests hrests hp, List.length_map]

/-- A loop at rest has nothing to do but to stop. -/
theorem Follows.stops_of_rests (h : k.Follows t) (hrests : k.Rests t) (hp : p ∈ k.seats)
    {loop : Loop} (hloop : loop ∈ t.world.loops) (hid : loop.id = p.loop)
    (htripped : t.world.isTripped loop.signal = true) :
    t.world.turns loop ≠ [] ∧
      ∀ z ∈ t.world.turns loop, z = t.world.stopped loop (.heard t.said.length) := by
  obtain ⟨i, c, hc⟩ := h.exists_seated hp
  have hear := (h.spins p hp).ear loop hloop hid
  obtain ⟨hhand, hitems⟩ := hrests.inboxes p hp
  have horderly := h.sound.orderly
  obtain ⟨hshared, hearing, hjob⟩ :=
    horderly.own hc.inbox hloop (hear.trans (congrArg (some ·.id) hc.listener.symm))
  rw [hid, h.count_of_rests hrests hp] at hjob
  have hown : t.handOf p.listener.id = loop.job.hand := Loop.hands_of_mem horderly.ears hloop hear
  have hinbox := horderly.inbox?_eq hc.inbox
  cases hearing with
  | taken text =>
    rw [hown, hjob] at hhand
    cases hhand
  | asking stage =>
    refine ⟨World.turns_of_tripped hjob hinbox htripped, fun z hz => ?_⟩
    cases World.turned_of_turn hjob hshared hinbox hz with
    | wait hopen =>
      rw [hopen] at htripped
      cases htripped
    | take text rest htexts =>
      rw [hitems i hc.inbox hc.listener] at htexts
      cases htexts
    | stop => rfl

theorem Record.remarks_map (node : Node) (texts : List String) :
    (texts.map (Record.saying node)).map (fun record => (record.level, record.name, record.msg)) =
      texts.map fun text => (Level.info, node.name, text) := List.map_map

/-- **Everything that is said is reported.** Take any scene that began with a talker, listeners
and a watcher in place and nothing said, in which no queue had to evict anything. Whenever the
talker says something or spins, its code logs the text, sends it and is not refused. It may say
any texts that a length field can count (`Fits`), and others may do what they like, but for
publishing on the topic of records. Once the scene has come to rest, the watcher has received,
under the talker's name, what it has said in order, and under each listener's name that it has
heard each text in order, all on the level for information, and nothing else under these names;
and each listener's loop gives the number of texts. -/
theorem chatter_reported (hopening : k.Opening s) (hsteps : k.Steps s t) :
    k.Voices t ∧ (k.Rests t → k.Reported t) := by
  have h := follows_steps hopening.follows hsteps
  refine ⟨h.voices, fun hrests => ⟨?_, fun p hp => ?_, fun p hp n hn => ?_⟩⟩
  · obtain ⟨c, hc, f, hf, hid, hwatches, htalker, hlisteners⟩ := h.watcher
    obtain ⟨hpending, hheld⟩ :=
      hrests.queues c.id (hwatches.id ▸ List.mem_cons_self ..) f hf hid
    obtain ⟨done, htaken, hheard⟩ := (h.sound.audit.fed.serves c hc f hf hid).heard
    rw [hheld, Option.toList_none, List.append_nil] at htaken
    rw [hpending, List.append_nil] at htalker hlisteners
    have huttered : t.uttered = t.said := by
      unfold Scene.uttered
      rw [hrests.idle]
      exact List.append_nil _
    refine ⟨Record.readAll c.item.taken, ?_, ?_, fun p hp => ?_⟩
    · rw [← hwatches.id, h.told.received _ (Ledger.exists_hearing hc), hheard, ← htaken]
      exact hwatches.readAll _
    · rw [huttered] at htalker
      exact (congrArg (List.map _) htalker).trans (Record.remarks_map ..)
    · refine (congrArg (List.map _) (hlisteners p hp)).trans ?_
      rw [h.lines_of_rests hrests hp, List.map_map, List.map_map]
      rfl
  · rcases (h.spins p hp).ends with ⟨loop, hloop, hid⟩ | ⟨n, hn⟩
    · exact .inl ⟨loop, hloop, hid, h.stops_of_rests hrests hp hloop hid⟩
    · refine .inr ?_
      rw [← h.count_of_rests hrests hp, ← (h.sound.orderly.endings _ _ hn).2.2]
      exact hn
  · rw [← h.count_of_rests hrests hp]
    exact (h.sound.orderly.endings _ _ hn).2.2

/-! ## A run -/

def left : Seat := ⟨⟨1, "/a"⟩, .subscriber "/chatter" 2, 0⟩

def right : Seat := ⟨⟨3, "/b"⟩, .subscriber "/chatter" 4, 1⟩

/-- Two listeners, a talker and a watcher that receives records as they are. -/
def company : Cast Record where
  talker := ⟨5, "/t"⟩
  publisher := ⟨6, 5, "/chatter", Text.type⟩
  seats := [left, right]
  watcher := 8
  report := id

/-- All are in place, and both listeners spin until the same signal trips. -/
def overture : Scene Record :=
  let v : Audience Record := { world := { net := {}, stamper := ⟨0, 0⟩ } }
  let v := { v with toWatch := v.use (v.audit.register "a") }
  let v := { v with
    world := (v.world.listen ⟨1, "/a"⟩).2
    ledger := (v.audit.subscribe ⟨1, "/a"⟩ Listener.topic Listener.queueSize Text.type
      .chatter).ledger }
  let v := { v with toWatch := v.use (v.audit.register "b") }
  let v := { v with
    world := (v.world.listen ⟨3, "/b"⟩).2
    ledger := (v.audit.subscribe ⟨3, "/b"⟩ Listener.topic Listener.queueSize Text.type
      .chatter).ledger }
  let v := { v with toWatch := v.use (v.audit.register "t") }
  let v := { v with toWatch := v.use (v.audit.publish ⟨5, "/t"⟩ Talker.topic Text.type) }
  let v := { v with toWatch := v.use (v.audit.register "w") }
  let v := { v with toWatch := v.use (v.audit.subscribe ⟨7, "/w"⟩ Record.topic 2 Record.type
    fun record => .value record) }
  let v := { v with world := v.world.newSignal.2 }
  let v := { v with world := (v.world.spinListener ⟨"/a", ⟨1, "/a"⟩, .subscriber "/chatter" 2⟩
    0).2 }
  let v := { v with world := (v.world.spinListener ⟨"/b", ⟨3, "/b"⟩, .subscriber "/chatter" 4⟩
    0).2 }
  { toAudience := v }

theorem overture_reachable : overture.toAudience.Reachable := by
  unfold overture
  refine (((((((((((Audience.Reachable.tail ⟨_, ⟨⟨rfl, rfl, rfl⟩, rfl, rfl, rfl, rfl⟩, .refl⟩
    (.operation _ (.register _ "a"))).tail
    (.listen _ ⟨1, "/a"⟩ ?_)).tail
    (.operation _ (.register _ "b"))).tail
    (.listen _ ⟨3, "/b"⟩ ?_)).tail
    (.operation _ (.register _ "t"))).tail
    (.operation _ (.publish _ ⟨5, "/t"⟩ Talker.topic Text.type ?_))).tail
    (.operation _ (.register _ "w"))).tail
    (.operation _ (.subscribe _ ⟨7, "/w"⟩ Record.topic 2 Record.type _ ?_))).tail
    (.newSignal _)).tail
    (.spin _ ⟨⟨"/a", ⟨1, "/a"⟩, .subscriber "/chatter" 2⟩, ⟨[], 1⟩⟩ 0 ?_ ?_)).tail
    (.spin _ ⟨⟨"/b", ⟨3, "/b"⟩, .subscriber "/chatter" 4⟩, ⟨[], 1⟩⟩ 0 ?_ ?_))
  all_goals decide +kernel

theorem overture_opening : company.Opening overture := by
  have hinboxes : ∀ p ∈ company.seats, ∃ i ∈ overture.world.inboxes, i.listener = p.listener := by
    decide +kernel
  have hloops : ∀ p ∈ company.seats, ∃ loop ∈ overture.world.loops, loop.id = p.loop ∧
      loop.job = .listen p.listener (.asking .looking) 0 := by
    decide +kernel
  have hwindows : ∀ p ∈ company.seats, (overture.ledger.windowOf p.listener.id).length = 0 := by
    decide +kernel
  refine ⟨overture_reachable, ⟨?_, ?_, ?_, ?_, ?_, ?_⟩, ?_, ⟨.head _, rfl⟩,
    ⟨⟨⟨7, "/w"⟩, Record.topic, .subscriber Record.topic 8,
      ⟨Record.type, 2, fun record => .value record, [], [], []⟩⟩, .tail _ (.tail _ (.head _)),
      rfl, rfl, _, _, _, _, rfl⟩,
    fun p hp => ⟨hinboxes p hp, ?_⟩,
    ⟨fun p hp => List.eq_nil_of_length_eq_zero (hwindows p hp), ?_⟩, rfl, rfl⟩
  · decide +kernel
  · decide +kernel
  · decide +kernel
  · decide +kernel
  · decide +kernel
  · decide +kernel
  · decide
  · obtain ⟨loop, hloop, hid, hjob⟩ := hloops p hp
    exact ⟨loop, hloop, hid, _, hjob⟩
  · decide +kernel

/-- The talker greets, and one of the listeners hears it. The talker says something else, and
the other listener hears both. Then the node of the watcher logs something too, the first
listener hears the second text, and both are stopped. -/
def script : List Cue :=
  [.say (Talker.greeting 0), .pass 8, .pass 8, .pass 2, .pass 2, .hear 0, .hear 0, .hear 0,
    .pass 8, .say "¡olé!", .pass 4, .pass 4, .hear 1, .hear 1, .hear 1,
    .pass 8, .pass 8, .pass 8, .pass 8, .pass 8, .murmur ⟨7, "/w"⟩ "applause", .pass 8, .pass 8,
    .pass 4, .pass 4, .hear 1, .hear 1, .hear 1, .pass 2, .pass 2, .hear 0, .hear 0, .hear 0,
    .pass 8, .pass 8, .pass 8, .pass 8, .signal 0 .kill, .hear 0, .hear 1]

def finale : Scene Record := script.foldl company.plays overture

theorem finale_rests : company.Rests finale := by
  refine ⟨?_, ?_, ?_⟩ <;> decide +kernel

/-- Both texts are reported by the talker and by both listeners, who are stopped after two. -/
theorem chatter_reported_finale :
    company.Opening overture ∧ company.Steps overture finale ∧ company.Rests finale ∧
    company.Reported finale ∧ finale.said = ["hello world 0", "¡olé!"] ∧
    finale.world.endings = [(0, .heard 2), (1, .heard 2)] ∧
    (finale.receivedBy 8).map (fun record => (record.name, record.msg)) =
      [("/t", "hello world 0"), ("/a", "/a: I heard hello world 0"), ("/t", "¡olé!"),
        ("/b", "/b: I heard hello world 0"), ("/w", "applause"),
        ("/b", "/b: I heard ¡olé!"), ("/a", "/a: I heard ¡olé!")] := by
  have hsteps : company.Steps overture finale := overture_opening.follows.steps_cues script
  refine ⟨overture_opening, hsteps, finale_rests,
    (chatter_reported overture_opening hsteps).2 finale_rests, ?_, ?_, ?_⟩
  all_goals decide +kernel

/-! ## Forgery -/

/-- A record in the name of the talker that does not come from its log. -/
def forgery : Record :=
  { level := Level.info, name := "/t", msg := "hello", file := "w.rs", line := 7 }

/-- The node of the watcher publishes on the topic of records and sends the forgery, and the
watcher's thread hands it over. -/
def forged : Scene Record :=
  let v := overture.toAudience
  let v := { v with toWatch := v.use (v.audit.publish ⟨7, "/w"⟩ Record.topic Record.type) }
  let v := { v with toWatch := v.use (v.audit.send ⟨9, 7, "/rosout", Record.type⟩ forgery) }
  { overture with toAudience := (v.thread 8).thread 8 }

theorem forged_steps : Audience.Steps overture.toAudience forged.toAudience := by
  unfold forged
  refine (Relation.ReflTransGen.trans (.tail (.single
    (.operation _ (.publish _ ⟨7, "/w"⟩ Record.topic Record.type ?_)))
    (.operation _ (.send _ ⟨⟨7, "/w"⟩, Record.topic, .publisher "/rosout" 9,
      ⟨⟨9, 7, "/rosout", Record.type⟩⟩⟩ forgery ?_ ?_)))
    (Audience.steps_thread _ 8)).trans (Audience.steps_thread _ 8)
  · decide +kernel
  · exact .tail _ (.head _)
  · decide +kernel

/-- A record has been received under the talker's name, although the talker has said nothing and
nobody has logged anything. -/
theorem forged_received :
    company.Rests forged ∧ forged.said = [] ∧ forged.logged = [] ∧
    (forged.receivedBy 8).map (fun record => (record.name, record.msg)) = [("/t", "hello")] ∧
    ¬ company.Reported forged := by
  have hreceived : forged.receivedBy 8 = [forgery] := by decide +kernel
  refine ⟨⟨rfl, ?_, ?_⟩, rfl, ?_, ?_, fun hreported => ?_⟩
  · decide +kernel
  · decide +kernel
  · exact List.eq_nil_of_length_eq_zero (by decide +kernel)
  · rw [hreceived]
    decide
  · obtain ⟨records, hall, htalker, -⟩ := hreported.received
    have hrecords : records = [forgery] :=
      (List.map_id records).symm.trans (hall.symm.trans hreceived)
    rw [hrecords] at htalker
    exact absurd htalker (by decide)

/-! ## Texts without end -/

/-- Whatever has happened since the beginning, what the watcher has received was read from
payloads. -/
theorem Opening.received (h : k.Opening s) (hsteps : Audience.Steps s.toAudience t.toAudience) :
    ∃ payloads, t.receivedBy k.watcher = (Record.readAll payloads).map k.report := by
  obtain ⟨hsound, haudit, -⟩ := h.reachable.sound.steps hsteps
  obtain ⟨c, hc, hwatches⟩ := h.watcher
  obtain ⟨f, hf, hid, -⟩ := h.reachable.sound.audit.fed.exists_feed hc
  obtain ⟨c', hc', f', hf', hid', hlater⟩ :=
    Audit.prolongs_steps h.reachable.sound.audit haudit hc hf hid
  obtain ⟨taken, heard, rfl⟩ := hlater.grant
  have hwatches' := hwatches.later (s.audit.news t.audit c.id) taken heard
  have htold : t.toAudience.Told := by
    obtain ⟨u, hu, hbefore⟩ := h.reachable
    exact Audience.Reachable.told ⟨u, hu, hbefore.trans hsteps⟩
  obtain ⟨done, -, hheard⟩ := (hsound.audit.fed.serves _ hc' f' hf' hid').heard
  refine ⟨done, ?_⟩
  rw [← hwatches'.id, htold.received _ (Ledger.exists_hearing hc'), hheard]
  exact hwatches'.readAll done

/-- **A text without end is never reported**, whatever happens. -/
theorem Opening.not_reported (h : k.Opening s) (hreport : Function.Injective k.report)
    (hsteps : Audience.Steps s.toAudience t.toAudience) {text : String} (hsaid : text ∈ t.said)
    (hlong : ¬ Countable text) : ¬ k.Reported t := by
  intro hreported
  obtain ⟨payloads, hreceived⟩ := h.received hsteps
  obtain ⟨records, hall, htalker, -⟩ := hreported.received
  have hrecords : records = Record.readAll payloads :=
    List.map_injective_iff.mpr hreport (hall.symm.trans hreceived)
  have hremark : (Level.info, k.talker.name, text) ∈ Record.remarks k.talker.name records := by
    rw [htalker]
    exact List.mem_map_of_mem hsaid
  obtain ⟨record, hrecord, heq⟩ := List.mem_map.mp hremark
  rw [hrecords] at hrecord
  obtain ⟨payload, -, hread⟩ := List.mem_filterMap.mp (List.mem_of_mem_filter hrecord)
  cases hunpack : Record.type.unpack payload with
  | error fault =>
    rw [hunpack] at hread
    cases hread
  | ok _ =>
    rw [hunpack] at hread
    cases hread
    obtain rfl : record.msg = text := congrArg (·.2.2) heq
    obtain ⟨-, hfits, -⟩ := exists_rest_of_unpack Record.codec_faithful hunpack
    exact hlong hfits.msg

/-- The talker has said a text that is one byte too long. -/
def droned : Scene Record := company.sends (company.logs overture Wire.endless) Wire.endless

theorem droned_steps : Audience.Steps overture.toAudience droned.toAudience := by
  refine .tail (.single (.operation _ (.log _ ⟨5, "/t"⟩ (.info Wire.endless))))
    (.operation _ (.send _ company.grant ⟨Wire.endless⟩ ?_ ?_))
  · have hsteps : overture.audit.Steps (company.logs overture Wire.endless).audit :=
      .single (.operation (.log _ ⟨5, "/t"⟩ (.info Wire.endless)))
    exact (talks_steps overture_opening.talker hsteps).granted
  · decide +kernel

/-- What is received under the names and what is said need not be the same if anybody publishes
on the topic of records, and also not if a text has no end. -/
theorem not_always_reported :
    company.Opening overture ∧
    (Audience.Steps overture.toAudience forged.toAudience ∧ company.Rests forged ∧
      forged.said = [] ∧ forged.logged = [] ∧
      (forged.receivedBy 8).map (fun record => (record.name, record.msg)) = [("/t", "hello")] ∧
      ¬ company.Reported forged) ∧
    (company.voice 0).say overture.world.net Wire.endless = (.ok (), droned.world.net) ∧
    Audience.Steps overture.toAudience droned.toAudience ∧
    ∀ t : Scene Record, Audience.Steps droned.toAudience t.toAudience → t.said = [Wire.endless] →
      ¬ company.Reported t :=
  ⟨overture_opening, ⟨forged_steps, forged_received⟩,
    overture_opening.follows.voices.say 0 Wire.endless, droned_steps, fun _ hsteps hsaid =>
      overture_opening.not_reported Function.injective_id (droned_steps.trans hsteps)
        (hsaid.symm ▸ List.mem_singleton_self Wire.endless) Wire.not_countable_endless⟩

end Cast

end NodeGraph
