import NodeGraph.Proofs.Delivery.Records
import NodeGraph.Proofs.Listening.Scene
import NodeGraph.Proofs.Registry.Typed

/-!
# What is said is passed on

In a scene every text is encoded and queued, decoded and put into an inbox, taken in hand
and logged, and the record that is logged is encoded, queued and decoded once more. Here
is what a step of anybody does to that.

> `Follows`: what the watcher's queue has given or still holds reads, under each name of
> the cast, as what has been logged under it; and what a listener's queue has given or
> still holds reads as what the talker has sent.
>
> `follows_step`: every step keeps this up.
>
> `conserved`: so what the talker has sent is, in this order, what the listener has logged,
> what it has in hand, what waits in its inbox and what is still on the way there.

A step is looked at from its two ends. `Conveys` says what it adds: so many texts were
sent, so many lines were logged, and what arrived at the queues reads as these. That this
is so is proved for each act by itself (`conveys_act`); that it is enough, once for all of
them (`Conveys.follows`).
-/

namespace NodeGraph

open Wire (Bytes Codec Countable)

variable {μ : Type}

/-! ## Reading payloads -/

theorem Text.readAll_append (before after : List Bytes) :
    readAll (before ++ after) = readAll before ++ readAll after := List.filterMap_append

theorem Text.readAll_framed {text : Text} (h : Countable text.data) :
    readAll [framed (codec.encode text)] = [text] := by
  unfold readAll
  rw [List.filterMap_cons, type, unpack_framed codec_faithful h]
  rfl

namespace Record

theorem readAll_append (before after : List Bytes) :
    readAll (before ++ after) = readAll before ++ readAll after := List.filterMap_append

theorem under_append (name : String) (before after : List Bytes) :
    under name (before ++ after) = under name before ++ under name after := by
  unfold under
  rw [readAll_append, List.filter_append]

/-- What a node says fits if its name and the text do. -/
theorem saying_fits {node : Node} {text : String} (hname : Countable node.name)
    (htext : Countable text) : (saying node text).Fits :=
  have hempty : "".utf8ByteSize < 2 ^ 32 := by decide
  have hfile : "<component>".utf8ByteSize < 2 ^ 32 := by decide
  ⟨hempty, hname, htext, hfile, hempty, Nat.two_pow_pos 32, nofun⟩

theorem under_framed {record : Record} (hfits : record.Fits) (name : String) :
    under name [framed (codec.encode record)] = if record.name = name then [record] else [] := by
  unfold under readAll
  rw [List.filterMap_cons, type, unpack_framed codec_faithful hfits]
  show [record].filter (·.name = name) = _
  split
  next hsame => exact List.filter_cons_of_pos (decide_eq_true hsame)
  next hother => exact List.filter_cons_of_neg fun hsame => hother (of_decide_eq_true hsame)

/-- No other record is read under a name, not even one whose text is too long to be read as it
was written. -/
theorem under_framed_of_ne {record : Record} {name : String}
    (hframe : Countable record.header.frameId) (hname : Countable record.name)
    (hother : record.name ≠ name) : under name [framed (codec.encode record)] = [] := by
  unfold under readAll
  rw [List.filterMap_cons]
  cases hread : type.unpack (framed (codec.encode record)) with
  | error fault => rfl
  | ok read =>
    refine List.filter_cons_of_neg fun hsame => hother ?_
    rw [← name_of_unpack hframe hname hread]
    exact of_decide_eq_true hsame

end Record

/-! ## Letters -/

theorem Graph.topic?_isSome {g : Graph (Arrival μ)} {t : Topic} (ht : t ∈ g.topics) :
    (g.topic? t.name).isSome = true := List.find?_isSome.mpr ⟨t, ht, decide_eq_true rfl⟩

/-- What a live node puts on the topic of records when it logs, if somebody wants records. -/
theorem Graph.logLetters_of_alive {g : Graph (Arrival μ)} (logger : Logger)
    (halive : g.isAlive logger.node = true)
    (hcarries : g.carries Record.topic Record.type.md5 = true) (entry : Entry) :
    ∃ letter : Letter, g.logLetters logger entry = [letter] ∧ letter.topic = Record.topic ∧
      letter.payload = framed (Record.codec.encode (record logger entry)) := by
  have hpack : Record.type.pack (record logger entry) =
      .ok (framed (Record.codec.encode (record logger entry))) := rfl
  refine ⟨⟨Record.type, _, Record.topic, _, hpack⟩, ?_, rfl, rfl⟩
  rw [Audit.logLetters_of_ok hpack]
  refine if_pos ?_
  rw [Bool.and_eq_true]
  exact ⟨halive, hcarries⟩

/-- A node that is not up puts nothing there. -/
theorem Graph.logLetters_of_not_alive {g : Graph (Arrival μ)} {logger : Logger}
    (h : g.isAlive logger.node = false) (entry : Entry) : g.logLetters logger entry = [] := by
  unfold logLetters
  split
  · rfl
  · rw [h, Bool.false_and]
    rfl

/-- What is sent goes to the publisher's topic, if its node is up. -/
theorem Graph.mem_sendLetters {α : Type} {g : Graph (Arrival μ)} {p : Publisher α} {message : α}
    {letter : Letter} (h : letter ∈ g.sendLetters p message) :
    letter.topic = p.topic ∧ g.isAlive p.node = true := by
  unfold sendLetters at h
  split at h
  · cases h
  · split at h
    next hup =>
      rw [List.mem_singleton.mp h]
      exact ⟨rfl, (Bool.and_eq_true _ _ ▸ hup).1⟩
    next => cases h

namespace Scene

variable {s t : Scene μ} {c : Grant (Intake (Arrival μ))}

/-- Nothing arrives if nothing goes out. -/
theorem parcels_eq_nil {id : Nat} (h : t.ledger.windowOf id = s.ledger.windowOf id) :
    s.parcels t id = [] := by
  unfold parcels Audit.news
  show ((t.ledger.windowOf id).drop (s.ledger.windowOf id).length).map _ = []
  rw [h, List.drop_length]
  rfl

theorem parcels_posts (hs : Sound s.audit) (hc : c ∈ s.ledger.subscriptions)
    (hopen : s.ledger.isOpen c = true) {letters : List Letter}
    (ht : t.ledger = letters.foldl Ledger.post s.ledger) :
    s.parcels t c.id = (letters.filter (·.topic = c.target)).map Letter.payload :=
  congrArg (List.map Letter.payload) (Audit.news_posts (b := t.audit) hs hc hopen ht)

end Scene

/-! ## The loop of a listener -/

/-- The loop of a listener logs for nobody else, and nobody else for the listener; it still
spins or has given its count. -/
structure Seat.Spins (p : Seat) (v : Audience μ) : Prop where
  ear : ∀ l ∈ v.world.loops, l.id = p.loop → l.ear = some p.listener.id
  lines : ∀ x ∈ v.logged, x.loop = p.loop ↔ x.listener = p.listener.id
  started : p.loop < v.world.started
  ends : (∃ l ∈ v.world.loops, l.id = p.loop) ∨ ∃ n, (p.loop, .heard n) ∈ v.world.endings

namespace Audience

variable {u v : Audience μ} {p : Seat}

/-- What a turn makes of the loops: this one has another job on the same listener, or it is
gone. -/
theorem turned_loops {loop : Loop} {i : Inbox} {hearing : Hearing} {n : Nat}
    {w : World (Graph (Arrival μ)) μ} (h : World.Turned u.world loop i n hearing w) :
    w.started = u.world.started ∧
    ((∃ hearing' m, w.loops = u.world.loops.map
        (Loop.assign loop.id (.listen i.listener hearing' m)) ∧ w.endings = u.world.endings) ∨
      w.loops = u.world.loops.filter (·.id ≠ loop.id) ∧
        w.endings = u.world.endings ++ [(loop.id, .heard n)]) := by
  cases h with
  | wait => exact ⟨rfl, .inl ⟨_, _, rfl, rfl⟩⟩
  | take => exact ⟨rfl, .inl ⟨_, _, rfl, rfl⟩⟩
  | say => exact ⟨rfl, .inl ⟨_, _, rfl, rfl⟩⟩
  | stop => exact ⟨rfl, .inr ⟨rfl, rfl⟩⟩

theorem spins_congr (h : p.Spins u) (hloops : v.world.loops = u.world.loops)
    (hstarted : v.world.started = u.world.started) (hendings : v.world.endings = u.world.endings)
    (hlogged : v.logged = u.logged) : p.Spins v := by
  refine ⟨?_, ?_, ?_, ?_⟩
  · rw [hloops]
    exact h.ear
  · rw [hlogged]
    exact h.lines
  · rw [hstarted]
    exact h.started
  · rw [hloops, hendings]
    exact h.ends

/-- Whoever spins after a turn has spun before it, and on the same listener. -/
theorem exists_ear_of_turned (ho : Orderly u) {loop : Loop} (hloop : loop ∈ u.world.loops)
    {i : Inbox} {hearing : Hearing} {n : Nat} {w : World (Graph (Arrival μ)) μ}
    (hjob : loop.job = .listen i.listener hearing n) (h : World.Turned u.world loop i n hearing w)
    {l : Loop} (hl : l ∈ w.loops) : ∃ m ∈ u.world.loops, m.id = l.id ∧ m.ear = l.ear := by
  rcases (turned_loops h).2 with ⟨hearing', m, hmap, -⟩ | ⟨hfilter, -⟩
  · rw [hmap] at hl
    obtain ⟨l', hl', rfl⟩ := List.mem_map.mp hl
    refine ⟨l', hl', (Loop.assign_id ..).symm, ?_⟩
    by_cases hid : l'.id = loop.id
    · rw [List.inj_on_of_nodup_map ho.ids hl' hloop hid, Loop.assign_self]
      unfold Loop.ear
      rw [hjob]
    · rw [Loop.assign_of_ne hid]
  · rw [hfilter] at hl
    exact ⟨l, List.mem_of_mem_filter hl, rfl, rfl⟩

theorem spins_turn (ho : Orderly u) (h : p.Spins u)
    (honly : ∀ l ∈ u.world.loops, l.ear = some p.listener.id → l.id = p.loop) {loop : Loop}
    (hloop : loop ∈ u.world.loops) {w : World (Graph (Arrival μ)) μ}
    (hw : w ∈ u.world.turns loop) : p.Spins (u.proceed loop w) := by
  obtain ⟨i, -, hearing, hjob, hturned⟩ := ho.turned hloop hw
  have hear : loop.ear = some i.listener.id := by
    unfold Loop.ear
    rw [hjob]
  obtain ⟨hstarted, hloops⟩ := turned_loops hturned
  refine ⟨fun l hl hid => ?_, fun x hx => ?_, hstarted ▸ h.started, ?_⟩
  · obtain ⟨m, hm, hmid, hmear⟩ := exists_ear_of_turned ho hloop hjob hturned hl
    exact hmear.symm.trans (h.ear m hm (hmid.trans hid))
  · -- a line that is new was logged by this loop for its listener
    have hx : x ∈ u.logged ++ spokenBy loop u.world.net.journal w.net.journal := hx
    rw [spokenBy_turned hjob hturned] at hx
    rcases List.mem_append.mp hx with hold | hnew
    · exact h.lines x hold
    · obtain ⟨text, -, rfl⟩ := List.mem_map.mp hnew
      constructor
      · intro hid
        exact Option.some.inj (hear.symm.trans (h.ear loop hloop hid))
      · intro hlistener
        exact honly loop hloop (hear.trans (congrArg some hlistener))
  · show (∃ l ∈ w.loops, l.id = p.loop) ∨ ∃ n, (p.loop, .heard n) ∈ w.endings
    rcases hloops with ⟨hearing', m, hmap, hendings⟩ | ⟨hfilter, hendings⟩
    · rw [hmap, hendings]
      refine h.ends.imp_left fun hex => ?_
      obtain ⟨l, hl, hid⟩ := hex
      exact ⟨_, List.mem_map_of_mem hl, (Loop.assign_id ..).trans hid⟩
    · rw [hfilter, hendings]
      rcases h.ends with ⟨l, hl, hid⟩ | ⟨n, hn⟩
      · by_cases hown : l.id = loop.id
        · refine .inr ⟨u.countOf loop.id, List.mem_append_right _ ?_⟩
          rw [← hid, hown]
          exact List.mem_singleton_self _
        · exact .inl ⟨l, List.mem_filter.mpr ⟨hl, decide_eq_true hown⟩, hid⟩
      · exact .inr ⟨n, List.mem_append_left _ hn⟩

/-- Whatever happens, as long as nobody else spins on the listener. -/
theorem spins_step (ho : Orderly u) (h : p.Spins u)
    (honly : ∀ l ∈ u.world.loops, l.ear = some p.listener.id → l.id = p.loop)
    (hstep : Step u v) : p.Spins v := by
  cases hstep with
  | operation => exact spins_congr h rfl rfl rfl rfl
  | deliver feed hfeed hw =>
    obtain ⟨gone, hhanded, -⟩ := World.handed_of_deliver hw
    exact spins_congr h hhanded.loops hhanded.started hhanded.endings rfl
  | listen node _ =>
    rcases u.listen_cases node with ⟨hworld, -⟩ | ⟨hworld, -⟩ <;> rw [hworld] <;>
      exact spins_congr h rfl rfl rfl rfl
  | spin i signal hi hfree =>
    refine ⟨fun l hl hid => ?_, h.lines, Nat.lt_succ_of_lt h.started, ?_⟩
    · rcases List.mem_append.mp hl with hold | hnew
      · exact h.ear l hold hid
      · -- a loop that has just been started has a number of its own
        rw [List.mem_singleton.mp hnew] at hid
        exact absurd hid (Nat.ne_of_gt h.started)
    · refine h.ends.imp_left fun hex => ?_
      obtain ⟨l, hl, hid⟩ := hex
      exact ⟨l, List.mem_append_left _ hl, hid⟩
  | turn loop hloop w hw => exact spins_turn ho h honly hloop hw
  | newSignal => exact spins_congr h rfl rfl rfl rfl
  | signalAct signal action =>
    unfold World.signalAct
    split <;> exact spins_congr h rfl rfl rfl rfl
  | hold => exact spins_congr h rfl rfl rfl rfl

end Audience

/-- So the loop has logged as many lines as there are for the listener. -/
theorem Seat.Spins.count {p : Seat} {v : Audience μ} (h : p.Spins v) :
    v.countOf p.loop = (v.linesOf p.listener.id).length := by
  have hsame : v.logged.filter (·.loop = p.loop) = v.logged.filter (·.listener = p.listener.id) :=
    List.filter_congr fun x hx => by rw [decide_eq_decide]; exact h.lines x hx
  unfold Audience.countOf Audience.linesOf
  rw [hsame, List.length_map]

/-! ## What is known of a scene -/

namespace Cast

/-- Everything that has been said has been passed on, or is on its way. -/
structure Follows (k : Cast μ) (s : Scene μ) : Prop where
  sound : s.toAudience.Sound
  told : s.Told
  place : k.InPlace s.toAudience
  apart : (k.nodes.map Node.id).Nodup
  talker : k.Talks s.ledger
  fits : ∀ text ∈ s.uttered, k.Fits text
  seated : ∀ p ∈ k.seats, ∃ i ∈ s.world.inboxes, i.listener = p.listener
  spins : ∀ p ∈ k.seats, p.Spins s.toAudience
  /-- What the watcher has got so far reads as what was logged. -/
  watcher : ∃ c ∈ s.ledger.subscriptions, ∃ f ∈ s.world.net.feeds, f.id = c.id ∧ k.Watches c ∧
    Record.under k.talker.name (c.item.taken ++ f.pending) =
      s.uttered.map (Record.saying k.talker) ∧
    ∀ p ∈ k.seats, Record.under p.node.name (c.item.taken ++ f.pending) =
      (s.linesOf p.listener.id).map fun line => Record.saying p.node line.text
  /-- What a listener has got so far reads as what was sent. -/
  texts : ∀ p ∈ k.seats, ∃ c ∈ s.ledger.subscriptions, ∃ f ∈ s.world.net.feeds, f.id = c.id ∧
    c.id = p.listener.id ∧ Text.readAll (c.item.taken ++ f.pending) = s.said.map Text.mk

/-- What a step adds: the texts that were sent arrive at the listeners, and the watcher gets a
record for whatever was logged. -/
structure Conveys (k : Cast μ) (s t : Scene μ) : Prop where
  texts : ∃ more, t.said = s.said ++ more ∧
    ∀ p ∈ k.seats, Text.readAll (s.parcels t p.listener.id) = more.map Text.mk
  talker : ∃ more, t.uttered = s.uttered ++ more ∧ (∀ text ∈ more, k.Fits text) ∧
    Record.under k.talker.name (s.parcels t k.watcher) = more.map (Record.saying k.talker)
  lines : ∀ p ∈ k.seats, ∃ more, t.linesOf p.listener.id = s.linesOf p.listener.id ++ more ∧
    Record.under p.node.name (s.parcels t k.watcher) =
      more.map fun line => Record.saying p.node line.text

/-- Nothing is said in the name of the cast: no text goes out to its listeners, nothing that
reads as a record under one of its names goes out to the watcher, and nothing is logged for
its listeners. -/
structure Unheard (k : Cast μ) (s t : Scene μ) : Prop where
  texts : ∀ p ∈ k.seats, s.parcels t p.listener.id = []
  records : ∀ node ∈ k.nodes, Record.under node.name (s.parcels t k.watcher) = []
  lines : ∀ p ∈ k.seats, t.linesOf p.listener.id = s.linesOf p.listener.id

variable {k : Cast μ} {s t : Scene μ} {p q : Seat}

theorem mem_nodes (hp : p ∈ k.seats) : p.node ∈ k.nodes :=
  List.mem_cons_of_mem _ (List.mem_map_of_mem hp)

theorem talker_mem_nodes (k : Cast μ) : k.talker ∈ k.nodes := List.mem_cons_self ..

theorem mem_queues (hp : p ∈ k.seats) : p.listener.id ∈ k.queues :=
  List.mem_cons_of_mem _ (List.mem_map_of_mem hp)

/-- The watcher's subscription is what it was, whatever has gone out to it. -/
theorem Watches.later {c : Grant (Intake (Arrival μ))} (h : k.Watches c) (more : List Letter)
    (taken : List Bytes) (heard : List (Arrival μ)) : k.Watches (c.later more taken heard) := by
  obtain ⟨capacity, window, _, _, hitem⟩ := h.item
  refine ⟨h.id, h.topic, capacity, window ++ more, taken, heard, ?_⟩
  show ({ c.item with window := c.item.window ++ more, taken, heard } : Intake (Arrival μ)) = _
  rw [hitem]

theorem talks_steps (h : k.Talks s.ledger) (hsteps : s.audit.Steps t.audit) :
    k.Talks t.ledger := by
  refine ⟨?_, h.type⟩
  exact Audit.Steps.preserve (P := fun a => _ ∈ a.ledger.publications) hsteps
    Audit.publications_beat h.granted

/-- A queue that has room for what arrives has given or still holds just that, behind what it
had given or held before. -/
theorem Follows.prolonged (h : k.Follows s) (hsteps : s.audit.Steps t.audit)
    {c : Grant (Intake (Arrival μ))} (hc : c ∈ s.ledger.subscriptions) {f : Feed (Arrival μ)}
    (hf : f ∈ s.world.net.feeds) (hid : f.id = c.id)
    (hroom : f.HasRoom (s.parcels t c.id).length) :
    ∃ more taken heard, c.later more taken heard ∈ t.ledger.subscriptions ∧
      ∃ f' ∈ t.world.net.feeds, f'.id = c.id ∧
        taken ++ f'.pending = c.item.taken ++ f.pending ++ s.parcels t c.id := by
  obtain ⟨c', hc', f', hf', hid', hlater⟩ := Audit.prolongs_steps h.sound.audit hsteps hc hf hid
  unfold Scene.parcels at hroom
  rw [List.length_map] at hroom
  have hwhole := hlater.whole hroom
  obtain ⟨taken, heard, rfl⟩ := hlater.grant
  exact ⟨_, taken, heard, hc', f', hf', hid', hwhole⟩

/-- **What a step conveys is enough.** The queues had room for all that arrived, so they
go on with just that. -/
theorem Conveys.follows (h : k.Follows s) (hstep : Audience.Step s.toAudience t.toAudience)
    (hplace : k.InPlace t.toAudience)
    (hroom : ∀ id ∈ k.queues, ∀ f ∈ s.world.net.feeds, f.id = id →
      f.HasRoom (s.parcels t id).length)
    (hc : k.Conveys s t) : k.Follows t := by
  have hsteps := Audience.steps_step h.sound.audit h.sound.orderly hstep
  obtain ⟨more, hsaid, htexts⟩ := hc.texts
  obtain ⟨uttered, huttered, hfits, hrecords⟩ := hc.talker
  refine ⟨h.sound.step hstep, Audience.told_step h.sound h.told hstep, hplace, h.apart,
    talks_steps h.talker hsteps, ?_, fun p hp => ?_, fun p hp => ?_, ?_, fun p hp => ?_⟩
  · rw [huttered]
    intro text htext
    exact (List.mem_append.mp htext).elim (h.fits text) (hfits text)
  · obtain ⟨i, hi, hlistener⟩ := h.seated p hp
    obtain ⟨-, -, hflow⟩ := h.sound.steps (.single hstep)
    obtain ⟨j, hj, hij⟩ := hflow i hi
    exact ⟨j, hj, hij.listener.trans hlistener⟩
  · exact Audience.spins_step h.sound.orderly (h.spins p hp) (h.place.spinning p hp) hstep
  · obtain ⟨c, hmem, f, hf, hid, hwatches, htalker, hlisteners⟩ := h.watcher
    obtain ⟨letters, taken, heard, hmem', f', hf', hid', hwhole⟩ := h.prolonged hsteps hmem hf hid
      (hroom c.id (hwatches.id ▸ List.mem_cons_self ..) f hf hid)
    rw [hwatches.id] at hwhole
    refine ⟨_, hmem', f', hf', hid', hwatches.later letters taken heard, ?_, fun p hp => ?_⟩
    · show Record.under k.talker.name (taken ++ f'.pending) = _
      rw [hwhole, Record.under_append, htalker, huttered, List.map_append, hrecords]
    · obtain ⟨lines, hlines, hunder⟩ := hc.lines p hp
      show Record.under p.node.name (taken ++ f'.pending) = _
      rw [hwhole, Record.under_append, hlisteners p hp, hlines, List.map_append, hunder]
  · obtain ⟨c, hmem, f, hf, hid, hcid, hread⟩ := h.texts p hp
    obtain ⟨letters, taken, heard, hmem', f', hf', hid', hwhole⟩ := h.prolonged hsteps hmem hf hid
      (hroom c.id (hcid ▸ mem_queues hp) f hf hid)
    refine ⟨_, hmem', f', hf', hid', hcid, ?_⟩
    show Text.readAll (taken ++ f'.pending) = _
    rw [hwhole, Text.readAll_append, hread, hsaid, List.map_append, hcid, htexts p hp]

/-! ## The listeners and their queues -/

/-- Nodes that are up are told apart by their names. -/
theorem Follows.live_inj (h : k.Follows s) {m n : Node} (hm : m ∈ s.ledger.live)
    (hn : n ∈ s.ledger.live) (hname : m.name = n.name) : m = n := by
  have hexact := h.sound.audit.sound.exact
  have hnames := hexact.nodeNames
  rw [hexact.nodes] at hnames
  exact List.inj_on_of_nodup_map hnames hm hn hname

/-- So are those of the cast. -/
theorem Follows.name_inj (h : k.Follows s) {m n : Node} (hm : m ∈ k.nodes) (hn : n ∈ k.nodes)
    (hname : m.name = n.name) : m = n :=
  h.live_inj (h.place.alive m hm) (h.place.alive n hn) hname

/-- The talker is no listener. -/
theorem Follows.talker_ne (h : k.Follows s) (hp : p ∈ k.seats) : k.talker ≠ p.node := by
  have hapart := h.apart
  unfold nodes at hapart
  rw [List.map_cons, List.nodup_cons] at hapart
  intro hsame
  exact hapart.1 (hsame ▸ List.mem_map_of_mem (List.mem_map_of_mem hp))

/-- On each node there is one listener. -/
theorem Follows.seat_inj (h : k.Follows s) (hp : p ∈ k.seats) (hq : q ∈ k.seats)
    (hnode : p.node = q.node) : p = q := by
  have hapart := h.apart
  unfold nodes at hapart
  rw [List.map_cons, List.nodup_cons, List.map_map] at hapart
  exact List.inj_on_of_nodup_map hapart.2 hp hq (congrArg Node.id hnode)

/-- A listener's inbox, with the subscription it belongs to. -/
structure Seated (s : Scene μ) (p : Seat) (i : Inbox) (c : Grant (Intake (Arrival μ))) : Prop
    extends Audience.Belongs s.toAudience i c where
  inbox : i ∈ s.world.inboxes
  listener : i.listener = p.listener
  opened : s.ledger.isOpen c = true

theorem Seated.id_eq {i : Inbox} {c : Grant (Intake (Arrival μ))} (h : Seated s p i c) :
    c.id = p.listener.id := h.toBelongs.id_eq.trans (congrArg Listener.id h.listener)

theorem Seated.node_eq {i : Inbox} {c : Grant (Intake (Arrival μ))} (h : Seated s p i c) :
    c.node = p.node := by
  have hname := h.name
  have hlogger := h.logger
  rw [h.listener] at hname hlogger
  cases hnode : c.node with
  | mk id name =>
    rw [hnode] at hname hlogger
    exact congrArg₂ Node.mk (congrArg Logger.node hlogger).symm hname.symm

theorem Seated.target_eq {i : Inbox} {c : Grant (Intake (Arrival μ))} (h : Seated s p i c) :
    c.target = "/chatter" := by
  unfold Grant.target
  rw [h.topic]
  rfl

theorem Follows.exists_seated (h : k.Follows s) (hp : p ∈ k.seats) : ∃ i c, Seated s p i c := by
  obtain ⟨i, hi, hlistener⟩ := h.seated p hp
  obtain ⟨c, hc⟩ := (h.sound.attends i hi).belongs
  refine ⟨i, c, hc, hi, hlistener, h.place.subscribed c hc.granted ?_⟩
  rw [hc.id_eq, hlistener]
  exact mem_queues hp

/-- Listeners are told apart by their numbers. -/
theorem Follows.listener_inj (h : k.Follows s) (hp : p ∈ k.seats) (hq : q ∈ k.seats)
    (hid : p.listener.id = q.listener.id) : p = q := by
  obtain ⟨i, c, hc⟩ := h.exists_seated hp
  obtain ⟨j, d, hd⟩ := h.exists_seated hq
  have hcd : c = d := h.sound.audit.sound.numbered.subscription_inj hc.granted hd.granted
    (hc.id_eq.trans (hid.trans hd.id_eq.symm))
  exact h.seat_inj hp hq (hc.node_eq.symm.trans ((congrArg Grant.node hcd).trans hd.node_eq))

/-- **Nothing is lost on the way to a listener's log, and nothing overtakes.** What has been
sent is what it has logged, then what is in hand, then what waits in the inbox, and then what
can be read of what its thread holds and of what is still queued. -/
theorem Follows.conserved (h : k.Follows s) (hp : p ∈ k.seats) :
    ∃ i c, Seated s p i c ∧ ∃ f ∈ s.world.net.feeds, f.id = p.listener.id ∧ ∃ texts : List Text,
      s.linesOf p.listener.id = texts.map p.node.line ∧
      s.said.map Text.mk = texts ++ s.handOf p.listener.id ++ i.texts.items ++
        Text.readAll (f.held.toList ++ f.pending) := by
  obtain ⟨i, c, hc⟩ := h.exists_seated hp
  obtain ⟨d, hd, f, hf, hid, hdid, hread⟩ := h.texts p hp
  have hdc : d = c := h.sound.audit.sound.numbered.subscription_inj hd hc.granted
    (hdid.trans hc.id_eq.symm)
  subst hdc
  obtain ⟨texts, hlines, hheard⟩ := (h.sound.attends i hc.inbox).said
  rw [hc.toBelongs.line, hc.node_eq] at hlines
  rw [hc.listener] at hlines hheard
  obtain ⟨done, htaken, hdone⟩ := (h.sound.audit.fed.serves d hd f hf hid).heard
  rw [← hdid] at hheard
  have hall := Audit.hearing_inj h.sound.audit (Ledger.exists_hearing hd) hheard
  rw [hdone, hc.toBelongs.readAll] at hall
  refine ⟨i, d, hc, f, hf, hid.trans hdid, texts, hlines, ?_⟩
  rw [← hread, htaken, List.append_assoc, Text.readAll_append,
    Audience.chatter_injective.list_map hall, hdid]

/-- What a listener has in hand has been sent, and so it fits. -/
theorem Follows.fits_hand (h : k.Follows s) (hp : p ∈ k.seats) {text : Text}
    (htext : text ∈ s.handOf p.listener.id) : k.Fits text.data := by
  obtain ⟨i, c, -, f, -, -, texts, -, hsaid⟩ := h.conserved hp
  have hmem : text ∈ s.said.map Text.mk := by
    rw [hsaid]
    exact List.mem_append_left _ (List.mem_append_left _ (List.mem_append_right _ htext))
  obtain ⟨data, hdata, rfl⟩ := List.mem_map.mp hmem
  exact h.fits data (List.mem_append_left _ hdata)

/-! ## What each act conveys -/

theorem Watches.target_eq {c : Grant (Intake (Arrival μ))} (h : k.Watches c) :
    c.target = Record.topic := by
  unfold Grant.target
  rw [h.topic]
  rfl

/-- The watcher wants records, and so the topic carries them. -/
theorem Follows.carries (h : k.Follows s) :
    s.world.net.carries Record.topic Record.type.md5 = true := by
  obtain ⟨c, hc, -, -, -, hwatches, -⟩ := h.watcher
  have hsound := h.sound.audit.sound
  have hopen := h.place.subscribed c hc (hwatches.id ▸ List.mem_cons_self ..)
  obtain ⟨t, ht, hname⟩ := Audit.exists_topic_of_subscription hsound hc hopen
  obtain ⟨t', ht'⟩ := Option.isSome_iff_exists.mp (Graph.topic?_isSome ht)
  rw [hname, hwatches.target_eq] at ht'
  obtain ⟨hmem, hname'⟩ := mem_of_find?_topic ht'
  have hsum := h.sound.audit.typed.subscriptions t' hmem c hc hopen
    (hwatches.target_eq.trans hname'.symm)
  obtain ⟨capacity, window, taken, heard, hitem⟩ := hwatches.item
  rw [hitem] at hsum
  show (s.audit.graph.topic? Record.topic).any _ = true
  rw [ht']
  exact decide_eq_true hsum.symm

/-- What arrives when one letter has gone out. -/
theorem parcels_single {c : Grant (Intake (Arrival μ))} (hs : Sound s.audit)
    (hc : c ∈ s.ledger.subscriptions) (hopen : s.ledger.isOpen c = true) {letter : Letter}
    (ht : t.ledger = [letter].foldl Ledger.post s.ledger) :
    s.parcels t c.id = if letter.topic = c.target then [letter.payload] else [] := by
  rw [Scene.parcels_posts hs hc hopen ht]
  split
  next htopic =>
    rw [List.filter_singleton, decide_eq_true htopic]
    rfl
  next hother =>
    rw [List.filter_singleton, decide_eq_false hother]
    rfl

/-- When a node logs, the watcher gets the record and the listeners get nothing. -/
theorem Follows.parcels_logged (h : k.Follows s) {node : Node} (hlive : node ∈ s.ledger.live)
    {entry : Entry} (ht : t.ledger = (s.world.net.logLetters ⟨node.id, node.name⟩ entry).foldl
      Ledger.post s.ledger) :
    (∀ p ∈ k.seats, s.parcels t p.listener.id = []) ∧
    s.parcels t k.watcher =
      [framed (Record.codec.encode (Graph.record ⟨node.id, node.name⟩ entry))] := by
  have hsound := h.sound.audit.sound
  have halive : s.world.net.isAlive node.id = true :=
    hsound.isAlive_iff.mpr ⟨node, hlive, rfl⟩
  obtain ⟨letter, hletters, htopic, hpayload⟩ :=
    Graph.logLetters_of_alive ⟨node.id, node.name⟩ halive h.carries entry
  rw [hletters] at ht
  refine ⟨fun p hp => ?_, ?_⟩
  · obtain ⟨i, c, hc⟩ := h.exists_seated hp
    rw [← hc.id_eq, parcels_single hsound hc.granted hc.opened ht, htopic, hc.target_eq]
    exact if_neg (by decide)
  · obtain ⟨c, hc, -, -, -, hwatches, -⟩ := h.watcher
    have hopen := h.place.subscribed c hc (hwatches.id ▸ List.mem_cons_self ..)
    rw [← hwatches.id, parcels_single hsound hc hopen ht, htopic, hwatches.target_eq,
      if_pos rfl, hpayload]

/-- If the record fits, it is read under the name of the node. -/
theorem Follows.logged (h : k.Follows s) {node : Node} (hlive : node ∈ s.ledger.live)
    {entry : Entry} (hfits : (Graph.record ⟨node.id, node.name⟩ entry).Fits)
    (ht : t.ledger = (s.world.net.logLetters ⟨node.id, node.name⟩ entry).foldl
      Ledger.post s.ledger) :
    (∀ p ∈ k.seats, s.parcels t p.listener.id = []) ∧
    ∀ name, Record.under name (s.parcels t k.watcher) =
      if node.name = name then [Graph.record ⟨node.id, node.name⟩ entry] else [] := by
  obtain ⟨hquiet, hparcels⟩ := h.parcels_logged hlive ht
  refine ⟨hquiet, fun name => ?_⟩
  rw [hparcels]
  exact Record.under_framed hfits name

theorem Follows.conveys_log (h : k.Follows s) {text : String} (hidle : s.midway = none)
    (hfits : k.Fits text) : k.Conveys s (k.logs s text) := by
  have hrecord : (Graph.record ⟨k.talker.id, k.talker.name⟩ (.info text)).Fits :=
    Record.saying_fits (hfits.names _ (talker_mem_nodes k)) hfits.length
  obtain ⟨hquiet, hunder⟩ :=
    h.logged (h.place.alive _ (talker_mem_nodes k)) hrecord (t := k.logs s text) rfl
  refine ⟨⟨[], (List.append_nil _).symm, fun p hp => ?_⟩, ⟨[text], ?_, ?_, ?_⟩, fun p hp => ?_⟩
  · rw [hquiet p hp]
    rfl
  · unfold Scene.uttered
    rw [hidle]
    exact congrArg (· ++ [text]) (List.append_nil _).symm
  · intro other hother
    rw [List.mem_singleton.mp hother]
    exact hfits
  · rw [hunder, if_pos rfl]
    rfl
  · -- the record is under another name than the listener's
    refine ⟨[], (List.append_nil _).symm, ?_⟩
    rw [hunder, if_neg fun hname =>
      h.talker_ne hp (h.name_inj (talker_mem_nodes k) (mem_nodes hp) hname)]
    rfl

/-- The talker's publisher is on the topic of the listeners, and ready to send. -/
theorem Follows.publisher (h : k.Follows s) :
    k.publisher.topic = "/chatter" ∧ s.world.net.isAlive k.publisher.node = true ∧
      (s.world.net.topic? k.publisher.topic).isSome = true := by
  have hsound := h.sound.audit.sound
  have hgranted := h.talker.granted
  obtain ⟨-, hnode, htarget⟩ := hsound.coherent.publication _ hgranted
  have hresolved : k.grant.target = "/chatter" := by
    show Name.resolve k.talker.name Talker.topic = _
    rfl
  have hopen := h.place.publishing _ hgranted rfl
  obtain ⟨t, ht, hname⟩ := Audit.exists_topic_of_publication hsound hgranted hopen
  refine ⟨htarget.trans hresolved, ?_, ?_⟩
  · exact hsound.isAlive_iff.mpr ⟨k.talker, h.place.alive _ (talker_mem_nodes k), hnode.symm⟩
  · rw [show k.publisher.topic = t.name from htarget.trans hname.symm]
    exact Graph.topic?_isSome ht

theorem Talks.pack {l : Ledger (Arrival μ)} (h : k.Talks l) (text : Text) :
    k.publisher.type.pack text = .ok (framed (Text.codec.encode text)) := by
  rw [h.type]
  rfl

theorem Follows.conveys_send (h : k.Follows s) {text : String} (hlogged : s.midway = some text) :
    k.Conveys s (k.sends s text) := by
  have hsound := h.sound.audit.sound
  have huttered : s.uttered = s.said ++ [text] := by
    unfold Scene.uttered
    rw [hlogged]
    rfl
  have hfits : k.Fits text :=
    h.fits text (huttered ▸ List.mem_append_right _ (List.mem_singleton_self _))
  obtain ⟨htopic, halive, hfound⟩ := h.publisher
  have hpack := h.talker.pack ⟨text⟩
  have hledger : (k.sends s text).ledger =
      [⟨k.publisher.type, ⟨text⟩, k.publisher.topic, _, hpack⟩].foldl Ledger.post s.ledger := by
    show (s.world.net.sendLetters k.publisher ⟨text⟩).foldl Ledger.post s.ledger = _
    rw [Audit.sendLetters_of_ok hpack, halive, hfound]
    rfl
  obtain ⟨c, hc, -, -, -, hwatches, -⟩ := h.watcher
  have hopen := h.place.subscribed c hc (hwatches.id ▸ List.mem_cons_self ..)
  have hunseen : s.parcels (k.sends s text) k.watcher = [] := by
    rw [← hwatches.id, parcels_single hsound hc hopen hledger, hwatches.target_eq]
    exact if_neg fun hsame => absurd (htopic.symm.trans hsame) (by decide)
  refine ⟨⟨[text], rfl, fun p hp => ?_⟩, ⟨[], ?_, nofun, ?_⟩, fun p hp => ⟨[], ?_, ?_⟩⟩
  · obtain ⟨i, d, hd⟩ := h.exists_seated hp
    rw [← hd.id_eq, parcels_single hsound hd.granted hd.opened hledger, hd.target_eq,
      if_pos htopic]
    exact Text.readAll_framed hfits.length
  · rw [huttered, List.append_nil]
    exact List.append_nil _
  · rw [hunseen]
    rfl
  · exact (List.append_nil _).symm
  · rw [hunseen]
    rfl

theorem Unheard.conveys {v : Audience μ} (h : k.Unheard s { s with toAudience := v }) :
    k.Conveys s { s with toAudience := v } := by
  refine ⟨⟨[], (List.append_nil _).symm, fun p hp => ?_⟩,
    ⟨[], (List.append_nil _).symm, nofun, h.records _ (talker_mem_nodes k)⟩,
    fun p hp => ⟨[], ?_, h.records _ (mem_nodes hp)⟩⟩
  · rw [h.texts p hp]
    rfl
  · exact (h.lines p hp).trans (List.append_nil _).symm

/-- Where nothing goes out nothing is heard. -/
theorem unheard_of_quiet {v : Audience μ}
    (hwindows : ∀ id, v.ledger.windowOf id = s.ledger.windowOf id)
    (hlines : ∀ p ∈ k.seats, v.linesOf p.listener.id = s.linesOf p.listener.id) :
    k.Unheard s { s with toAudience := v } := by
  have hnone : ∀ id, s.parcels { s with toAudience := v } id = [] :=
    fun id => Scene.parcels_eq_nil (hwindows id)
  refine ⟨fun p _ => hnone _, fun node _ => ?_, hlines⟩
  rw [hnone]
  rfl

/-- A loop that has nothing in hand logs nothing. -/
theorem unheard_of_asking {loop : Loop} {i : Inbox} {stage : Killable.Stage} {n : Nat}
    {w : World (Graph (Arrival μ)) μ} (hjob : loop.job = .listen i.listener (.asking stage) n)
    (hturned : World.Turned s.world loop i n (.asking stage) w) :
    k.Unheard s { s with toAudience := s.proceed loop w } := by
  have hledger : (s.proceed loop w).ledger = s.ledger := by
    unfold Audience.proceed Audience.letters
    rw [hjob]
    rfl
  refine unheard_of_quiet (fun id => congrArg (·.windowOf id) hledger) fun p _ => ?_
  refine (Audience.linesOf_proceed hjob hturned _).trans ?_
  rw [hjob]
  split <;> exact List.append_nil _

/-- Nothing is heard in the name of the cast when another node logs. If that is up it goes by
another name, and otherwise nothing goes out. -/
theorem Follows.unheard_of_logged (h : k.Follows s) {v : Audience μ} {node : Node}
    (hnode : node ∈ s.ledger.nodes) (hother : node ∉ k.nodes) (hcount : Countable node.name)
    {entry : Entry} (hledger : v.ledger = (s.world.net.logLetters ⟨node.id, node.name⟩ entry).foldl
      Ledger.post s.ledger)
    (hlines : ∀ p ∈ k.seats, v.linesOf p.listener.id = s.linesOf p.listener.id) :
    k.Unheard s { s with toAudience := v } := by
  have hsound := h.sound.audit.sound
  by_cases hlive : node ∈ s.ledger.live
  · obtain ⟨hquiet, hparcels⟩ := h.parcels_logged hlive (t := { s with toAudience := v }) hledger
    refine ⟨hquiet, fun n hn => ?_, hlines⟩
    have hempty : Countable "" := by decide
    rw [hparcels]
    exact Record.under_framed_of_ne hempty hcount fun hname =>
      hother (h.live_inj hlive (h.place.alive n hn) hname ▸ hn)
  · have hdown : s.world.net.isAlive node.id = false := by
      rw [Bool.eq_false_iff]
      intro halive
      obtain ⟨n, hn, hid⟩ := hsound.isAlive_iff.mp halive
      have hsame := hsound.numbered.node_inj (Ledger.mem_live.mp hn).1 hnode hid
      exact hlive (hsame ▸ hn)
    rw [Graph.logLetters_of_not_alive hdown] at hledger
    exact unheard_of_quiet (fun id => congrArg (·.windowOf id) hledger) hlines

/-- Publishers of others have nothing to do with what the cast is subscribed to. -/
theorem Follows.unheard_of_sent (h : k.Follows s) {c : Grant Outlet} {message : c.item.α}
    (hc : c ∈ s.ledger.publications) (hheld : c.id ∉ s.ledger.dropped)
    (hother : c.id ≠ k.publisher.id) :
    k.Unheard s { s with toWatch := s.use (s.audit.send c.item.publisher message) } := by
  have hsound := h.sound.audit.sound
  obtain ⟨-, hnode, htopic⟩ := hsound.coherent.publication c hc
  have hletters : ∀ letter ∈ s.world.net.sendLetters c.item.publisher message,
      letter.topic ≠ k.publisher.topic ∧ letter.topic ≠ Record.topic := by
    intro letter hletter
    obtain ⟨hsent, halive⟩ := Graph.mem_sendLetters hletter
    obtain ⟨n, hn, hid⟩ := hsound.isAlive_iff.mp halive
    have hopen : s.ledger.isOpen c = true :=
      Ledger.isOpen_iff.mpr ⟨hheld, (hid.trans hnode) ▸ (Ledger.mem_live.mp hn).2⟩
    rw [hsent, htopic]
    exact ⟨fun hsame => hother (h.place.alone c hc hopen hsame), h.place.unforged c hc hopen⟩
  -- so of what goes out nothing arrives where it matters
  have hnone : ∀ d ∈ s.ledger.subscriptions, s.ledger.isOpen d = true →
      d.target = k.publisher.topic ∨ d.target = Record.topic →
      s.parcels { s with toWatch := s.use (s.audit.send c.item.publisher message) } d.id = [] := by
    intro d hd hopen htarget
    have hparcels := Scene.parcels_posts hsound hd hopen
      (t := { s with toWatch := s.use (s.audit.send c.item.publisher message) }) rfl
    rw [hparcels]
    refine List.map_eq_nil_iff.mpr (List.filter_eq_nil_iff.mpr fun letter hletter hsame => ?_)
    have hsame := of_decide_eq_true hsame
    rcases htarget with htarget | htarget
    · exact (hletters letter hletter).1 (hsame.trans htarget)
    · exact (hletters letter hletter).2 (hsame.trans htarget)
  refine ⟨fun p hp => ?_, fun node _ => ?_, fun _ _ => rfl⟩
  · obtain ⟨i, d, hd⟩ := h.exists_seated hp
    rw [← hd.id_eq]
    exact hnone d hd.granted hd.opened (.inl (hd.target_eq.trans h.publisher.1.symm))
  · obtain ⟨d, hd, -, -, -, hwatches, -⟩ := h.watcher
    have hopen := h.place.subscribed d hd (hwatches.id ▸ List.mem_cons_self ..)
    rw [← hwatches.id, hnone d hd hopen (.inr hwatches.target_eq)]
    rfl

theorem Follows.unheard_of_turn (h : k.Follows s) {loop : Loop} (hloop : loop ∈ s.world.loops)
    {listener : Listener} {hearing : Hearing} {n : Nat}
    (hjob : loop.job = .listen listener hearing n)
    (hother : ∀ node ∈ k.nodes, listener.logger.node ≠ node.id)
    (hcount : Countable listener.logger.name) {w : World (Graph (Arrival μ)) μ} (hw : w ∈ s.world.turns loop) :
    k.Unheard s { s with toAudience := s.proceed loop w } := by
  obtain ⟨i, hi, hearing', hjob', hturned⟩ := h.sound.orderly.turned hloop hw
  have hown : listener = i.listener ∧ hearing = hearing' := by
    rw [hjob] at hjob'
    injection hjob' with hl hh
    exact ⟨hl, hh⟩
  obtain ⟨rfl, rfl⟩ := hown
  cases hearing with
  | asking stage => exact unheard_of_asking hjob' hturned
  | taken text =>
    obtain ⟨c, hc⟩ := (h.sound.attends i hi).belongs
    have hledger : (s.proceed loop w).ledger =
        (s.world.net.logLetters i.listener.logger (.info (Listener.heard i.listener.name
          text.data))).foldl Ledger.post s.ledger := by
      unfold Audience.proceed Audience.letters
      rw [hjob]
    rw [hc.logger] at hcount hledger
    refine h.unheard_of_logged hc.node (fun hnode => hother _ hnode (congrArg Logger.node hc.logger))
      hcount hledger fun p hp => ?_
    refine (Audience.linesOf_proceed hjob' hturned _).trans ?_
    rw [if_neg, List.append_nil]
    intro hid
    -- a listener of the same number would be the one of the cast, and log for its node
    obtain ⟨j, d, hd⟩ := h.exists_seated hp
    have hij := h.sound.orderly.inbox_inj hi hd.inbox
      (hid.symm.trans (congrArg Listener.id hd.listener).symm)
    have hlistener : i.listener = p.listener := hij ▸ hd.listener
    exact hother p.node (mem_nodes hp) (congrArg (·.logger.node) hlistener)

/-- What the loop of a listener has in hand is a text for that listener. -/
theorem Follows.own_hand (h : k.Follows s) (hp : p ∈ k.seats) {loop : Loop}
    (hloop : loop ∈ s.world.loops) (hown : loop.id = p.loop) {i : Inbox}
    (hi : i ∈ s.world.inboxes) {text : Text} {n : Nat}
    (hjob : loop.job = .listen i.listener (.taken text) n) :
    i.listener = p.listener ∧ k.Fits text.data := by
  have hear := (h.spins p hp).ear loop hloop hown
  have hself : loop.ear = some i.listener.id := by
    unfold Loop.ear
    rw [hjob]
  obtain ⟨j, c, hc⟩ := h.exists_seated hp
  have hij : i = j := h.sound.orderly.inbox_inj hi hc.inbox
    (Option.some.inj (hself.symm.trans (hear.trans (congrArg (some ·.id) hc.listener.symm))))
  refine ⟨hij ▸ hc.listener, h.fits_hand hp ?_⟩
  unfold Audience.handOf
  rw [Loop.hands_of_mem h.sound.orderly.ears hloop hear, hjob]
  exact List.mem_singleton_self _

theorem Follows.conveys_turn (h : k.Follows s) (hp : p ∈ k.seats) {loop : Loop}
    (hloop : loop ∈ s.world.loops) (hown : loop.id = p.loop)
    {w : World (Graph (Arrival μ)) μ} (hw : w ∈ s.world.turns loop) :
    k.Conveys s { s with toAudience := s.proceed loop w } := by
  obtain ⟨j, hj, hearing, hjob, hturned⟩ := h.sound.orderly.turned hloop hw
  cases hearing with
  | asking stage => exact (unheard_of_asking hjob hturned).conveys
  | taken text =>
    obtain ⟨hlistener, hfits⟩ := h.own_hand hp hloop hown hj hjob
    have hhand : loop.job.hand = [text] := by
      rw [hjob]
      rfl
    have hledger : (s.proceed loop w).ledger = (s.world.net.logLetters ⟨p.node.id, p.node.name⟩
        (.info (Listener.heard p.node.name text.data))).foldl Ledger.post s.ledger := by
      unfold Audience.proceed Audience.letters
      rw [hjob, hlistener]
      rfl
    have hlines := fun id => Audience.linesOf_proceed hjob hturned id
    have hrecord : (Graph.record ⟨p.node.id, p.node.name⟩
        (.info (Listener.heard p.node.name text.data))).Fits :=
      Record.saying_fits (hfits.names _ (mem_nodes hp)) (hfits.heard p hp)
    obtain ⟨hquiet, hunder⟩ := h.logged (h.place.alive _ (mem_nodes hp)) hrecord
      (t := { s with toAudience := s.proceed loop w }) hledger
    refine ⟨⟨[], (List.append_nil _).symm, fun q hq => ?_⟩,
      ⟨[], (List.append_nil _).symm, nofun, ?_⟩, fun q hq => ?_⟩
    · rw [hquiet q hq]
      rfl
    · rw [hunder, if_neg fun hname =>
        h.talker_ne hp (h.name_inj (mem_nodes hp) (talker_mem_nodes k) hname).symm]
      rfl
    · refine ⟨_, hlines q.listener.id, ?_⟩
      rw [hunder, hhand, hlistener]
      by_cases hpq : p = q
      · subst hpq
        rw [if_pos rfl, if_pos rfl]
        rfl
      · rw [if_neg fun hid => hpq (h.listener_inj hq hp hid).symm, if_neg fun hname =>
          hpq (h.seat_inj hp hq (h.name_inj (mem_nodes hp) (mem_nodes hq) hname))]
        rfl

/-- **Whatever others do, nothing is said in the name of the cast.** -/
theorem Follows.unheard (h : k.Follows s) {v : Audience μ} (haside : k.Aside s v) :
    k.Unheard s { s with toAudience := v } := by
  cases haside with
  | log node hnode hother hcount entry =>
    exact h.unheard_of_logged hnode hother hcount rfl fun _ _ => rfl
  | send c message hc hheld hother => exact h.unheard_of_sent hc hheld hother
  | turn loop hloop listener hearing n hjob hother hcount w hw =>
    exact h.unheard_of_turn hloop hjob hother hcount hw
  | quiet v hstep hwindows hlogged =>
    refine unheard_of_quiet hwindows fun p _ => ?_
    unfold Audience.linesOf
    rw [hlogged]

/-- What others do is what an audience may do. -/
theorem Aside.step {v : Audience μ} (h : k.Aside s v) : Audience.Step s.toAudience v := by
  cases h with
  | log node hnode hother entry => exact .operation _ (.log _ _ _)
  | send c message hc hheld => exact .operation _ (.send _ c message hc hheld)
  | turn loop hloop listener hearing n hjob hother hcount w hw => exact .turn _ loop hloop w hw
  | quiet v hstep => exact hstep

/-- **Whatever is said is conveyed.** -/
theorem Follows.conveys (h : k.Follows s) (hact : k.Act s t) : k.Conveys s t := by
  cases hact with
  | log text hidle hfits => exact h.conveys_log hidle hfits
  | send text hlogged => exact h.conveys_send hlogged
  | turn p hp loop hloop hown w hw => exact h.conveys_turn hp hloop hown hw
  | aside v haside => exact (h.unheard haside).conveys

/-- Every act is something that an audience may do. -/
theorem Follows.step_of_act (h : k.Follows s) (hact : k.Act s t) :
    Audience.Step s.toAudience t.toAudience := by
  cases hact with
  | log text => exact .operation _ (.log _ _ _)
  | send text =>
    have hopen := h.place.publishing _ h.talker.granted rfl
    exact .operation _ (.send _ k.grant ⟨text⟩ h.talker.granted (Ledger.isOpen_iff.mp hopen).1)
  | turn p hp loop hloop hown w hw => exact .turn _ loop hloop w hw
  | aside v haside => exact haside.step

/-- **A scene goes on as it began.** -/
theorem follows_step (h : k.Follows s) (hstep : k.Step s t) : k.Follows t :=
  (h.conveys hstep.act).follows h (h.step_of_act hstep.act) hstep.place hstep.room

theorem follows_steps (h : k.Follows s) (hsteps : k.Steps s t) : k.Follows t := by
  induction hsteps with
  | refl => exact h
  | tail _ hstep ih => exact follows_step ih hstep

end Cast

end NodeGraph
