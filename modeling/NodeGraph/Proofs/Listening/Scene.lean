import NodeGraph.Proofs.Addition.Sums
import NodeGraph.Proofs.Delivery.Room
import NodeGraph.Proofs.Listening.Logged

/-!
# A talker, listeners and a watcher

A `Cast` is a talker with listeners, each on a node of its own and with a loop that spins
on it, and somebody who watches the topic of records. A `Scene` is an audience in which a
cast plays, with all that the talker has said so far.

A `Step` is one of four acts: the talker logs a text, it sends the text it has logged, the
loop of a listener goes on, or anybody else does whatever an audience may do (`Aside`). Nodes that
are not of the cast may log and send what they like, but they have no publishers on the topic of
the talker, which would be a second talker, nor on the topic of records, where they could say
anything in anybody's name. Nobody of the cast leaves, and no queue of theirs gets more than it
has room for. `Opening` is how the scene begins and `Rests` how it is once all that was pending
has been delivered and heard.

> `Voices`: the talker's two acts are what saying a text is, and a round of a talker that spins is
> to say the next greeting. It is never refused.
>
> `told_step`: whatever an audience does, subscribers receive what they are handed.
-/

namespace NodeGraph

open Wire (Bytes Countable)

variable {μ : Type}

/-! ## The cast -/

/-- A listener with the loop that spins on it. -/
structure Seat where
  node : Node
  subscription : Registration
  loop : Nat

/-- The listener itself, as its node made it. -/
def Seat.listener (p : Seat) : Listener := ⟨p.node.name, ⟨p.node.id, p.node.name⟩, p.subscription⟩

/-- A talker, its listeners and a watcher, who goes by the number of its subscription. -/
structure Cast (μ : Type) where
  talker : Node
  publisher : Publisher Text
  seats : List Seat
  watcher : Nat
  /-- What the watcher makes of a record. -/
  report : Record → μ

namespace Cast

/-- The nodes that may be heard of. -/
def nodes (k : Cast μ) : List Node := k.talker :: k.seats.map Seat.node

/-- The subscriptions that take part. -/
def queues (k : Cast μ) : List Nat := k.watcher :: k.seats.map (·.listener.id)

/-- The right to log for the talker. -/
def logger (k : Cast μ) : Logger := ⟨k.talker.id, k.talker.name⟩

/-- The talker itself, as its node made it, after some greetings. -/
def voice (k : Cast μ) (count : Nat) : Talker := ⟨k.publisher, k.logger, count⟩

/-- Lengths that can be counted: those of the names, of a text and of what the listeners log
for it. Text that is longer than its length field can say does not travel. -/
structure Fits (k : Cast μ) (text : String) : Prop where
  names : ∀ node ∈ k.nodes, Countable node.name
  length : Countable text
  heard : ∀ p ∈ k.seats, Countable (Listener.heard p.node.name text)

instance (k : Cast μ) (text : String) : Decidable (k.Fits text) :=
  decidable_of_iff ((∀ node ∈ k.nodes, Countable node.name) ∧ Countable text ∧
      ∀ p ∈ k.seats, Countable (Listener.heard p.node.name text))
    ⟨fun h => ⟨h.1, h.2.1, h.2.2⟩, fun h => ⟨h.names, h.length, h.heard⟩⟩

end Cast

/-- The records that can be read from payloads. -/
def Record.readAll (payloads : List Bytes) : List Record :=
  payloads.filterMap fun payload => (Record.type.unpack payload).toOption

/-- The records under a name that can be read from payloads. -/
def Record.under (name : String) (payloads : List Bytes) : List Record :=
  (Record.readAll payloads).filter (·.name = name)

/-- What records under a name say: the level, the name and the text. -/
def Record.remarks (name : String) (records : List Record) : List (Level × String × String) :=
  (records.filter (·.name = name)).map fun record => (record.level, record.name, record.msg)

/-! ## Scenes -/

/-- An audience with what a talker has said: what it has sent, and what it has logged and not
sent yet. -/
structure Scene (μ : Type) extends Audience μ where
  said : List String := []
  midway : Option String := none

/-- All that the talker has logged. -/
def Scene.uttered (s : Scene μ) : List String := s.said ++ s.midway.toList

/-- The payloads that have gone out to a subscription between two moments. -/
def Scene.parcels (s t : Scene μ) (id : Nat) : List Bytes :=
  (s.audit.news t.audit id).map Letter.payload

namespace Cast

/-- Everybody is there, and nobody else spins on the listeners or publishes where the talker
does. -/
structure InPlace (k : Cast μ) (v : Audience μ) : Prop where
  alive : ∀ node ∈ k.nodes, node ∈ v.ledger.live
  subscribed : ∀ c ∈ v.ledger.subscriptions, c.id ∈ k.queues → v.ledger.isOpen c = true
  publishing : ∀ c ∈ v.ledger.publications, c.id = k.publisher.id → v.ledger.isOpen c = true
  alone : ∀ c ∈ v.ledger.publications, v.ledger.isOpen c = true →
    c.target = k.publisher.topic → c.id = k.publisher.id
  /-- Records go out by being logged only. -/
  unforged : ∀ c ∈ v.ledger.publications, v.ledger.isOpen c = true → c.target ≠ Record.topic
  spinning : ∀ p ∈ k.seats, ∀ l ∈ v.world.loops, l.ear = some p.listener.id → l.id = p.loop

/-- What others may do. Their nodes may be up or not, and log whatever they like, as long as their
names can be counted. -/
inductive Aside (k : Cast μ) (s : Scene μ) : Audience μ → Prop where
  /-- A node that is not of the cast logs an entry. -/
  | log (node : Node) (hnode : node ∈ s.ledger.nodes) (hother : node ∉ k.nodes)
    (hcount : Countable node.name) (entry : Entry) :
    Aside k s { s.toAudience with
      toWatch := s.use (s.audit.log ⟨node.id, node.name⟩ entry) }
  /-- Somebody sends a message by a publisher that is not the talker's. -/
  | send (c : Grant Outlet) (message : c.item.α) (hc : c ∈ s.ledger.publications)
    (hheld : c.id ∉ s.ledger.dropped) (hother : c.id ≠ k.publisher.id) :
    Aside k s { s.toAudience with toWatch := s.use (s.audit.send c.item.publisher message) }
  /-- A loop goes on that logs for a node that is not of the cast. -/
  | turn (loop : Loop) (hloop : loop ∈ s.world.loops) (listener : Listener) (hearing : Hearing)
    (n : Nat) (hjob : loop.job = .listen listener hearing n)
    (hother : ∀ node ∈ k.nodes, listener.logger.node ≠ node.id)
    (hcount : Countable listener.logger.name)
    (w : World (Graph (Arrival μ)) μ) (hw : w ∈ s.world.turns loop) : Aside k s (s.proceed loop w)
  /-- Anything happens by which nothing goes out to anybody and no listener logs a line. -/
  | quiet (v : Audience μ) (hstep : Audience.Step s.toAudience v)
    (hwindows : ∀ id, v.ledger.windowOf id = s.ledger.windowOf id) (hlogged : v.logged = s.logged) :
    Aside k s v

/-- The talker has logged a text. -/
def logs (k : Cast μ) (s : Scene μ) (text : String) : Scene μ :=
  { s with
    toWatch := s.use (s.audit.log k.logger (.info text))
    midway := some text }

/-- The talker has sent a text. -/
def sends (k : Cast μ) (s : Scene μ) (text : String) : Scene μ :=
  { s with
    toWatch := s.use (s.audit.send k.publisher ⟨text⟩)
    said := s.said ++ [text]
    midway := none }

/-- What may happen in a scene. -/
inductive Act (k : Cast μ) : Scene μ → Scene μ → Prop where
  /-- The talker is about to say something. -/
  | log (s : Scene μ) (text : String) (hidle : s.midway = none) (hfits : k.Fits text) :
    Act k s (k.logs s text)
  /-- The talker says it. -/
  | send (s : Scene μ) (text : String) (hlogged : s.midway = some text) : Act k s (k.sends s text)
  /-- The loop of a listener goes on. -/
  | turn (s : Scene μ) (p : Seat) (hp : p ∈ k.seats) (loop : Loop) (hloop : loop ∈ s.world.loops)
    (hown : loop.id = p.loop) (w : World (Graph (Arrival μ)) μ) (hw : w ∈ s.world.turns loop) :
    Act k s { s with toAudience := s.proceed loop w }
  /-- Somebody else does something. -/
  | aside (s : Scene μ) (v : Audience μ) (h : k.Aside s v) : Act k s { s with toAudience := v }

/-- One step of a scene: nobody of the cast leaves, and there is room for all that arrives. -/
structure Step (k : Cast μ) (s t : Scene μ) : Prop where
  act : Act k s t
  place : k.InPlace t.toAudience
  room : ∀ id ∈ k.queues, ∀ f ∈ s.world.net.feeds, f.id = id →
    f.HasRoom (s.parcels t id).length

/-- Any number of steps, one after the other. -/
abbrev Steps (k : Cast μ) : Scene μ → Scene μ → Prop := Relation.ReflTransGen (Step k)

/-- The watcher's subscription: it is to records, and to be told of each. -/
structure Watches (k : Cast μ) (c : Grant (Intake (Arrival μ))) : Prop where
  id : c.id = k.watcher
  topic : c.asked = Record.topic
  item : ∃ capacity window taken heard,
    c.item = ⟨Record.type, capacity, fun r => .value (k.report r), window, taken, heard⟩

/-- What the talker was granted when it began to talk. -/
def grant (k : Cast μ) : Grant Outlet :=
  ⟨k.talker, Talker.topic, k.publisher.registration, ⟨k.publisher⟩⟩

/-- The talker may send texts. -/
structure Talks (k : Cast μ) (l : Ledger (Arrival μ)) : Prop where
  granted : k.grant ∈ l.publications
  type : k.publisher.type = Text.type

/-- How a scene begins: everybody is in place on a node of their own, each listener with a loop
that has heard nothing yet, and nothing has been said. -/
structure Opening (k : Cast μ) (s : Scene μ) : Prop where
  reachable : s.toAudience.Reachable
  place : k.InPlace s.toAudience
  apart : (k.nodes.map Node.id).Nodup
  talker : k.Talks s.ledger
  watcher : ∃ c ∈ s.ledger.subscriptions, k.Watches c
  seats : ∀ p ∈ k.seats, (∃ i ∈ s.world.inboxes, i.listener = p.listener) ∧
    ∃ loop ∈ s.world.loops, loop.id = p.loop ∧ ∃ hearing, loop.job = .listen p.listener hearing 0
  /-- No text has gone out to the listeners, and no record under the names. -/
  silent : (∀ p ∈ k.seats, s.ledger.windowOf p.listener.id = []) ∧ ∀ node ∈ k.nodes,
    Record.under node.name ((s.ledger.windowOf k.watcher).map Letter.payload) = []
  idle : s.said = [] ∧ s.midway = none

/-- All that was pending has been delivered and heard. -/
structure Rests (k : Cast μ) (t : Scene μ) : Prop where
  idle : t.midway = none
  queues : ∀ id ∈ k.queues, ∀ f ∈ t.world.net.feeds, f.id = id → f.pending = [] ∧ f.held = none
  inboxes : ∀ p ∈ k.seats, t.handOf p.listener.id = [] ∧
    ∀ i ∈ t.world.inboxes, i.listener = p.listener → i.texts.items = []

/-- What has become of what was said: the watcher has received it as the talker logged it, and
as each of the listeners logged that it had heard it, and every listener has counted it. -/
structure Reported (k : Cast μ) (t : Scene μ) : Prop where
  received : ∃ records : List Record, t.receivedBy k.watcher = records.map k.report ∧
    Record.remarks k.talker.name records =
      t.said.map (fun text => (Level.info, k.talker.name, text)) ∧
    ∀ p ∈ k.seats, Record.remarks p.node.name records =
      t.said.map fun text => (Level.info, p.node.name, Listener.heard p.node.name text)
  /-- Each loop still spins, and stops as soon as its signal trips, or has stopped. -/
  stops : ∀ p ∈ k.seats,
    (∃ loop ∈ t.world.loops, loop.id = p.loop ∧ (t.world.isTripped loop.signal = true →
      t.world.turns loop ≠ [] ∧
        ∀ z ∈ t.world.turns loop, z = t.world.stopped loop (.heard t.said.length))) ∨
    (p.loop, .heard t.said.length) ∈ t.world.endings
  counts : ∀ p ∈ k.seats, ∀ n, (p.loop, .heard n) ∈ t.world.endings → n = t.said.length

/-- What the talker's own code comes to: to say a text is to log it and then to send it, and a
talker that spins says the next greeting in each round and counts it. -/
structure Voices (k : Cast μ) (s : Scene μ) : Prop where
  say : ∀ count text, (k.voice count).say s.world.net text =
    (.ok (), (k.sends (k.logs s text) text).world.net)
  spin : ∀ count after, (k.voice count).spin s.world.net [⟨false, after⟩] =
    (if after then some (.ok (count + 1)) else none, k.voice (count + 1),
      (k.sends (k.logs s (Talker.greeting count)) (Talker.greeting count)).world.net)

end Cast

/-- A round of a talker that spins says the next greeting, and counts it. -/
theorem Talker.spin_round {g : Graph (Arrival μ)} {t : Talker}
    (hsaid : (t.say g (greeting t.count)).1 = .ok ()) (after : Bool) :
    t.spin g [⟨false, after⟩] = (if after then some (.ok (t.count + 1)) else none,
      { t with count := t.count + 1 }, (t.say g (greeting t.count)).2) := by
  unfold spin
  cases hsay : t.say g (greeting t.count) with
  | mk result g' =>
    rw [hsay] at hsaid
    cases hsaid
    cases after <;> rfl

/-! ## Audiences are told -/

namespace Audience

variable {u v : Audience μ}

theorem told_congr (h : u.Told) (hhearings : v.ledger.hearings = u.ledger.hearings)
    (hreceived : v.world.received = u.world.received) : v.Told := by
  refine ⟨fun e he => ?_, fun e he => ?_⟩
  · unfold Watch.receivedBy
    rw [hreceived]
    exact h.received e (hhearings ▸ he)
  · rw [hhearings]
    exact h.known e (hreceived ▸ he)

/-- Whatever a loop does, nobody receives anything. -/
theorem received_turned {loop : Loop} {i : Inbox} {hearing : Hearing} {n : Nat}
    {w : World (Graph (Arrival μ)) μ} (h : World.Turned u.world loop i n hearing w) :
    w.received = u.world.received := by
  cases h <;> rfl

/-- What is handed over in a step is received. -/
theorem told_step (hu : Sound u) (h : u.Told) (hstep : Step u v) : v.Told := by
  cases hstep with
  | operation hb => exact Watch.told_operation hu.audit.sound h hb
  | deliver feed hfeed hw => exact Watch.told_deliver hu.audit.fed hu.audit.sound h hfeed hw
  | listen node hnode =>
    have hafter := Watch.told_operation hu.audit.sound h
      (.subscribe _ node Listener.topic Listener.queueSize Text.type .chatter hnode)
    have hreceived : (u.world.listen node).2.received = u.world.received := by
      rcases u.listen_cases node with ⟨hworld, -⟩ | ⟨hworld, -⟩ <;> rw [hworld]
    exact ⟨fun e he => by
      have heard := hafter.received e he
      unfold Watch.receivedBy at heard ⊢
      rw [hreceived]
      exact heard, fun e he => hafter.known e (hreceived ▸ he)⟩
  | spin => exact told_congr h rfl rfl
  | turn loop hloop w hw =>
    obtain ⟨i, -, hearing, -, hturned⟩ := hu.orderly.turned hloop hw
    exact told_congr h (Ledger.hearings_posts _ _) (received_turned hturned)
  | newSignal => exact told_congr h rfl rfl
  | signalAct signal action =>
    refine told_congr h rfl ?_
    unfold World.signalAct
    split <;> rfl
  | hold => exact told_congr h rfl rfl

theorem Reachable.told (h : v.Reachable) : v.Told := by
  obtain ⟨u, hu, hsteps⟩ := h
  induction hsteps with
  | refl => exact (Watch.Reachable.sound ⟨_, hu.watch, .refl⟩).2
  | tail hbefore hstep ih => exact told_step (Reachable.sound ⟨u, hu, hbefore⟩) ih hstep

end Audience

end NodeGraph
