import NodeGraph.Proofs.Audit.Run

/-!
# Beats: all that a step can do

The operations of a graph overlap in what they do: logging, sending and calling
all put letters on topics, and refusals of several kinds use up a number. A
`Beat` is one thing that can happen to an audit, with the exact state after it
and everything that is known of it beforehand: what a grant looks like when it
is entered, how the topics were made ready for it (`Ensured`), who vouches for a
letter (`Vouched`).

> `beats_of_step`: every step is a sequence of beats.

An invariant is therefore proved once for each beat, and the operations are
unfolded in this file only.
-/

namespace NodeGraph

open Wire (Bytes)

variable {ε : Type}

/-- The feed that a new subscription should get. -/
def Grant.feed (c : Grant (Intake ε)) : Feed ε where
  id := c.id
  topic := c.target
  queue := { capacity := c.item.capacity }
  receive := c.item.read

/-- The topics `base` once it is certain that `t` is among them, under that name
and with that sum: it was there already, or it has been made. -/
inductive Ensured (topics : List Topic) (name md5 : String) : List Topic → Topic → Prop where
  | found (t : Topic) (ht : topics.find? (·.name = name) = some t) (hsum : t.md5 = md5) :
    Ensured topics name md5 topics t
  | made (typeName : String) (hnone : topics.find? (·.name = name) = none) :
    Ensured topics name md5 (topics ++ [⟨name, typeName, md5, [], []⟩])
      ⟨name, typeName, md5, [], []⟩

/-- Changes the topic of a name among others. -/
def changeTopic (name : String) (change : Topic → Topic) (t : Topic) : Topic :=
  if t.name = name then change t else t

/-- What making sure of a topic leaves, if it does not refuse. -/
theorem ensured_of_ensureTopic {g g' : Graph ε} {name typeName md5 : String}
    (h : g.ensureTopic name typeName md5 = .ok g') :
    ∃ base t, Ensured g.topics name md5 base t ∧ g' = { g with topics := base } := by
  unfold Graph.ensureTopic at h
  split at h
  next hnone =>
    injection h with h
    exact ⟨_, _, .made typeName hnone, h.symm⟩
  next t ht =>
    split at h
    next hsum =>
      injection h with h
      exact ⟨g.topics, t, .found t ht hsum, h.symm⟩
    next => exact absurd h (by simp)

namespace Audit

/-- Who stands behind a letter on the topic `t`: it was sent through a publisher
that is held and whose node is up, or it is a log record and `t` carries
records. -/
inductive Vouched (a : Audit ε) (t : Topic) : Letter → Prop where
  | sent (c : Grant Outlet) (hc : c ∈ a.ledger.publications) (held : c.id ∉ a.ledger.dropped)
    (halive : a.graph.isAlive c.item.publisher.node = true) (message : c.item.α)
    (payload : Bytes) (h : c.item.publisher.type.pack message = .ok payload) :
    Vouched a t ⟨c.item.publisher.type, message, c.item.publisher.topic, payload, h⟩
  | logged (record : Record) (payload : Bytes) (h : Record.type.pack record = .ok payload)
    (hsum : t.md5 = Record.type.md5) :
    Vouched a t ⟨Record.type, record, Record.topic, payload, h⟩

/-- One thing that can happen to an audit. -/
inductive Beat : Audit ε → Audit ε → Prop where
  | journal (a : Audit ε) (journal : List Line) : Beat a ⟨{ a.graph with journal }, a.ledger⟩
  /-- A number is used up for nothing. -/
  | skip (a : Audit ε) : Beat a ⟨{ a.graph with lastId := a.graph.lastId + 1 }, a.ledger⟩
  | enter (a : Audit ε) (node : Node) (hid : node.id = a.graph.lastId + 1)
    (hname : ∀ n ∈ a.graph.nodes, n.name ≠ node.name) :
    Beat a ⟨{ a.graph with lastId := node.id, nodes := a.graph.nodes ++ [node] },
      a.ledger.enter node⟩
  | subscribe (a : Audit ε) (c : Grant (Intake ε)) (base : List Topic) (t : Topic)
    (hlive : c.node ∈ a.ledger.live)
    (hhandle : c.handle = .subscriber c.target (a.graph.lastId + 1))
    (hnew : c.item.window = [] ∧ c.item.taken = [] ∧ c.item.heard = [])
    (hbase : Ensured a.graph.topics c.target c.item.type.md5 base t) :
    Beat a
      ⟨{ a.graph with
          lastId := c.id
          topics := base.map (changeTopic c.target (·.addSubscriber c.member))
          feeds := a.graph.feeds ++ [c.feed] },
        a.ledger.subscribe c⟩
  | publish (a : Audit ε) (c : Grant Outlet) (base : List Topic) (t : Topic)
    (hlive : c.node ∈ a.ledger.live)
    (hhandle : c.handle = .publisher c.target (a.graph.lastId + 1))
    (hnode : c.item.publisher.node = c.node.id) (htopic : c.item.publisher.topic = c.target)
    (hbase : Ensured a.graph.topics c.target c.item.publisher.type.md5 base t) :
    Beat a
      ⟨{ a.graph with
          lastId := c.id
          topics := base.map (changeTopic c.target (·.addPublisher c.member)) },
        a.ledger.publish c⟩
  | offer (a : Audit ε) (c : Grant Offer) (hlive : c.node ∈ a.ledger.live)
    (hhandle : c.handle = .service c.target (a.graph.lastId + 1))
    (hname : ∀ s ∈ a.graph.services, s.name ≠ c.target) :
    Beat a ⟨{ a.graph with lastId := c.id, services := a.graph.services ++ [c.service] },
      a.ledger.offer c⟩
  | post (a : Audit ε) (letter : Letter) (t : Topic)
    (ht : a.graph.topic? letter.topic = some t) (hv : a.Vouched t letter) :
    Beat a ⟨a.graph.fanOut t letter.payload, a.ledger.post letter⟩
  | drop (a : Audit ε) (r : Registration) (h : a.ledger.Holds r) :
    Beat a ⟨a.graph.unregister r, a.ledger.drop r.id⟩
  | shutDown (a : Audit ε) (node : Node) (h : node ∈ a.ledger.live) :
    Beat a ⟨a.graph.removeNode node, a.ledger.shutDown node.id⟩
  | turn (a : Audit ε) (feed : Feed ε) (h : feed ∈ a.graph.feeds) (next : Feed ε)
    (hnext : feed.advance? = some next) :
    Beat a
      ⟨{ a.graph with feeds := a.graph.feeds.modify feed.id fun _ => next },
        a.ledger.turn feed⟩

/-- Any number of beats. -/
abbrev Beats : Audit ε → Audit ε → Prop := Relation.ReflTransGen Beat

/-! ## Registering -/

theorem register_beats (a : Audit ε) (name : String) : Beats a (a.register name) := by
  unfold register Graph.register
  by_cases htaken : (a.graph.nodes.any (·.name = Name.resolve "/" name)) = true
  · simp only [if_pos htaken]
    exact .refl
  · simp only [if_neg htaken]
    have hname : ∀ n ∈ a.graph.nodes, n.name ≠ Name.resolve "/" name := by
      intro n hn he
      exact htaken (List.any_eq_true.mpr ⟨n, hn, decide_eq_true he⟩)
    exact (Relation.ReflTransGen.single
      (.enter a ⟨a.graph.lastId + 1, Name.resolve "/" name⟩ rfl hname)).tail
      (.journal _ (a.graph.journal ++ [.registered (Name.resolve "/" name)]))

theorem subscribe_beats {α : Type} (a : Audit ε) (node : Node) (topic : String)
    (capacity : Nat) (type : MessageType α) (callback : α → ε) (h : node ∈ a.ledger.live) :
    Beats a (a.subscribe node topic capacity type callback) := by
  unfold subscribe Graph.addSubscriber
  cases hbase : Graph.ensureTopic { a.graph with lastId := a.graph.lastId + 1 }
      (Name.resolve node.name topic) type.name type.md5 with
  | error e =>
    simp only [hbase]
    exact .single (.skip a)
  | ok g =>
    simp only [hbase]
    obtain ⟨base, t, hens, rfl⟩ := ensured_of_ensureTopic hbase
    exact .single (.subscribe a
      { node, asked := topic,
        handle := .subscriber (Name.resolve node.name topic) (a.graph.lastId + 1),
        item := { type, capacity, callback } }
      base t h rfl ⟨rfl, rfl, rfl⟩ hens)

theorem publish_beats {α : Type} (a : Audit ε) (node : Node) (topic : String)
    (type : MessageType α) (h : node ∈ a.ledger.live) :
    Beats a (a.publish node topic type) := by
  unfold publish Graph.publish
  cases hbase : Graph.ensureTopic { a.graph with lastId := a.graph.lastId + 1 }
      (Name.resolve node.name topic) type.name type.md5 with
  | error e =>
    simp only [hbase]
    exact .single (.skip a)
  | ok g =>
    simp only [hbase]
    obtain ⟨base, t, hens, rfl⟩ := ensured_of_ensureTopic hbase
    exact .single (.publish a
      { node, asked := topic,
        handle := .publisher (Name.resolve node.name topic) (a.graph.lastId + 1),
        item :=
          ⟨⟨a.graph.lastId + 1, node.id, Name.resolve node.name topic, type⟩⟩ }
      base t h rfl rfl rfl hens)

theorem advertise_beats {ρ σ : Type} (a : Audit ε) (node : Node) (service : String)
    (type : ServiceType ρ σ) (answer : ρ → Act (Except String σ)) (owns : List Handle)
    (h : node ∈ a.ledger.live) : Beats a (a.advertise node service type answer owns) := by
  unfold advertise Graph.addService
  by_cases hdup : (a.graph.service? (Name.resolve node.name service)).isSome = true
  · simp only [if_pos hdup]
    exact .refl
  · simp only [if_neg hdup]
    have hname : ∀ s ∈ a.graph.services, s.name ≠ Name.resolve node.name service := by
      intro s hs he
      exact hdup (List.find?_isSome.mpr ⟨s, hs, decide_eq_true he⟩)
    exact .single (.offer a
      { node, asked := service,
        handle := .service (Name.resolve node.name service) (a.graph.lastId + 1),
        item := ⟨type.name, type.md5, .ofTyped type answer owns⟩ }
      h rfl hname)

/-! ## Letters going out -/

theorem sendLetters_of_ok {α : Type} {g : Graph ε} {p : Publisher α} {message : α}
    {payload : Bytes} (h : p.type.pack message = .ok payload) :
    g.sendLetters p message =
      if g.isAlive p.node && (g.topic? p.topic).isSome then
        [⟨p.type, message, p.topic, payload, h⟩]
      else [] := by
  unfold Graph.sendLetters
  split
  next fault he =>
    rw [h] at he
    cases he
  next payload' he =>
    have hp : payload' = payload := by
      rw [h] at he
      exact (Except.ok.inj he).symm
    subst hp
    rfl

theorem sendLetters_of_error {α : Type} {g : Graph ε} {p : Publisher α} {message : α}
    {fault : Wire.Fault} (h : p.type.pack message = .error fault) :
    g.sendLetters p message = [] := by
  unfold Graph.sendLetters
  split
  next => rfl
  next payload he =>
    rw [h] at he
    cases he

theorem logLetters_of_ok {g : Graph ε} {logger : Logger} {entry : Entry} {payload : Bytes}
    (h : Record.type.pack (Graph.record logger entry) = .ok payload) :
    g.logLetters logger entry =
      if g.isAlive logger.node && g.carries Record.topic Record.type.md5 then
        [⟨Record.type, Graph.record logger entry, Record.topic, payload, h⟩]
      else [] := by
  unfold Graph.logLetters
  split
  next fault he =>
    rw [h] at he
    cases he
  next payload' he =>
    have hp : payload' = payload := by
      rw [h] at he
      exact (Except.ok.inj he).symm
    subst hp
    rfl

theorem logLetters_of_error {g : Graph ε} {logger : Logger} {entry : Entry}
    {fault : Wire.Fault} (h : Record.type.pack (Graph.record logger entry) = .error fault) :
    g.logLetters logger entry = [] := by
  unfold Graph.logLetters
  split
  next => rfl
  next payload he =>
    rw [h] at he
    cases he

theorem send_beats (a : Audit ε) (c : Grant Outlet) (message : c.item.α)
    (h : c ∈ a.ledger.publications) (held : c.id ∉ a.ledger.dropped) :
    Beats a (a.send c.item.publisher message) := by
  unfold send Graph.send
  cases hp : c.item.publisher.type.pack message with
  | error fault =>
    rw [sendLetters_of_error hp]
    exact .refl
  | ok payload =>
    rw [sendLetters_of_ok hp]
    by_cases halive : a.graph.isAlive c.item.publisher.node = true
    · cases ht : a.graph.topic? c.item.publisher.topic with
      | none =>
        -- without a topic the message goes nowhere
        rw [halive]
        exact .refl
      | some t =>
        rw [halive]
        exact .single (.post a _ t ht (.sent c h held halive message payload hp))
    · rw [Bool.eq_false_iff.mpr halive]
      exact .refl

/-- A broadcast of a record is the one beat that its letter stands for, or
nothing. -/
theorem broadcast_beats (a : Audit ε) (node : Nat) (record : Record) {payload : Bytes}
    (h : Record.type.pack record = .ok payload) :
    Beats a
      ⟨a.graph.broadcast node Record.topic Record.type.md5 payload,
        (if a.graph.isAlive node && a.graph.carries Record.topic Record.type.md5 then
          [⟨Record.type, record, Record.topic, payload, h⟩]
        else []).foldl Ledger.post a.ledger⟩ := by
  unfold Graph.broadcast Graph.carries
  by_cases halive : a.graph.isAlive node = true
  · rw [halive]
    cases ht : a.graph.topic? Record.topic with
    | none => exact .refl
    | some t =>
      by_cases hsum : t.md5 = Record.type.md5
      · have hany : (Option.some t).any (·.md5 = Record.type.md5) = true := decide_eq_true hsum
        rw [hany]
        simp only [if_pos hsum]
        exact .single (.post a _ t ht (.logged record payload h hsum))
      · have hany : (Option.some t).any (·.md5 = Record.type.md5) = false :=
          decide_eq_false hsum
        rw [hany]
        simp only [if_neg hsum]
        exact .refl
  · rw [Bool.eq_false_iff.mpr halive]
    exact .refl

theorem log_beats (a : Audit ε) (logger : Logger) (entry : Entry) :
    Beats a (a.log logger entry) := by
  unfold log Graph.log
  cases hp : Record.type.pack (Graph.record logger entry) with
  | error fault =>
    rw [logLetters_of_error hp]
    exact .single (.journal a _)
  | ok payload =>
    rw [logLetters_of_ok hp]
    refine (Relation.ReflTransGen.single (.journal a _)).trans
      (broadcast_beats _ logger.node (Graph.record logger entry) hp)

/-! ## Steps -/

theorem beats_of_operation {a b : Audit ε} (h : Operation a b) : Beats a b := by
  cases h with
  | register _ name => exact register_beats a name
  | shutDown _ node h => exact .single (.shutDown a node h)
  | subscribe _ node topic capacity type callback h =>
    exact subscribe_beats a node topic capacity type callback h
  | publish _ node topic type h => exact publish_beats a node topic type h
  | advertise _ node service type answer owns h =>
    exact advertise_beats a node service type answer owns h
  | send _ c message h held => exact send_beats a c message h held
  | log _ logger entry => exact log_beats a logger entry
  | drop _ r h => exact .single (.drop a r h)
  | journal _ journal => exact .single (.journal a journal)

/-- **Every step is a sequence of beats.** -/
theorem beats_of_step {a b : Audit ε} (h : Step a b) : Beats a b := by
  cases h with
  | operation h => exact beats_of_operation h
  | turn feed h =>
    cases h with
    | advance h next hnext => exact .single (.turn a feed h next hnext)

/-- What every beat preserves, any number of beats preserves. -/
theorem Beats.preserve {P : Audit ε → Prop} {a b : Audit ε} (h : Beats a b)
    (beat : ∀ {c d : Audit ε}, Beat c d → P c → P d) (ha : P a) : P b := by
  induction h with
  | refl => exact ha
  | tail _ hbeat ih => exact beat hbeat ih

/-- So does any number of steps. -/
theorem Steps.preserve {P : Audit ε → Prop} {a b : Audit ε} (h : Steps a b)
    (beat : ∀ {c d : Audit ε}, Beat c d → P c → P d) (ha : P a) : P b := by
  induction h with
  | refl => exact ha
  | tail _ hstep ih => exact (beats_of_step hstep).preserve beat ih

/-! ## Nothing is crossed out -/

/-- What has been granted stays written down. -/
theorem offers_beat {a b : Audit ε} {c : Grant Offer} (hb : Beat a b)
    (h : c ∈ a.ledger.offers) : c ∈ b.ledger.offers := by
  cases hb with
  | offer => exact List.mem_append_left _ h
  | _ => exact h

theorem publications_beat {a b : Audit ε} {c : Grant Outlet} (hb : Beat a b)
    (h : c ∈ a.ledger.publications) : c ∈ b.ledger.publications := by
  cases hb with
  | publish => exact List.mem_append_left _ h
  | _ => exact h

theorem nodes_beat {a b : Audit ε} {n : Node} (hb : Beat a b) (h : n ∈ a.ledger.nodes) :
    n ∈ b.ledger.nodes := by
  cases hb with
  | enter => exact List.mem_append_left _ h
  | _ => exact h

/-- A subscription later on: the story of its queue goes on, and all else is as it was. -/
structure Continues (c d : Grant (Intake ε)) : Prop where
  node : d.node = c.node
  asked : d.asked = c.asked
  handle : d.handle = c.handle
  read : d.item.read = c.item.read

theorem continues_beat {a b : Audit ε} {c : Grant (Intake ε)} (hb : Beat a b)
    (h : ∃ d ∈ a.ledger.subscriptions, Continues c d) :
    ∃ d ∈ b.ledger.subscriptions, Continues c d := by
  obtain ⟨d, hd, hcd⟩ := h
  cases hb with
  | subscribe => exact ⟨d, List.mem_append_left _ hd, hcd⟩
  | post letter t _ _ =>
    refine ⟨_, List.mem_map_of_mem hd, hcd.node, hcd.asked, hcd.handle, ?_⟩
    rw [← hcd.read, Grant.update_item]
    split <;> rfl
  | turn feed _ next _ =>
    refine ⟨_, List.mem_map_of_mem hd, hcd.node, hcd.asked, hcd.handle, ?_⟩
    rw [← hcd.read, Grant.update_item]
    unfold Intake.advance
    split
    · split <;> rfl
    · rfl
  | _ => exact ⟨d, hd, hcd⟩

end Audit

end NodeGraph
