import NodeGraph.Graph.Middleware
import NodeGraph.Proofs.Addition.Sums
import NodeGraph.Proofs.Delivery.Feeds
import NodeGraph.Proofs.Delivery.Shelf

/-!
# What logging does to a graph

A record goes out without a publisher, so nothing that guards what publishers send guards it.
Whoever has a logger may log, also for a node that is gone, and the topic of records may be
there or not, and for messages of any type.

What it does comes down to a line in the process log and a payload for the `watchers` of the
graph, whatever is logged (`Graph.log_eq`).

> `Sound.mem_watchers_iff`: these are the open subscriptions to the topic of records if that
> carries records, and nobody otherwise.
>
> `records_logged`: so in every reachable state, and for the loggers of all nodes, logging adds
> a line, and a payload where it should, and does nothing else.

A payload is a record if it can be read as one, for which its texts have to be countable
(`Record.Fits`): four bytes tell the length of each. Whatever else is read, it is under the name
of the node if only that can be counted (`Record.name_of_unpack`).
-/

namespace NodeGraph

open Wire (Bytes Codec Countable)

variable {ε : Type}

/-! ## One payload -/

/-- Whatever is read behind a frame fits, and stands there as it is written. -/
theorem exists_rest_of_unpack {α : Type} {c : Codec α} {fits : α → Prop} (h : c.Faithful fits)
    {payload : Bytes} {v : α} (hread : (Format.ofCodec c).unpack payload = .ok v) :
    ∃ rest, fits v ∧ payload.drop 4 = c.encode v ++ rest := by
  unfold Format.unpack at hread
  cases hdecode : (Format.ofCodec c).decode (payload.drop 4) with
  | error fault =>
    rw [hdecode] at hread
    cases hread
  | ok read =>
    obtain ⟨w, rest⟩ := read
    rw [hdecode] at hread
    cases hread
    exact ⟨rest, (h.decode_iff _ _ _).mp hdecode⟩

/-- What is behind a frame is read as what was written if and only if that fits. -/
theorem unpack_framed_iff {α : Type} {c : Codec α} {fits : α → Prop} (h : c.Faithful fits)
    (v : α) : (Format.ofCodec c).unpack (framed (c.encode v)) = .ok v ↔ fits v :=
  ⟨fun hread => (exists_rest_of_unpack h hread).choose_spec.1, unpack_framed h⟩

namespace Record

/-- What stands in front of the text of a record. -/
def heading : Codec (Header × Level × String) := Header.codec.pair (Codec.i8.pair Codec.text)

theorem heading_faithful :
    heading.Faithful fun v => Countable v.1.frameId ∧ True ∧ Countable v.2.2 :=
  Header.codec_faithful.pair (Codec.Faithful.i8.pair Codec.text_faithful)

theorem exists_encode_eq (r : Record) :
    ∃ rest, codec.encode r = heading.encode (r.header, r.level, r.name) ++ rest := by
  refine ⟨Codec.text.encode r.msg ++ (Codec.text.encode r.file ++
    (Codec.text.encode r.function ++ (Codec.u32.encode r.line ++
      (Codec.list Codec.text).encode r.topics))), ?_⟩
  show _ ++ (_ ++ (_ ++ _)) = (_ ++ (_ ++ _)) ++ _
  rw [List.append_assoc, List.append_assoc]
  rfl

/-- A record is read under the name that it was written under, whatever comes after that. -/
theorem name_of_unpack {record read : Record} (hframe : Countable record.header.frameId)
    (hname : Countable record.name)
    (hread : type.unpack (framed (codec.encode record)) = .ok read) : read.name = record.name := by
  obtain ⟨rest, hfits, hwritten⟩ := exists_rest_of_unpack codec_faithful hread
  obtain ⟨tail, htail⟩ := exists_encode_eq record
  obtain ⟨tail', htail'⟩ := exists_encode_eq read
  rw [drop_framed, htail, htail', List.append_assoc] at hwritten
  have hthere : heading.decode (heading.encode _ ++ tail) = .ok (_, tail) :=
    (heading_faithful.decode_iff _ (record.header, record.level, record.name) _).mpr
      ⟨⟨hframe, trivial, hname⟩, rfl⟩
  have hback := (heading_faithful.decode_iff _ (read.header, read.level, read.name) _).mpr
    ⟨⟨hfits.frameId, trivial, hfits.name⟩, hwritten⟩
  exact congrArg (·.1.2.2) (Except.ok.inj (hback.symm.trans hthere))

end Record

/-- The feed with a payload more in its queue, or rather the newest of them that its queue
has room for. -/
def Feed.appended (f : Feed ε) (payload : Bytes) : Feed ε :=
  { f with
    queue := f.queue.holding (Shelf.newest f.queue.capacity (f.pending ++ [payload])) }

theorem Feed.push_eq (f : Feed ε) (payload : Bytes) : f.push payload = f.appended payload := by
  have hqueue : f.queue.send payload = f.queue.holding (f.queue.send payload).items := by
    unfold Lossy.send
    simp only
    split <;> rfl
  unfold push appended
  rw [hqueue, Conduit.items_send_newest]
  rfl

/-! ## In a reachable state -/

/-- The record of an entry that is logged for a node. -/
def Node.record (node : Node) (entry : Entry) : Record where
  header := { seq := 0, sec := 0, nsec := 0, frameId := "" }
  level := entry.level
  name := node.name
  msg := entry.text
  file := entry.site.file
  function := ""
  line := entry.site.line
  topics := []

/-- Whether the topic of records is there, and for records. -/
def Graph.TakesRecords (g : Graph ε) : Prop :=
  ∃ t ∈ g.topics, t.name = Record.topic ∧ t.md5 = Record.type.md5

/-- Whether the feed is that of an open subscription to the topic of records. -/
def Audit.IsWatched (a : Audit ε) (f : Feed ε) : Prop :=
  ∃ c ∈ a.ledger.subscriptions, c.id = f.id ∧ a.ledger.isOpen c = true ∧ c.target = Record.topic

instance (a : Audit ε) (f : Feed ε) : Decidable (a.IsWatched f) :=
  inferInstanceAs (Decidable (∃ c ∈ a.ledger.subscriptions, _))

section

variable {a : Audit ε}

theorem Sound.mem_watchers_iff (hs : Sound a) {c : Grant (Intake ε)}
    (hc : c ∈ a.ledger.subscriptions) :
    c.id ∈ a.graph.watchers ↔
      a.graph.TakesRecords ∧ a.ledger.isOpen c = true ∧ c.target = Record.topic := by
  unfold Graph.watchers Graph.topic?
  cases hfind : a.graph.topics.find? (·.name = Record.topic) with
  | none =>
    refine ⟨fun h => absurd h List.not_mem_nil, ?_⟩
    rintro ⟨⟨t, ht, hname, -⟩, -⟩
    exact absurd (decide_eq_true hname) (List.find?_eq_none.mp hfind t ht)
  | some t =>
    obtain ⟨ht, hname⟩ := mem_of_find?_topic hfind
    -- there is only one topic of that name
    have htakes : a.graph.TakesRecords ↔ t.md5 = Record.type.md5 := by
      constructor
      · rintro ⟨u, hu, huname, hsum⟩
        rw [List.inj_on_of_nodup_map hs.exact.topics.names ht hu (hname.trans huname.symm)]
        exact hsum
      · exact fun hsum => ⟨t, ht, hname, hsum⟩
    rw [htakes]
    by_cases hsum : t.md5 = Record.type.md5
    · simp only [if_pos hsum]
      rw [Audit.mem_subscribers_iff hs ht hc, hname, and_iff_right hsum]
    · simp only [if_neg hsum]
      exact ⟨fun h => absurd h List.not_mem_nil, fun h => absurd h.1 hsum⟩

/-- A feed is watched if its number is that of a watcher. -/
theorem Fed.mem_watchers_iff (hf : Fed a) (hs : Sound a) {f : Feed ε}
    (hmem : f ∈ a.graph.feeds) :
    f.id ∈ a.graph.watchers ↔ a.graph.TakesRecords ∧ a.IsWatched f := by
  have hid : f.id ∈ a.ledger.subscriptions.map Grant.id := hf.ids ▸ List.mem_map_of_mem hmem
  obtain ⟨c, hc, hcid⟩ := List.mem_map.mp hid
  rw [← hcid, hs.mem_watchers_iff hc]
  refine and_congr_right fun _ => ⟨fun h => ⟨c, hc, hcid, h⟩, ?_⟩
  rintro ⟨d, hd, hdid, h⟩
  rwa [hs.numbered.subscription_inj hc hd (hcid.trans hdid.symm)]

end

namespace Audit

/-- What has come of an entry that was logged for a node. -/
structure Logged (a : Audit ε) (node : Node) (entry : Entry) (g : Graph ε) : Prop where
  /-- There is one line more in the process log. -/
  noted : g.journal =
    a.graph.journal ++ [⟨.ofLevel entry.level, node.name, entry.text⟩]
  /-- Nothing has been registered and nothing has gone. -/
  registry : g.nodes = a.graph.nodes ∧ g.topics = a.graph.topics ∧
    g.services = a.graph.services ∧ g.lastId = a.graph.lastId
  /-- There is one payload more for every subscription to the topic of records, if the node is
  alive and the topic carries records, and otherwise for none. What can be read of it is the
  record of the entry. -/
  published : ∃ payload,
    (Record.type.unpack payload = .ok (node.record entry) ↔ (node.record entry).Fits) ∧
    (node ∈ a.ledger.live ∧ a.graph.TakesRecords →
      g.feeds = a.graph.feeds.map fun f => if a.IsWatched f then f.appended payload else f) ∧
    (¬ (node ∈ a.ledger.live ∧ a.graph.TakesRecords) → g.feeds = a.graph.feeds)
  /-- A queue has the size that was asked for when its subscription was made. -/
  sized : ∀ c ∈ a.ledger.subscriptions, ∀ f ∈ a.graph.feeds, f.id = c.id →
    f.queue.capacity = c.item.capacity

/-- Every node may log at any time, also when it is gone, and whatever it logs. -/
theorem records_logged {a : Audit ε} (h : Reachable a) {node : Node}
    (hnode : node ∈ a.ledger.nodes) (entry : Entry) :
    Logged a node entry (Middleware.log a.graph (Middleware.logger a.graph node).1 entry) := by
  have hs := h.sound
  have halive : a.graph.isAlive node.id = true ↔ node ∈ a.ledger.live := by
    rw [hs.isAlive_iff]
    constructor
    · rintro ⟨n, hn, hid⟩
      rwa [← hs.numbered.node_inj (Ledger.mem_live.mp hn).1 hnode hid]
    · exact fun hlive => ⟨node, hlive, rfl⟩
  have hlog : Middleware.log a.graph (Middleware.logger a.graph node).1 entry = _ :=
    Graph.log_eq a.graph ⟨node.id, node.name⟩ entry
  rw [hlog]
  refine {
    noted := rfl
    registry := ⟨rfl, rfl, rfl, rfl⟩
    published := ⟨framed (Record.codec.encode (node.record entry)),
      unpack_framed_iff Record.codec_faithful _, ?published, ?silent⟩
    sized := ?sized }
  case published =>
    rintro ⟨hlive, htakes⟩
    show a.graph.feeds.push (if a.graph.isAlive node.id then a.graph.watchers else []) _ = _
    rw [if_pos (halive.mpr hlive)]
    refine List.map_congr_left fun f hf => ?_
    have hwatched := h.fed.mem_watchers_iff hs hf
    rw [and_iff_right htakes] at hwatched
    simp only [hwatched, Feed.push_eq]
    rfl
  case silent =>
    intro hsilent
    show a.graph.feeds.push (if a.graph.isAlive node.id then a.graph.watchers else []) _ = _
    by_cases hlive : node ∈ a.ledger.live
    · rw [if_pos (halive.mpr hlive)]
      -- nobody watches a topic that does not carry records
      refine (List.map_congr_left fun f hf => if_neg fun hmem => ?_).trans (List.map_id _)
      exact hsilent ⟨hlive, ((h.fed.mem_watchers_iff hs hf).mp hmem).1⟩
    · rw [if_neg fun h => hlive (halive.mp h)]
      exact Graph.push_nil _ _
  case sized =>
    intro c hc f hf hid
    exact (h.fed.serves c hc f hf hid).capacity

/-- A node watches the topic of records with room for one. -/
def watched : Audit Record :=
  (({} : Audit Record).register "a").subscribe ⟨1, "/a"⟩ "/rosout" 1 Record.type id

theorem watched_reachable : Reachable watched := by
  unfold watched
  refine .tail (.single (.operation (.register _ "a")))
    (.operation (.subscribe _ ⟨1, "/a"⟩ "/rosout" 1 Record.type id ?_))
  decide

/-- What the node logs goes to itself, and its feed keeps the newest record. -/
theorem records_logged_watched :
    Reachable watched ∧ ⟨1, "/a"⟩ ∈ watched.ledger.live ∧ watched.graph.TakesRecords ∧
      Logged watched ⟨1, "/a"⟩ ⟨Level.error, "lost", ⟨"a.rs", 7⟩⟩
        (Middleware.log watched.graph (Middleware.logger watched.graph ⟨1, "/a"⟩).1
          ⟨Level.error, "lost", ⟨"a.rs", 7⟩⟩) :=
  ⟨watched_reachable, by decide, ⟨_, List.mem_singleton_self _, by decide, by decide⟩,
    records_logged watched_reachable (by decide) _⟩

/-- What node `a` says if it has no end of it to say. -/
def droning : Entry := ⟨Level.info, Wire.endless, ⟨"a.rs", 7⟩⟩

/-- The node is alive and the topic carries records, and there is a payload more. It cannot be
read as the record, for its text is one byte too long. -/
theorem droning_not_recorded :
    Reachable watched ∧ ⟨1, "/a"⟩ ∈ watched.ledger.live ∧ watched.graph.TakesRecords ∧
      ∃ payload,
        (Middleware.log watched.graph (Middleware.logger watched.graph ⟨1, "/a"⟩).1
          droning).feeds.map Feed.pending = [[payload]] ∧
        Record.type.unpack payload ≠ .ok (Node.record ⟨1, "/a"⟩ droning) := by
  let payload := framed (Record.codec.encode (Node.record ⟨1, "/a"⟩ droning))
  have hqueued : ∀ bytes : Bytes,
      (watched.graph.feeds.push watched.graph.watchers bytes).map Feed.pending = [[bytes]] :=
    fun bytes => rfl
  have hlog : Middleware.log watched.graph (Middleware.logger watched.graph ⟨1, "/a"⟩).1 droning =
      _ := Graph.log_eq watched.graph ⟨1, "/a"⟩ droning
  refine ⟨watched_reachable, by decide, ⟨_, List.mem_singleton_self _, by decide, by decide⟩,
    payload, ?_, fun hread => ?_⟩
  · rw [hlog, if_pos (by decide : watched.graph.isAlive 1 = true)]
    exact hqueued payload
  · have hfits := (unpack_framed_iff Record.codec_faithful _).mp hread
    exact Wire.not_countable_endless hfits.msg

end Audit

end NodeGraph
