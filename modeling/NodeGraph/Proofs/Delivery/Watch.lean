import NodeGraph.Graph.Middleware
import NodeGraph.Message.Text
import NodeGraph.Proofs.Delivery.Feeds
import NodeGraph.World.Step

/-!
# Delivery in a running process

In a running process anybody may use the graph at any time, and every delivery
thread takes its steps when it likes. A `Watch` is such a process with the
ledger of its graph: an operation is entered into the ledger as it is into that
of an `Audit`, and so is a step of a delivery thread (`World.deliver?`). All else
that goes on beside, loops and inboxes and who is held up, is left open.

> `Reachable.sound`: what is watched is a reachable audit, so all that is known
> of these holds of it, and subscribers have received what the ledger says they
> were handed (`Told`).

For this a step of a thread has to be a turn of the audit (`deliver?_eq`). The
thread changes every feed of its number, the turn replaces its own; that these
are the same is `Fed.feed_inj`.
-/

namespace NodeGraph

variable {ε μ : Type}

/-- What a feed hands over when it is done with the payload it holds. -/
def Feed.handed (f : Feed ε) : List ε := (f.held.bind fun p => (f.receive p).toOption).toList

/-- The value that a subscriber of its own has made of a message. -/
def Arrival.value? : Arrival μ → Option μ
  | .value m => some m
  | .chatter _ => none

/-- A process with the ledger of its graph. -/
structure Watch (μ : Type) where
  world : World (Graph (Arrival μ)) μ
  ledger : Ledger (Arrival μ) := {}

namespace Watch

/-- The graph of the process with its ledger. -/
def audit (v : Watch μ) : Audit (Arrival μ) := ⟨v.world.net, v.ledger⟩

/-- The process after somebody has used its graph. -/
def use (v : Watch μ) (b : Audit (Arrival μ)) : Watch μ :=
  ⟨{ v.world with net := b.graph }, b.ledger⟩

/-- What a subscription has been handed that its subscriber made a value of. -/
def receivedBy (v : Watch μ) (id : Nat) : List μ :=
  (v.world.received.filter (·.1 = id)).map Prod.snd

/-- A process before anything has happened on its graph. -/
def Start (v : Watch μ) : Prop := v.world.net = {} ∧ v.world.received = [] ∧ v.ledger = {}

/-- One step of a process. -/
inductive Step : Watch μ → Watch μ → Prop where
  /-- Somebody uses the graph. -/
  | operation (v : Watch μ) {b : Audit (Arrival μ)} (h : Audit.Operation v.audit b) :
    Step v (v.use b)
  /-- A delivery thread takes its next step. -/
  | deliver (v : Watch μ) (feed : Feed (Arrival μ)) (hfeed : feed ∈ v.world.net.feeds)
    {w : World (Graph (Arrival μ)) μ} (h : v.world.deliver? feed = some w) :
    Step v ⟨w, v.ledger.turn feed⟩
  /-- Something happens that is neither on the graph nor handed over. -/
  | beside (v : Watch μ) (w : World (Graph (Arrival μ)) μ) (hnet : w.net = v.world.net)
    (hreceived : w.received = v.world.received) : Step v ⟨w, v.ledger⟩

/-- What any number of steps make out of a process at its start. -/
def Reachable (v : Watch μ) : Prop := ∃ u, Start u ∧ Relation.ReflTransGen Step u v

end Watch

/-! ## Threads take turns -/

theorem Intake.heard_advance (s : Intake ε) (feed : Feed ε) :
    (s.advance feed).heard = s.heard ++ feed.handed := by
  unfold advance Feed.handed
  cases feed.held with
  | some payload => rfl
  | none => exact (List.append_nil _).symm

/-- Changing the only feed of a number is replacing it. -/
theorem Feeds.modify_eq {feeds : Feeds ε} {feed : Feed ε}
    (hone : ∀ f ∈ feeds, f.id = feed.id → f = feed) (change : Feed ε → Feed ε) :
    feeds.modify feed.id change = feeds.modify feed.id fun _ => change feed := by
  apply List.map_congr_left
  intro f hf
  by_cases hid : f.id = feed.id
  · rw [if_pos hid, if_pos hid, hone f hf hid]
  · rw [if_neg hid, if_neg hid]

namespace World

variable {w w' : World (Graph (Arrival μ)) μ} {feed : Feed (Arrival μ)}

/-- Handing over tells the subscriber, or else an inbox or the log. -/
theorem handOver_eq (w : World (Graph (Arrival μ)) μ) (id : Nat) (arrival : Arrival μ) :
    (∃ journal, (w.handOver id arrival).net = { w.net with journal }) ∧
      (w.handOver id arrival).received =
        w.received ++ arrival.value?.toList.map fun m => (id, m) := by
  cases arrival with
  | value m => exact ⟨⟨w.net.journal, rfl⟩, rfl⟩
  | chatter text =>
    -- a text goes to its inbox, or is remarked upon if nobody listens any more
    simp only [handOver]
    split
    · exact ⟨⟨w.net.journal, rfl⟩, (List.append_nil _).symm⟩
    · exact ⟨⟨w.net.journal ++ [.listenerGone], rfl⟩, (List.append_nil _).symm⟩

/-- Dealing with a held payload finishes with it, and hands over what could be
read. -/
theorem dealWith?_eq {outcome : Except Wire.Fault (Arrival μ)}
    (h : w.dealWith? feed outcome = some w') :
    (∃ journal, w'.net =
        { w.net with feeds := w.net.feeds.modify feed.id Feed.finish, journal }) ∧
      w'.received = w.received ++
        (outcome.toOption.toList.filterMap Arrival.value?).map fun m => (feed.id, m) := by
  cases outcome with
  | ok arrival =>
    simp only [dealWith?] at h
    split at h
    next => exact absurd h (by simp)
    next =>
      injection h with h
      obtain ⟨⟨journal, hnet⟩, hreceived⟩ :=
        (w.modifyFeed feed.id Feed.finish).handOver_eq feed.id arrival
      rw [← h]
      refine ⟨⟨journal, hnet⟩, hreceived.trans ?_⟩
      cases arrival with
      | value m => rfl
      | chatter text => rfl
  | error fault =>
    simp only [dealWith?] at h
    split at h
    next => exact absurd h (by simp)
    next =>
      injection h with h
      rw [← h]
      exact ⟨⟨w.net.journal ++ [.undecodable feed.topic fault], rfl⟩, (List.append_nil _).symm⟩

/-- **A step of a delivery thread is a turn of its feed**, and hands over what
the feed does. -/
theorem deliver?_eq (hone : ∀ f ∈ w.net.feeds, f.id = feed.id → f = feed)
    (h : w.deliver? feed = some w') :
    ∃ next journal, feed.advance? = some next ∧
      w'.net = { w.net with feeds := w.net.feeds.modify feed.id fun _ => next, journal } ∧
      w'.received = w.received ++
        (feed.handed.filterMap Arrival.value?).map fun m => (feed.id, m) := by
  unfold deliver? at h
  split at h
  next => exact absurd h (by simp)
  next hended =>
    unfold Feed.advance? Feed.handed
    rw [if_neg hended]
    cases hheld : feed.held with
    | some payload =>
      simp only [Feed.outcome?, hheld, Option.map_some] at h
      obtain ⟨⟨journal, hnet⟩, hreceived⟩ := dealWith?_eq h
      -- the thread is done with whatever has its number, which is the feed alone
      rw [Feeds.modify_eq hone] at hnet
      exact ⟨feed.finish, journal, rfl, hnet, hreceived⟩
    | none =>
      simp only [Feed.outcome?, hheld, Option.map_none] at h
      cases htake : feed.take? with
      | some taken =>
        simp only [htake] at h ⊢
        injection h with h
        rw [← h]
        exact ⟨taken, w.net.journal, rfl, rfl, (List.append_nil _).symm⟩
      | none =>
        simp only [htake] at h ⊢
        split at h
        next hspent =>
          injection h with h
          have hend := Feeds.modify_eq hone fun f => { f with ended := true }
          rw [hheld] at hend
          refine ⟨_, w.net.journal, if_pos hspent, ?_, ?_⟩
          · rw [← h, ← hend]
            rfl
          · rw [← h]
            exact (List.append_nil _).symm
        next => exact absurd h (by simp)

/-- A thread that has something to deal with and is not held up can go on. -/
theorem deliver?_isSome (hended : feed.ended = false) (hpaused : feed.id ∉ w.holds.paused)
    (hreports : w.holds.reports = false) (hbusy : feed.held ≠ none ∨ feed.pending ≠ []) :
    (w.deliver? feed).isSome = true := by
  have hnext := Feed.advance?_isSome hended hbusy
  unfold Feed.advance? at hnext
  unfold deliver?
  rw [if_neg (Bool.eq_false_iff.mp hended)] at hnext ⊢
  cases hheld : feed.held with
  | some payload =>
    simp only [Feed.outcome?, hheld, Option.map_some]
    cases feed.receive payload with
    | ok arrival => simp only [dealWith?, if_neg hpaused, Option.isSome_some]
    | error fault => simp [dealWith?, hreports]
  | none =>
    simp only [hheld] at hnext
    simp only [Feed.outcome?, hheld, Option.map_none]
    cases htake : feed.take? with
    | some taken => rfl
    | none =>
      simp only [htake] at hnext ⊢
      split
      next => rfl
      next hspent =>
        rw [if_neg hspent] at hnext
        exact hnext

end World

/-! ## What subscriptions have been handed -/

namespace Ledger

/-- What each subscription has been handed so far. -/
def hearings (l : Ledger ε) : List (Nat × List ε) :=
  l.subscriptions.map fun c => (c.id, c.item.heard)

theorem hearings_post (l : Ledger ε) (letter : Letter) :
    (l.post letter).hearings = l.hearings := by
  unfold hearings post
  rw [List.map_map]
  apply List.map_congr_left
  intro c _
  simp only [Function.comp_apply, Grant.update_id, Grant.update_item]
  split <;> rfl

theorem hearings_posts (letters : List Letter) (l : Ledger ε) :
    (letters.foldl post l).hearings = l.hearings := by
  induction letters generalizing l with
  | nil => rfl
  | cons letter letters ih => exact (ih (l.post letter)).trans (l.hearings_post letter)

theorem hearings_turn (l : Ledger ε) (feed : Feed ε) :
    (l.turn feed).hearings = l.hearings.map fun e =>
      if e.1 = feed.id then (e.1, e.2 ++ feed.handed) else e := by
  unfold hearings turn
  rw [List.map_map, List.map_map]
  apply List.map_congr_left
  intro c _
  simp only [Function.comp_apply, Grant.update_id, Grant.update_item]
  split
  next => rw [Intake.heard_advance]
  next => rfl

theorem hearings_fst_turn (l : Ledger ε) (feed : Feed ε) :
    (l.turn feed).hearings.map Prod.fst = l.hearings.map Prod.fst := by
  rw [hearings_turn, List.map_map]
  apply List.map_congr_left
  intro e _
  simp only [Function.comp_apply]
  split <;> rfl

theorem exists_hearing {l : Ledger ε} {c : Grant (Intake ε)} (hc : c ∈ l.subscriptions) :
    (c.id, c.item.heard) ∈ l.hearings := by
  unfold hearings
  exact List.mem_map_of_mem hc

end Ledger

/-- Nobody is handed anything by an operation; a new subscription starts with
nothing, under the next number. -/
theorem Audit.hearings_operation {a b : Audit ε} (h : Operation a b) :
    b.ledger.hearings = a.ledger.hearings ∨
      b.ledger.hearings = a.ledger.hearings ++ [(a.graph.lastId + 1, [])] := by
  cases h with
  | register _ name =>
    unfold register
    cases a.graph.register name with
    | mk result graph => cases result <;> exact .inl rfl
  | shutDown => exact .inl rfl
  | subscribe _ node topic capacity type callback =>
    unfold subscribe Graph.addSubscriber
    cases hbase : Graph.ensureTopic { a.graph with lastId := a.graph.lastId + 1 }
        (Name.resolve node.name topic) type.name type.md5 with
    | error e =>
      refine .inl ?_
      simp only [hbase]
    | ok g =>
      refine .inr ?_
      simp only [hbase]
      unfold Ledger.hearings Ledger.subscribe
      rw [List.map_append]
      rfl
  | publish _ node topic type =>
    unfold publish
    cases a.graph.publish node topic type with
    | mk result graph => cases result <;> exact .inl rfl
  | advertise _ node service type answer owns =>
    unfold advertise
    cases a.graph.addService node service type answer owns with
    | mk result graph => cases result <;> exact .inl rfl
  | send => exact .inl (Ledger.hearings_posts _ _)
  | log => exact .inl (Ledger.hearings_posts _ _)
  | drop => exact .inl rfl
  | journal => exact .inl rfl

namespace Watch

variable {u v : Watch μ}

/-- What was handed over is what subscribers have received. -/
structure Told (v : Watch μ) : Prop where
  received : ∀ e ∈ v.ledger.hearings, v.receivedBy e.1 = e.2.filterMap Arrival.value?
  known : ∀ e ∈ v.world.received, e.1 ∈ v.ledger.hearings.map Prod.fst

theorem told_operation (hs : Sound v.audit) (h : Told v) {b : Audit (Arrival μ)}
    (hb : Audit.Operation v.audit b) : Told (v.use b) := by
  -- `received` stays as it is, so only a new subscription needs an argument
  rcases Audit.hearings_operation hb with hsame | hmore
  · refine ⟨?_, ?_⟩
    · intro e he
      exact h.received e (hsame ▸ he)
    · intro e he
      show e.1 ∈ b.ledger.hearings.map Prod.fst
      rw [hsame]
      exact h.known e he
  · refine ⟨?_, ?_⟩
    · intro e he
      rcases List.mem_append.mp (hmore ▸ he) with hold | hnew
      · exact h.received e hold
      · -- nobody has received anything under a number that is new
        rw [List.mem_singleton.mp hnew]
        have hnone : v.world.received.filter (·.1 = v.world.net.lastId + 1) = [] := by
          rw [List.filter_eq_nil_iff]
          intro d hd hid
          obtain ⟨e', he', hfst⟩ := List.mem_map.mp (h.known d hd)
          obtain ⟨c, hc, rfl⟩ := List.mem_map.mp he'
          have hle := hs.numbered.bound _ (Ledger.id_mem_ids (Ledger.handle_of_subscription hc))
          have hlast : c.handle.id = v.world.net.lastId + 1 :=
            hfst.trans (of_decide_eq_true hid)
          have hle : c.handle.id ≤ v.world.net.lastId := hle
          omega
        show (v.world.received.filter (·.1 = v.world.net.lastId + 1)).map Prod.snd = []
        rw [hnone]
        rfl
    · intro e he
      show e.1 ∈ b.ledger.hearings.map Prod.fst
      rw [hmore, List.map_append]
      exact List.mem_append_left _ (h.known e he)

/-- What is received under a number goes to that number alone. -/
theorem receivedBy_append {w : World (Graph (Arrival μ)) μ} {l : Ledger (Arrival μ)} {source : Nat}
    {values : List μ} (hw : w.received = v.world.received ++ values.map fun m => (source, m))
    (id : Nat) :
    receivedBy ⟨w, l⟩ id = v.receivedBy id ++ if id = source then values else [] := by
  unfold receivedBy
  rw [hw, List.filter_append, List.map_append]
  refine congrArg (v.receivedBy id ++ ·) ?_
  by_cases hid : id = source
  · rw [if_pos hid, List.filter_eq_self.mpr, List.map_map]
    · exact List.map_id _
    · intro e he
      obtain ⟨m, -, rfl⟩ := List.mem_map.mp he
      exact decide_eq_true hid.symm
  · rw [if_neg hid, List.filter_eq_nil_iff.mpr]
    · rfl
    · intro e he heid
      obtain ⟨m, -, rfl⟩ := List.mem_map.mp he
      exact hid (of_decide_eq_true heid).symm

theorem told_deliver (hf : Fed v.audit) (hs : Sound v.audit) (h : Told v)
    {feed : Feed (Arrival μ)} (hfeed : feed ∈ v.world.net.feeds)
    {w : World (Graph (Arrival μ)) μ} (hw : v.world.deliver? feed = some w) :
    Told ⟨w, v.ledger.turn feed⟩ := by
  obtain ⟨-, -, -, -, hreceived⟩ :=
    World.deliver?_eq (fun f hf' => hf.feed_inj hs hf' hfeed) hw
  refine ⟨?_, ?_⟩
  · intro e' he'
    rw [Ledger.hearings_turn] at he'
    obtain ⟨e, he, rfl⟩ := List.mem_map.mp he'
    rw [receivedBy_append hreceived]
    by_cases hid : e.1 = feed.id
    · simp only [if_pos hid]
      rw [List.filterMap_append, ← h.received e he]
    · simp only [if_neg hid]
      exact (List.append_nil _).trans (h.received e he)
  · intro e he
    show e.1 ∈ (v.ledger.turn feed).hearings.map Prod.fst
    rw [Ledger.hearings_fst_turn]
    have he : e ∈ w.received := he
    rw [hreceived] at he
    rcases List.mem_append.mp he with hold | hnew
    · exact h.known e hold
    · -- a feed has the number of its grant
      obtain ⟨m, -, rfl⟩ := List.mem_map.mp hnew
      have hmem : feed.id ∈ v.ledger.subscriptions.map Grant.id :=
        hf.ids ▸ List.mem_map_of_mem hfeed
      obtain ⟨c, hc, hcid⟩ := List.mem_map.mp hmem
      exact List.mem_map.mpr ⟨_, Ledger.exists_hearing hc, hcid⟩

/-- What a delivery thread does is a turn of its feed, with perhaps a remark in the log. -/
theorem steps_deliver (ha : Audit.Reachable v.audit) {feed : Feed (Arrival μ)}
    (hfeed : feed ∈ v.world.net.feeds) {w : World (Graph (Arrival μ)) μ}
    (hw : v.world.deliver? feed = some w) :
    Audit.Steps v.audit (audit ⟨w, v.ledger.turn feed⟩) := by
  obtain ⟨next, journal, hnext, hnet, -⟩ :=
    World.deliver?_eq (fun f hf => ha.fed.feed_inj ha.sound hf hfeed) hw
  have hturn : Audit.Steps v.audit _ := .single (.turn feed (.advance _ hfeed next hnext))
  unfold audit at hturn ⊢
  rw [hnet]
  exact hturn.tail (.operation (.journal _ journal))

/-- **What is watched is a reachable audit**, and what it hands over is
received. -/
theorem Reachable.sound (h : v.Reachable) : Audit.Reachable v.audit ∧ Told v := by
  obtain ⟨u, ⟨hnet, hreceived, hledger⟩, hsteps⟩ := h
  induction hsteps with
  | refl =>
    refine ⟨?_, ?_, ?_⟩
    · unfold audit
      rw [hnet, hledger]
      exact .refl
    · intro e he
      rw [hledger] at he
      exact absurd he List.not_mem_nil
    · intro e he
      rw [hreceived] at he
      exact absurd he List.not_mem_nil
  | tail _ hstep ih =>
    obtain ⟨haudit, htold⟩ := ih
    cases hstep with
    | operation hb => exact ⟨haudit.tail (.operation hb), told_operation haudit.sound htold hb⟩
    | deliver feed hfeed hw =>
      exact ⟨haudit.trans (steps_deliver haudit hfeed hw),
        told_deliver haudit.fed haudit.sound htold hfeed hw⟩
    | beside w hnet hreceived =>
      refine ⟨?_, ?_, ?_⟩
      · unfold audit
        rw [hnet]
        exact haudit
      · intro e he
        unfold receivedBy
        rw [hreceived]
        exact htold.received e he
      · intro e he
        have he : e ∈ w.received := he
        rw [hreceived] at he
        exact htold.known e he

end Watch

end NodeGraph
