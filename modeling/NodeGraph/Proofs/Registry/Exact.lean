import NodeGraph.Message.Addition
import NodeGraph.Message.Text
import NodeGraph.Proofs.Registry.Tables

/-!
# The registry is exactly what is still held

A graph edits its tables in many places and forgets nothing by itself: every
entry has to be taken out by the drop of its handle or of its node, whichever
comes first, and by nothing else. The other one finds nothing to take out, even
when the name has long been given to somebody new.

> `Exact`: the nodes are the live ones, the topics are those of the open grants
> (`Tabled`), and the services are the open offers, each in the order in which
> they were granted.

`exact_beat` keeps it through every beat. A drop is where it could break: the
graph looks for a name *and* a number, the ledger for a number alone, and the two
agree because a number belongs to one handle and the handle names the topic
(`Numbered`, `Coherent`).

> `registry_exact`: in every reachable state the registry is the ledger's, all
> numbers are distinct and at most `lastId`, and what can be asked of a graph is
> answered by the open handles alone.
-/

namespace NodeGraph

variable {ε : Type}

/-- The tables of a graph are what the ledger says they should be. -/
structure Exact (g : Graph ε) (l : Ledger ε) : Prop where
  nodes : g.nodes = l.live
  nodeNames : (g.nodes.map Node.name).Nodup
  topics : Tabled g.topics l
  services : g.services = l.services
  serviceNames : (g.services.map Service.name).Nodup

/-- What is known of every reachable audit about its registry. -/
structure Sound (a : Audit ε) : Prop where
  numbered : Numbered a.graph a.ledger
  coherent : Coherent a.ledger
  exact : Exact a.graph a.ledger

/-! ## How the ledger's tables move -/

namespace Ledger

theorem live_enter (l : Ledger ε) {node : Node} (h : node.id ∉ l.down) :
    (l.enter node).live = l.live ++ [node] := by
  show (l.nodes ++ [node]).filter (fun n => decide (n.id ∉ l.down)) = l.live ++ [node]
  rw [List.filter_append, List.filter_cons_of_pos (by simpa using h), List.filter_nil]
  rfl

theorem services_offer (l : Ledger ε) {c : Grant Offer} (h : l.isOpen c = true) :
    (l.offer c).services = l.services ++ [c.service] := by
  show ((l.offers ++ [c]).filter l.isOpen).map Grant.service = _
  rw [List.filter_append, List.filter_cons_of_pos h, List.filter_nil, List.map_append]
  rfl

theorem services_drop (l : Ledger ε) (id : Nat) :
    (l.drop id).services = l.services.filter (·.id ≠ id) := by
  unfold services
  rw [show (l.drop id).offers = l.offers from rfl, opened_drop, List.filter_map]
  rfl

theorem services_shutDown (l : Ledger ε) (node : Nat) :
    (l.shutDown node).services = l.services.filter (·.node ≠ node) := by
  unfold services
  rw [show (l.shutDown node).offers = l.offers from rfl, opened_shutDown, List.filter_map]
  rfl

theorem mem_services {l : Ledger ε} {s : Service} :
    s ∈ l.services ↔ ∃ c ∈ l.offers, l.isOpen c = true ∧ c.service = s := by
  unfold services
  rw [List.mem_map]
  constructor
  · intro hex
    obtain ⟨c, hc, hs⟩ := hex
    exact ⟨c, (mem_opened.mp hc).1, (mem_opened.mp hc).2, hs⟩
  · intro hex
    obtain ⟨c, hc, hopen, hs⟩ := hex
    exact ⟨c, mem_opened.mpr ⟨hc, hopen⟩, hs⟩

/-- Whatever is in use after a drop was in use before. -/
theorem uses_of_uses_drop {l : Ledger ε} {id : Nat} {n : String} (h : (l.drop id).Uses n) :
    l.Uses n := by
  have hs : (l.drop id).subscribersOf n = (l.subscribersOf n).filter (·.id ≠ id) :=
    members_drop l l.subscriptions n id
  have hp : (l.drop id).publishersOf n = (l.publishersOf n).filter (·.id ≠ id) :=
    members_drop l l.publications n id
  unfold Uses at h
  rw [hs, hp] at h
  exact h.imp (fun hne he => hne (by rw [he, List.filter_nil]))
    (fun hne he => hne (by rw [he, List.filter_nil]))

/-- Whatever is in use after a shutdown was in use before. -/
theorem uses_of_uses_shutDown {l : Ledger ε} {node : Nat} {n : String}
    (h : (l.shutDown node).Uses n) : l.Uses n := by
  have hs : (l.shutDown node).subscribersOf n = (l.subscribersOf n).filter (·.node ≠ node) :=
    members_shutDown l l.subscriptions n node
  have hp : (l.shutDown node).publishersOf n = (l.publishersOf n).filter (·.node ≠ node) :=
    members_shutDown l l.publications n node
  unfold Uses at h
  rw [hs, hp] at h
  exact h.imp (fun hne he => hne (by rw [he, List.filter_nil]))
    (fun hne he => hne (by rw [he, List.filter_nil]))

/-- Letters and turns of threads leave everybody where they are. -/
theorem subscribersOf_post (l : Ledger ε) (letter : Letter) (n : String) :
    (l.post letter).subscribersOf n = l.subscribersOf n :=
  members_update l l.subscriptions n _

theorem subscribersOf_turn (l : Ledger ε) (feed : Feed ε) (n : String) :
    (l.turn feed).subscribersOf n = l.subscribersOf n :=
  members_update l l.subscriptions n _

end Ledger

/-! ## New members -/

namespace Audit

variable {a b : Audit ε}

theorem tabled_subscribe (h : Sound a) {c : Grant (Intake ε)} {base : List Topic} {t : Topic}
    (hopen : a.ledger.isOpen c = true)
    (hbase : Ensured a.graph.topics c.target c.item.type.md5 base t) :
    Tabled (base.map (changeTopic c.target (·.addSubscriber c.member)))
      (a.ledger.subscribe c) := by
  have hsubs : ∀ n, (a.ledger.subscribe c).subscribersOf n =
      if n = c.target then a.ledger.subscribersOf n ++ [c.member]
      else a.ledger.subscribersOf n := fun n => Ledger.members_append n hopen
  refine h.exact.topics.enroll hbase (fun _ => rfl) ?_ ?_ ?_
  · intro s hs
    rw [hsubs, ← hs]
    unfold changeTopic
    split
    · rfl
    · rfl
  · intro s hs
    unfold changeTopic
    split
    · exact hs
    · exact hs
  · intro n
    unfold Ledger.Uses
    rw [hsubs]
    by_cases hn : n = c.target
    · rw [if_pos hn]
      exact iff_of_true (.inl (List.concat_ne_nil _ _)) (.inr hn)
    · rw [if_neg hn, or_iff_left hn]
      rfl

theorem tabled_publish (h : Sound a) {c : Grant Outlet} {base : List Topic} {t : Topic}
    (hopen : a.ledger.isOpen c = true)
    (hbase : Ensured a.graph.topics c.target c.item.publisher.type.md5 base t) :
    Tabled (base.map (changeTopic c.target (·.addPublisher c.member)))
      (a.ledger.publish c) := by
  have hpubs : ∀ n, (a.ledger.publish c).publishersOf n =
      if n = c.target then a.ledger.publishersOf n ++ [c.member]
      else a.ledger.publishersOf n := fun n => Ledger.members_append n hopen
  refine h.exact.topics.enroll hbase (fun _ => rfl) ?_ ?_ ?_
  · intro s hs
    unfold changeTopic
    split
    · exact hs
    · exact hs
  · intro s hs
    rw [hpubs, ← hs]
    unfold changeTopic
    split
    · rfl
    · rfl
  · intro n
    unfold Ledger.Uses
    rw [hpubs]
    by_cases hn : n = c.target
    · rw [if_pos hn]
      exact iff_of_true (.inr (List.concat_ne_nil _ _)) (.inr hn)
    · rw [if_neg hn, or_iff_left hn]
      rfl

/-! ## Members that go -/

/-- The topic that a dropped handle names loses one member, or none if the
member was gone already; all others stay as they are. -/
theorem tabled_drop (h : Sound a) {r : Registration} {topic : String} (change : Topic → Topic)
    (hname : ∀ t, (change t).name = t.name)
    (hs : ∀ t ∈ a.graph.topics, (changeTopic topic change t).subscribers =
      (a.ledger.drop r.id).subscribersOf t.name)
    (hp : ∀ t ∈ a.graph.topics, (changeTopic topic change t).publishers =
      (a.ledger.drop r.id).publishersOf t.name) :
    Tabled ((a.graph.topics.map (changeTopic topic change)).filter
      fun t => t.name ≠ topic || t.isUsed) (a.ledger.drop r.id) := by
  have hname' : ∀ t, (changeTopic topic change t).name = t.name := changeTopic_name hname
  refine h.exact.topics.shrink hname' hs hp ?_ fun n => Ledger.uses_of_uses_drop
  intro t ht
  rw [hname']
  by_cases hn : t.name = topic
  · rw [decide_eq_false (not_not.mpr hn), Bool.false_or]
  · -- an untouched topic was in use before
    rw [decide_eq_true hn, Bool.true_or, changeTopic, if_neg hn, h.exact.topics.isUsed ht]

/-- Subscriptions stay where they are when something else is dropped, and also
on the topics that a dropped subscription was not on. -/
theorem subscribersOf_drop_of_ne (h : Sound a) {r : Registration} (hr : r ∈ a.ledger.handles)
    {n : String} (hne : ∀ id, r ≠ .subscriber n id) :
    (a.ledger.drop r.id).subscribersOf n = a.ledger.subscribersOf n := by
  refine h.numbered.members_drop_of_ne hr (fun c => Ledger.handle_of_subscription) ?_
  intro c hc ht he
  exact hne c.id (by rw [← he, h.coherent.subscription c hc, ht])

/-- The same for publishers. -/
theorem publishersOf_drop_of_ne (h : Sound a) {r : Registration} (hr : r ∈ a.ledger.handles)
    {n : String} (hne : ∀ id, r ≠ .publisher n id) :
    (a.ledger.drop r.id).publishersOf n = a.ledger.publishersOf n := by
  refine h.numbered.members_drop_of_ne hr (fun c => Ledger.handle_of_publication) ?_
  intro c hc ht he
  exact hne c.id (by rw [← he, (h.coherent.publication c hc).1, ht])

/-- The same for services, of which any other name will do. -/
theorem services_drop_of_ne (h : Sound a) {r : Registration} (hr : r ∈ a.ledger.handles)
    (hne : ∀ n id, r ≠ .service n id) : (a.ledger.drop r.id).services = a.ledger.services := by
  rw [Ledger.services_drop, List.filter_eq_self]
  intro s hs
  obtain ⟨c, hc, -, rfl⟩ := Ledger.mem_services.mp hs
  rw [decide_eq_true_iff]
  intro hid
  have he := h.numbered.handle_inj (Ledger.handle_of_offer hc) hr hid
  exact hne c.target c.id (he ▸ h.coherent.offer c hc)

theorem exact_drop_subscriber (h : Sound a) {topic : String} {id : Nat}
    (hr : .subscriber topic id ∈ a.ledger.handles) :
    Exact (a.graph.unregister (.subscriber topic id)) (a.ledger.drop id) := by
  refine ⟨h.exact.nodes, h.exact.nodeNames, ?_, ?_, h.exact.serviceNames⟩
  · refine tabled_drop h (r := .subscriber topic id) (·.withoutSubscriber id) (fun _ => rfl) ?_ ?_
    · intro t ht
      unfold changeTopic
      split
      next hn =>
        show t.subscribers.filter _ = _
        rw [h.exact.topics.subscribers t ht]
        exact (Ledger.members_drop _ _ _ _).symm
      next hn =>
        rw [h.exact.topics.subscribers t ht]
        refine (subscribersOf_drop_of_ne h hr fun id' he => hn ?_).symm
        injection he with he
        exact he.symm
    · intro t ht
      have hpub : (changeTopic topic (·.withoutSubscriber id) t).publishers = t.publishers := by
        unfold changeTopic
        split <;> rfl
      rw [hpub, h.exact.topics.publishers t ht]
      exact (publishersOf_drop_of_ne h hr fun _ => Registration.noConfusion).symm
  · have hsame := services_drop_of_ne h hr fun _ _ => Registration.noConfusion
    exact h.exact.services.trans hsame.symm

theorem exact_drop_publisher (h : Sound a) {topic : String} {id : Nat}
    (hr : .publisher topic id ∈ a.ledger.handles) :
    Exact (a.graph.unregister (.publisher topic id)) (a.ledger.drop id) := by
  refine ⟨h.exact.nodes, h.exact.nodeNames, ?_, ?_, h.exact.serviceNames⟩
  · refine tabled_drop h (r := .publisher topic id) (·.withoutPublisher id) (fun _ => rfl) ?_ ?_
    · intro t ht
      have hsub : (changeTopic topic (·.withoutPublisher id) t).subscribers = t.subscribers := by
        unfold changeTopic
        split <;> rfl
      rw [hsub, h.exact.topics.subscribers t ht]
      exact (subscribersOf_drop_of_ne h hr fun _ => Registration.noConfusion).symm
    · intro t ht
      unfold changeTopic
      split
      next hn =>
        show t.publishers.filter _ = _
        rw [h.exact.topics.publishers t ht]
        exact (Ledger.members_drop _ _ _ _).symm
      next hn =>
        rw [h.exact.topics.publishers t ht]
        refine (publishersOf_drop_of_ne h hr fun id' he => hn ?_).symm
        injection he with he
        exact he.symm
  · have hsame := services_drop_of_ne h hr fun _ _ => Registration.noConfusion
    exact h.exact.services.trans hsame.symm

/-- A service goes if both its name and its number are the handle's; by the
number alone it would be the same one. -/
theorem exact_drop_service (h : Sound a) {name : String} {id : Nat}
    (hr : .service name id ∈ a.ledger.handles) :
    Exact (a.graph.unregister (.service name id)) (a.ledger.drop id) := by
  have hservices : (a.graph.unregister (.service name id)).services =
      (a.ledger.drop id).services := by
    rw [Ledger.services_drop, ← h.exact.services]
    apply List.filter_congr
    intro s hs
    show (decide (s.name ≠ name) || decide (s.id ≠ id)) = decide (s.id ≠ id)
    by_cases hid : s.id = id
    · rw [h.exact.services] at hs
      obtain ⟨c, hc, -, rfl⟩ := Ledger.mem_services.mp hs
      -- the number is the handle's, so the name is too
      have he := h.numbered.handle_inj (Ledger.handle_of_offer hc) hr hid
      rw [h.coherent.offer c hc] at he
      injection he with hname _
      have hsame : c.service.name = name := hname
      rw [decide_eq_false (not_not.mpr hsame), Bool.false_or]
    · rw [decide_eq_true hid, Bool.or_true]
  refine ⟨h.exact.nodes, h.exact.nodeNames, ?_, hservices, ?_⟩
  · exact h.exact.topics.congr
      (fun n => subscribersOf_drop_of_ne h hr fun _ => Registration.noConfusion)
      (fun n => publishersOf_drop_of_ne h hr fun _ => Registration.noConfusion)
  · exact h.exact.serviceNames.sublist (List.filter_sublist.map _)

theorem exact_drop (h : Sound a) {r : Registration} (hr : r ∈ a.ledger.handles) :
    Exact (a.graph.unregister r) (a.ledger.drop r.id) := by
  cases r with
  | subscriber topic id => exact exact_drop_subscriber h hr
  | publisher topic id => exact exact_drop_publisher h hr
  | service name id => exact exact_drop_service h hr

/-- A node takes all its members out, wherever they are, and by its name only
itself. -/
theorem exact_shutDown (h : Sound a) {node : Node} (hnode : node ∈ a.ledger.live) :
    Exact (a.graph.removeNode node) (a.ledger.shutDown node.id) := by
  have hnodes : (a.graph.removeNode node).nodes = (a.ledger.shutDown node.id).live := by
    rw [Ledger.live_shutDown, ← h.exact.nodes]
    apply List.filter_congr
    intro n hn
    rw [Bool.eq_iff_iff, decide_eq_true_iff, decide_eq_true_iff, not_iff_not]
    have hnode' : node ∈ a.graph.nodes := h.exact.nodes ▸ hnode
    -- among live nodes the name and the number say the same
    constructor
    · intro hname
      rw [List.inj_on_of_nodup_map h.exact.nodeNames hn hnode' hname]
    · intro hid
      rw [h.exact.nodes] at hn
      rw [h.numbered.node_inj (Ledger.mem_live.mp hn).1 (Ledger.mem_live.mp hnode).1 hid]
  have hservices : (a.graph.removeNode node).services =
      (a.ledger.shutDown node.id).services := by
    rw [Ledger.services_shutDown, ← h.exact.services]
    rfl
  refine ⟨hnodes, ?_, ?_, hservices, ?_⟩
  · exact h.exact.nodeNames.sublist (List.filter_sublist.map _)
  · refine h.exact.topics.shrink (fun _ => rfl) ?_ ?_ (fun _ _ => rfl)
      fun n => Ledger.uses_of_uses_shutDown
    · intro t ht
      show t.subscribers.filter _ = _
      rw [h.exact.topics.subscribers t ht]
      exact (Ledger.members_shutDown _ _ _ _).symm
    · intro t ht
      show t.publishers.filter _ = _
      rw [h.exact.topics.publishers t ht]
      exact (Ledger.members_shutDown _ _ _ _).symm
  · exact h.exact.serviceNames.sublist (List.filter_sublist.map _)

/-! ## Every beat -/

theorem exact_beat (hb : Beat a b) (h : Sound a) : Exact b.graph b.ledger := by
  obtain ⟨hnum, hcoh, hnodes, hnames, htopics, hservices, hsnames⟩ := h
  have h : Sound a := ⟨hnum, hcoh, hnodes, hnames, htopics, hservices, hsnames⟩
  cases hb with
  | journal => exact ⟨hnodes, hnames, htopics, hservices, hsnames⟩
  | skip => exact ⟨hnodes, hnames, htopics, hservices, hsnames⟩
  | enter node hid hname =>
    -- nobody of a number that is new was ever shut down
    have hup : node.id ∉ a.ledger.down := by
      intro hdown
      have := hnum.down _ hdown
      omega
    refine ⟨?_, ?_, htopics.congr (fun _ => rfl) fun _ => rfl, hservices, hsnames⟩
    · show a.graph.nodes ++ [node] = _
      rw [Ledger.live_enter _ hup, hnodes]
    · show ((a.graph.nodes ++ [node]).map Node.name).Nodup
      rw [List.map_append, List.nodup_append]
      refine ⟨hnames, List.nodup_singleton _, ?_⟩
      intro x hx y hy hxy
      obtain ⟨n, hn, hnx⟩ := List.mem_map.mp hx
      exact hname n hn ((hnx.trans hxy).trans (List.mem_singleton.mp hy))
  | subscribe c base t hlive hhandle _ hbase =>
    have hopen := hnum.isOpen_of_next (congrArg Registration.id hhandle) hlive
    exact ⟨hnodes, hnames, tabled_subscribe h hopen hbase, hservices, hsnames⟩
  | publish c base t hlive hhandle _ _ hbase =>
    have hopen := hnum.isOpen_of_next (congrArg Registration.id hhandle) hlive
    exact ⟨hnodes, hnames, tabled_publish h hopen hbase, hservices, hsnames⟩
  | offer c hlive hhandle hname =>
    have hopen := hnum.isOpen_of_next (congrArg Registration.id hhandle) hlive
    refine ⟨hnodes, hnames, htopics.congr (fun _ => rfl) fun _ => rfl, ?_, ?_⟩
    · show a.graph.services ++ [c.service] = _
      rw [Ledger.services_offer _ hopen, hservices]
    · show ((a.graph.services ++ [c.service]).map Service.name).Nodup
      rw [List.map_append, List.nodup_append]
      refine ⟨hsnames, List.nodup_singleton _, ?_⟩
      intro x hx y hy hxy
      obtain ⟨s, hs, hsx⟩ := List.mem_map.mp hx
      exact hname s hs ((hsx.trans hxy).trans (List.mem_singleton.mp hy))
  | post letter t _ _ =>
    exact ⟨hnodes, hnames,
      htopics.congr (Ledger.subscribersOf_post a.ledger letter) fun _ => rfl, hservices, hsnames⟩
  | drop r hr => exact exact_drop h hr.1
  | shutDown node hnode => exact exact_shutDown h hnode
  | turn feed _ _ _ =>
    exact ⟨hnodes, hnames,
      htopics.congr (Ledger.subscribersOf_turn a.ledger feed) fun _ => rfl, hservices, hsnames⟩

theorem exact_start : Exact ({} : Graph ε) {} :=
  ⟨rfl, List.nodup_nil,
    ⟨List.nodup_nil, by simp, by simp, by
      simp [Ledger.Uses, Ledger.subscribersOf, Ledger.publishersOf, Ledger.members,
        Ledger.opened]⟩,
    rfl, List.nodup_nil⟩

theorem sound_beat (hb : Beat a b) (h : Sound a) : Sound b :=
  ⟨numbered_beat hb h.numbered, coherent_beat hb h.coherent, exact_beat hb h⟩

theorem sound_start : Sound ({} : Audit ε) := ⟨numbered_start, coherent_start, exact_start⟩

/-- What every beat preserves in a sound audit, any number of steps preserves. -/
theorem Steps.preserve_sound {P : Audit ε → Prop} (h : Steps a b) (hs : Sound a)
    (beat : ∀ {c d : Audit ε}, Beat c d → Sound c → P c → P d) (ha : P a) : P b := by
  have hboth : Sound b ∧ P b := by
    refine Steps.preserve (P := fun a => Sound a ∧ P a) h ?_ ⟨hs, ha⟩
    intro c d hb hc
    exact ⟨sound_beat hb hc.1, beat hb hc.1 hc.2⟩
  exact hboth.2

/-- All that is reachable is sound. -/
theorem Reachable.sound (h : Reachable a) : Sound a := Steps.preserve h sound_beat sound_start

end Audit

/-! ## The registry of every reachable state -/

namespace Sound

variable {a : Audit ε}

/-- Exactly the live nodes are alive. -/
theorem isAlive_iff (h : Sound a) {node : Nat} :
    a.graph.isAlive node = true ↔ ∃ n ∈ a.ledger.live, n.id = node := by
  unfold Graph.isAlive
  rw [h.exact.nodes, List.any_eq_true]
  constructor
  · intro hex
    obtain ⟨n, hn, hid⟩ := hex
    exact ⟨n, hn, of_decide_eq_true hid⟩
  · intro hex
    obtain ⟨n, hn, hid⟩ := hex
    exact ⟨n, hn, decide_eq_true hid⟩

theorem subscriberCount_eq (h : Sound a) (topic : String) :
    a.graph.subscriberCount topic =
      (a.ledger.subscribersOf (Name.resolve "/" topic)).length := by
  unfold Graph.subscriberCount Graph.topic?
  cases hf : a.graph.topics.find? (·.name = Name.resolve "/" topic) with
  | some t =>
    obtain ⟨ht, hn⟩ := mem_of_find?_topic hf
    show t.subscribers.length = _
    rw [h.exact.topics.subscribers t ht, hn]
  | none =>
    -- a topic that is not there is one that nobody uses
    have hempty : a.ledger.subscribersOf (Name.resolve "/" topic) = [] := by
      by_contra hne
      obtain ⟨t, ht, hn⟩ := (h.exact.topics.exists_iff _).mpr (.inl hne)
      exact List.find?_eq_none.mp hf t ht (decide_eq_true hn)
    rw [hempty]
    rfl

theorem hasService_iff (h : Sound a) (service : String) :
    a.graph.hasService service = true ↔
      ∃ c ∈ a.ledger.offers, a.ledger.isOpen c = true ∧ c.target = Name.resolve "/" service := by
  unfold Graph.hasService Graph.service?
  rw [List.find?_isSome, h.exact.services]
  constructor
  · intro hex
    obtain ⟨s, hs, hn⟩ := hex
    obtain ⟨c, hc, hopen, rfl⟩ := Ledger.mem_services.mp hs
    exact ⟨c, hc, hopen, of_decide_eq_true hn⟩
  · intro hex
    obtain ⟨c, hc, hopen, hn⟩ := hex
    exact ⟨c.service, Ledger.mem_services.mpr ⟨c, hc, hopen, rfl⟩, decide_eq_true hn⟩

end Sound

namespace Audit

variable {a : Audit ε}

/-- **The registry is exactly what is still held.** In every reachable state the
nodes are the live ones under the names they resolved to, a topic is there if and
only if somebody holds an open grant on it and lists exactly these grants with
their nodes, and the services are the open offers; numbers are distinct and at
most `lastId`. So whatever is asked of the graph is answered by what is held and
up, and by nothing that is gone. -/
theorem registry_exact (h : Reachable a) :
    Exact a.graph a.ledger ∧
    a.ledger.ids.Nodup ∧ (∀ id ∈ a.ledger.ids, id ≤ a.graph.lastId) ∧
    a.graph.nodeNames.Perm (a.ledger.live.map Node.name) ∧
    (∀ topic, a.graph.subscriberCount topic =
      (a.ledger.subscribersOf (Name.resolve "/" topic)).length) ∧
    (∀ service, a.graph.hasService service = true ↔
      ∃ c ∈ a.ledger.offers, a.ledger.isOpen c = true ∧ c.target = Name.resolve "/" service) := by
  have hs := h.sound
  refine ⟨hs.exact, hs.numbered.ids, hs.numbered.bound, ?_, hs.subscriberCount_eq,
    hs.hasService_iff⟩
  unfold Graph.nodeNames
  rw [hs.exact.nodes]
  exact List.mergeSort_perm _ _

/-- A node `/a` with a subscription, a publisher and a service. -/
def foundation : Audit String :=
  let node : Node := ⟨1, "/a"⟩
  let a : Audit String := ({} : Audit String).register "a"
  let a := a.subscribe node "t" 1 Text.type Text.data
  let a := a.publish node "t" Text.type
  a.advertise node "s" Addition.service (fun _ => .done (.ok ⟨0⟩)) []

/-- The node goes, and another one takes its name and all three of its names, for
messages of another type. -/
def succession : Audit String :=
  let node : Node := ⟨5, "/a"⟩
  let a := (foundation.shutDown ⟨1, "/a"⟩).register "a"
  let a := a.subscribe node "t" 2 Addition.Pair.type fun _ => ""
  let a := a.publish node "t" Addition.Pair.type
  a.advertise node "s" Addition.service (fun _ => .done (.ok ⟨1⟩)) []

theorem foundation_reachable : Reachable foundation := by
  unfold foundation
  refine .tail (.tail (.tail (.tail .refl
    (.operation (.register _ "a")))
    (.operation (.subscribe _ ⟨1, "/a"⟩ "t" 1 Text.type Text.data ?_)))
    (.operation (.publish _ ⟨1, "/a"⟩ "t" Text.type ?_)))
    (.operation (.advertise _ ⟨1, "/a"⟩ "s" _ _ [] ?_))
  all_goals decide

theorem succession_steps : Steps (foundation.shutDown ⟨1, "/a"⟩) succession := by
  unfold succession
  refine .tail (.tail (.tail (.tail .refl
    (.operation (.register _ "a")))
    (.operation (.subscribe _ ⟨5, "/a"⟩ "t" 2 Addition.Pair.type (fun _ => "") ?_)))
    (.operation (.publish _ ⟨5, "/a"⟩ "t" Addition.Pair.type ?_)))
    (.operation (.advertise _ ⟨5, "/a"⟩ "s" _ _ [] ?_))
  all_goals decide

theorem succession_reachable : Reachable succession :=
  (foundation_reachable.tail (.operation (.shutDown _ ⟨1, "/a"⟩ (by decide)))).trans
    succession_steps

/-- After the succession the topic lists the new subscription alone. -/
theorem registry_exact_succession :
    Reachable succession ∧ Exact succession.graph succession.ledger ∧
    succession.ledger.subscriptions.length = 2 ∧ succession.graph.subscriberCount "t" = 1 := by
  obtain ⟨hexact, -, -, -, hcount, -⟩ := registry_exact succession_reachable
  refine ⟨succession_reachable, hexact, by decide, ?_⟩
  rw [hcount]
  decide

end Audit

end NodeGraph
