import Mathlib.Data.List.Induction
import NodeGraph.Graph.Teardown
import NodeGraph.Proofs.Registry.Shutdown

/-!
# Dropping in any order

When several handles and nodes are dropped one after the other, the order should not matter.
It is not plain that it does not. A node takes out by its number whatever is still its own,
and looks at every topic for that; a handle takes out one entry, if a node has not done so
before it, and looks at one topic. What a node closes depends on what is left of its
subscriptions when its turn comes.

> `Graph.without`: the graph as it should be without some handles, in one go. An entry goes
> if its own handle is among them or its node is, and what is left on a topic stays as it is.
> Who comes first does not come into it.
>
> `drop_eq`: dropping one handle is being without it. `without_append`: being without some
> and then without others is being without all of them.
>
> `teardown_order`: so in every reachable state, dropping handles that are held and nodes
> that are up leaves the graph without them, in whatever order they go.
-/

namespace NodeGraph

variable {ε : Type}

/-! ## What goes with a handle -/

/-- Whether an entry goes with a handle: with its own, or with that of its node. -/
def Handle.takes (own : Registration) (node : Nat) : Handle → Bool
  | .node n => n.id = node
  | .logger _ => false
  | .registration r => r = own

/-- Whether an entry goes with one of some handles. -/
def Registration.isLost (handles : List Handle) (node : Nat) (own : Registration) : Bool :=
  handles.any (Handle.takes own node)

/-- A topic without the members that go. -/
def Topic.without (handles : List Handle) (t : Topic) : Topic :=
  { t with
    publishers := t.publishers.filter fun m =>
      !(Registration.publisher t.name m.id).isLost handles m.node
    subscribers := t.subscribers.filter fun m =>
      !(Registration.subscriber t.name m.id).isLost handles m.node }

/-- Whether a service goes. -/
def Service.isLost (handles : List Handle) (s : Service) : Bool :=
  (Registration.service s.name s.id).isLost handles s.node

namespace Graph

/-- A graph without some handles and nodes, and all that goes with them. -/
def without (g : Graph ε) (handles : List Handle) : Graph ε :=
  { g with
    nodes := g.nodes.filter fun n => .node n ∉ handles
    topics := (g.topics.map (Topic.without handles)).filter Topic.isUsed
    services := g.services.filter fun s => !s.isLost handles
    feeds := g.feeds.close (handles.flatMap g.closes) }

/-- Drops some handles one after the other under the lock: the graph afterwards, or nothing
if one of the drops waits for itself. -/
def dropEachLocked? (g : Graph ε) (handles : List Handle) : Option (Graph ε) :=
  handles.foldlM dropLocked? g

end Graph

namespace Registration

theorem isLost_append (hs hs' : List Handle) (node : Nat) (own : Registration) :
    own.isLost (hs ++ hs') node = (own.isLost hs node || own.isLost hs' node) :=
  List.any_append

/-- An entry goes if its own handle does, or its node. -/
theorem isLost_iff {handles : List Handle} {node : Nat} {own : Registration} :
    own.isLost handles node = true ↔
      .registration own ∈ handles ∨ ∃ n, .node n ∈ handles ∧ n.id = node := by
  unfold isLost
  rw [List.any_eq_true]
  constructor
  · intro hex
    obtain ⟨handle, hmem, htakes⟩ := hex
    cases handle with
    | node n => exact .inr ⟨n, hmem, of_decide_eq_true htakes⟩
    | logger l => exact absurd htakes Bool.false_ne_true
    | registration r => exact .inl (of_decide_eq_true htakes ▸ hmem)
  · intro hor
    rcases hor with hmem | ⟨n, hmem, hid⟩
    · exact ⟨_, hmem, decide_eq_true rfl⟩
    · exact ⟨_, hmem, decide_eq_true hid⟩

end Registration

/-! ## What is asked of the graph -/

/-- Every topic is in use, live nodes have their names to themselves, and a feed is open or
closed. -/
structure Tidy (g : Graph ε) : Prop where
  used : ∀ t ∈ g.topics, t.isUsed = true
  names : (g.nodes.map Node.name).Nodup
  senders : ∀ f ∈ g.feeds, f.queue.channel.senders ≤ 1

/-- Closing a feed twice is closing it. -/
theorem Feed.close_close {f : Feed ε} (h : f.queue.channel.senders ≤ 1) :
    f.close.close = f.close := by
  refine close_of_senders ?_
  show f.queue.channel.senders - 1 = 0
  omega

theorem Topic.isUsed_of_without {hs : List Handle} {t : Topic}
    (h : (t.without hs).isUsed = true) : t.isUsed = true := by
  rw [isUsed_iff] at h ⊢
  refine h.imp (fun hne hnil => hne ?_) fun hne hnil => hne ?_
  · show t.subscribers.filter _ = []
    rw [hnil, List.filter_nil]
  · show t.publishers.filter _ = []
    rw [hnil, List.filter_nil]

theorem Topic.without_append (hs hs' : List Handle) (t : Topic) :
    (t.without hs).without hs' = t.without (hs ++ hs') := by
  unfold without
  simp only [List.filter_filter, Registration.isLost_append, Bool.not_or, Bool.and_comm]

namespace Tidy

variable {g : Graph ε}

theorem without (h : Tidy g) (hs : List Handle) : Tidy (g.without hs) where
  used := fun _ ht => (List.mem_filter.mp ht).2
  names := h.names.sublist (List.filter_sublist.map _)
  senders := by
    intro f' hf'
    obtain ⟨f, hf, rfl⟩ := List.mem_map.mp hf'
    have hle := h.senders f hf
    split
    · exact Nat.le_trans (Nat.sub_le _ _) hle
    · exact hle

end Tidy

/-! ## One drop -/

/-- A topic looked at for one member goes if it is not in use any more, as others would. -/
theorem filter_prune {topics : List Topic} (hused : ∀ t ∈ topics, t.isUsed = true)
    (name : String) (change : Topic → Topic) (hname : ∀ t, (change t).name = t.name) :
    ((topics.map (changeTopic name change)).filter fun t => t.name ≠ name || t.isUsed) =
      (topics.map (changeTopic name change)).filter Topic.isUsed := by
  apply List.filter_congr
  intro s hs
  obtain ⟨t, ht, rfl⟩ := List.mem_map.mp hs
  rw [changeTopic_name hname]
  by_cases hn : t.name = name
  · rw [decide_eq_false (not_not.mpr hn), Bool.false_or]
  · rw [show changeTopic name change t = t from if_neg hn, hused t ht, Bool.or_true]

namespace Topic

theorem without_subscriber (topic : String) (id : Nat) :
    Topic.without [.registration (.subscriber topic id)] =
      changeTopic topic (·.withoutSubscriber id) := by
  funext t
  unfold without changeTopic withoutSubscriber Registration.isLost
  simp only [List.any_cons, List.any_nil, Handle.takes, Bool.or_false, reduceCtorEq,
    decide_false, Bool.not_false, List.filter_true, Registration.subscriber.injEq]
  by_cases hn : t.name = topic
  · simp [hn, eq_comm]
  · simp [hn, Ne.symm hn]

theorem without_publisher (topic : String) (id : Nat) :
    Topic.without [.registration (.publisher topic id)] =
      changeTopic topic (·.withoutPublisher id) := by
  funext t
  unfold without changeTopic withoutPublisher Registration.isLost
  simp only [List.any_cons, List.any_nil, Handle.takes, Bool.or_false, reduceCtorEq,
    decide_false, Bool.not_false, List.filter_true, Registration.publisher.injEq]
  by_cases hn : t.name = topic
  · simp [hn, eq_comm]
  · simp [hn, Ne.symm hn]

theorem without_service (name : String) (id : Nat) (t : Topic) :
    t.without [.registration (.service name id)] = t := by
  unfold without Registration.isLost
  simp [Handle.takes]

theorem without_node (node : Node) (t : Topic) :
    t.without [.node node] = t.withoutNode node.id := by
  unfold without withoutNode Registration.isLost
  simp [Handle.takes, eq_comm]

theorem without_logger (logger : Logger) (t : Topic) : t.without [.logger logger] = t := by
  unfold without Registration.isLost
  simp [Handle.takes]

end Topic

namespace Service

theorem isLost_node (node : Node) (s : Service) :
    s.isLost [.node node] = decide (s.node = node.id) := by
  simp [isLost, Registration.isLost, Handle.takes, eq_comm]

theorem isLost_logger (logger : Logger) (s : Service) : s.isLost [.logger logger] = false := rfl

theorem isLost_subscriber (topic : String) (id : Nat) (s : Service) :
    s.isLost [.registration (.subscriber topic id)] = false := by
  simp [isLost, Registration.isLost, Handle.takes]

theorem isLost_publisher (topic : String) (id : Nat) (s : Service) :
    s.isLost [.registration (.publisher topic id)] = false := by
  simp [isLost, Registration.isLost, Handle.takes]

theorem isLost_service (name : String) (id : Nat) (s : Service) :
    s.isLost [.registration (.service name id)] =
      (decide (s.name = name) && decide (s.id = id)) := by
  simp [isLost, Registration.isLost, Handle.takes, eq_comm]

theorem isLost_append (hs hs' : List Handle) (s : Service) :
    s.isLost (hs ++ hs') = (s.isLost hs || s.isLost hs') :=
  Registration.isLost_append hs hs' s.node _

end Service

namespace Graph

variable {g g' : Graph ε}

theorem nodes_without {hs : List Handle} (h : ∀ n, .node n ∉ hs) :
    (g.without hs).nodes = g.nodes :=
  List.filter_eq_self.mpr fun n _ => decide_eq_true (h n)

theorem services_without {hs : List Handle} (h : ∀ s ∈ g.services, s.isLost hs = false) :
    (g.without hs).services = g.services :=
  List.filter_eq_self.mpr fun s hs => by rw [h s hs, Bool.not_false]

/-- Graphs that agree in everything but the process log. -/
theorem eq_with_journal (g g' : Graph ε) (hid : g.lastId = g'.lastId) (hnodes : g.nodes = g'.nodes)
    (htopics : g.topics = g'.topics) (hservices : g.services = g'.services)
    (hfeeds : g.feeds = g'.feeds) : g = { g' with journal := g.journal } := by
  rcases g with ⟨lastId, nodes, topics, services, feeds, journal⟩
  rcases g' with ⟨lastId', nodes', topics', services', feeds', journal'⟩
  obtain rfl : lastId = lastId' := hid
  obtain rfl : nodes = nodes' := hnodes
  obtain rfl : topics = topics' := htopics
  obtain rfl : services = services' := hservices
  obtain rfl : feeds = feeds' := hfeeds
  rfl

/-- **Dropping a handle is being without it.** A node goes by its name, which it has to
itself while it is up. -/
theorem drop_eq (h : Tidy g) (handle : Handle) (hup : ∀ n, handle = .node n → n ∈ g.nodes) :
    g.drop handle = { g.without [handle] with journal := (g.drop handle).journal } := by
  have hfeeds : (g.drop handle).feeds = (g.without [handle]).feeds := by
    rw [feeds_drop]
    show _ = g.feeds.close ([handle].flatMap g.closes)
    rw [List.flatMap_singleton]
  have hused : g.topics = g.topics.filter Topic.isUsed := (List.filter_eq_self.mpr h.used).symm
  rcases handle with node | logger | registration
  · refine eq_with_journal _ _ rfl ?_ ?_ ?_ hfeeds
    · apply List.filter_congr
      intro n hn
      rw [Bool.eq_iff_iff, decide_eq_true_iff, decide_eq_true_iff, List.mem_singleton,
        Handle.node.injEq, not_iff_not]
      exact ⟨List.inj_on_of_nodup_map h.names hn (hup node rfl), congrArg Node.name⟩
    · show (g.topics.map (Topic.withoutNode · node.id)).filter _ = _
      rw [← funext (Topic.without_node node)]
      rfl
    · exact List.filter_congr fun s _ => by rw [Service.isLost_node, decide_not]
  · refine eq_with_journal _ _ rfl (nodes_without (by simp)).symm ?_
      (services_without fun s _ => Service.isLost_logger logger s).symm hfeeds
    show g.topics = (g.topics.map (Topic.without [.logger logger])).filter _
    rw [List.map_id'' (Topic.without_logger logger)]
    exact hused
  · have hnodes : ∀ {r}, (g.without [.registration r]).nodes = g.nodes :=
      nodes_without (by simp)
    rcases registration with ⟨topic, id⟩ | ⟨topic, id⟩ | ⟨name, id⟩
    · refine eq_with_journal _ _ rfl hnodes.symm ?_
        (services_without fun s _ => Service.isLost_subscriber topic id s).symm hfeeds
      refine (filter_prune h.used topic (·.withoutSubscriber id) fun _ => rfl).trans ?_
      rw [← Topic.without_subscriber]
      rfl
    · refine eq_with_journal _ _ rfl hnodes.symm ?_
        (services_without fun s _ => Service.isLost_publisher topic id s).symm hfeeds
      refine (filter_prune h.used topic (·.withoutPublisher id) fun _ => rfl).trans ?_
      rw [← Topic.without_publisher]
      rfl
    · refine eq_with_journal _ _ rfl hnodes.symm ?_ ?_ hfeeds
      · show g.topics = (g.topics.map (Topic.without _)).filter _
        rw [List.map_id'' (Topic.without_service name id)]
        exact hused
      · apply List.filter_congr
        intro s _
        rw [Service.isLost_service, Bool.not_and, decide_not, decide_not]

/-! ## One after the other -/

theorem mem_subscriptionsOf {node id : Nat} :
    id ∈ g.subscriptionsOf node ↔
      ∃ t ∈ g.topics, ∃ m ∈ t.subscribers, m.node = node ∧ m.id = id := by
  unfold subscriptionsOf
  simp only [List.mem_map, List.mem_filter, List.mem_flatMap, decide_eq_true_iff]
  constructor
  · rintro ⟨m, ⟨⟨t, ht, hm⟩, hnode⟩, hid⟩
    exact ⟨t, ht, m, hm, hnode, hid⟩
  · rintro ⟨t, ht, m, hm, hnode, hid⟩
    exact ⟨m, ⟨⟨t, ht, hm⟩, hnode⟩, hid⟩

/-- A subscription of a node goes with the node, or has gone before. -/
theorem subscriptionsOf_without (g : Graph ε) (hs : List Handle) {node id : Nat}
    (h : id ∈ g.subscriptionsOf node) :
    id ∈ hs.flatMap g.closes ∨ id ∈ (g.without hs).subscriptionsOf node := by
  obtain ⟨t, ht, m, hm, hnode, rfl⟩ := mem_subscriptionsOf.mp h
  by_cases hlost : (Registration.subscriber t.name m.id).isLost hs m.node = true
  · left
    rcases Registration.isLost_iff.mp hlost with hown | ⟨n, hn, hid⟩
    · exact List.mem_flatMap.mpr ⟨_, hown, List.mem_singleton_self _⟩
    · exact List.mem_flatMap.mpr ⟨_, hn, mem_subscriptionsOf.mpr ⟨t, ht, m, hm, hid.symm, rfl⟩⟩
  · right
    have hkept : m ∈ (t.without hs).subscribers :=
      List.mem_filter.mpr ⟨hm, by rw [Bool.eq_false_iff.mpr hlost, Bool.not_false]⟩
    have hused : (t.without hs).isUsed = true :=
      Topic.isUsed_iff.mpr (.inl (List.ne_nil_of_mem hkept))
    exact mem_subscriptionsOf.mpr
      ⟨_, List.mem_filter.mpr ⟨List.mem_map_of_mem ht, hused⟩, m, hkept, hnode, rfl⟩

/-- Being without some handles gives a node no subscription that it did not have. -/
theorem subscriptionsOf_of_without {hs : List Handle} {node id : Nat}
    (h : id ∈ (g.without hs).subscriptionsOf node) : id ∈ g.subscriptionsOf node := by
  obtain ⟨t', ht', m, hm, hnode, hid⟩ := mem_subscriptionsOf.mp h
  obtain ⟨t, ht, rfl⟩ := List.mem_map.mp (List.mem_filter.mp ht').1
  exact mem_subscriptionsOf.mpr ⟨t, ht, m, (List.mem_filter.mp hm).1, hnode, hid⟩

theorem closes_registration (g : Graph ε) (hs : List Handle) (r : Registration) :
    (g.without hs).closes (.registration r) = g.closes (.registration r) := by
  cases r <;> rfl

/-- What closes with all handles has closed with some, or closes with the others. -/
theorem mem_closes_append (g : Graph ε) (hs hs' : List Handle) (id : Nat) :
    id ∈ (hs ++ hs').flatMap g.closes ↔
      id ∈ hs.flatMap g.closes ∨ id ∈ hs'.flatMap (g.without hs).closes := by
  rw [List.flatMap_append, List.mem_append]
  constructor
  · intro hor
    rcases hor with hfirst | hsecond
    · exact .inl hfirst
    · obtain ⟨handle, hmem, hcloses⟩ := List.mem_flatMap.mp hsecond
      cases handle with
      | node n =>
        exact (g.subscriptionsOf_without hs hcloses).imp_right
          fun hleft => List.mem_flatMap.mpr ⟨_, hmem, hleft⟩
      | logger l => exact absurd hcloses List.not_mem_nil
      | registration r =>
        exact .inr (List.mem_flatMap.mpr ⟨_, hmem, closes_registration g _ r ▸ hcloses⟩)
  · refine Or.imp_right fun hsecond => ?_
    obtain ⟨handle, hmem, hcloses⟩ := List.mem_flatMap.mp hsecond
    refine List.mem_flatMap.mpr ⟨handle, hmem, ?_⟩
    cases handle with
    | node n => exact subscriptionsOf_of_without hcloses
    | logger l => exact hcloses
    | registration r => exact closes_registration g hs r ▸ hcloses

theorem close_append {fs : Feeds ε} (h : ∀ f ∈ fs, f.queue.channel.senders ≤ 1)
    {ids ids' all : List Nat} (hall : ∀ id, id ∈ all ↔ id ∈ ids ∨ id ∈ ids') :
    (fs.close ids).close ids' = fs.close all := by
  unfold Feeds.close
  rw [List.map_map]
  apply List.map_congr_left
  intro f hf
  have hid : (if f.id ∈ ids then f.close else f).id = f.id := by split <;> rfl
  simp only [Function.comp_apply, hid, hall]
  by_cases hfirst : f.id ∈ ids <;> by_cases hsecond : f.id ∈ ids' <;>
    simp [hfirst, hsecond, Feed.close_close (h f hf)]

/-- **Being without some and then without others is being without all of them.** -/
theorem without_append (h : Tidy g) (hs hs' : List Handle) :
    (g.without hs).without hs' = g.without (hs ++ hs') := by
  have hnodes : ((g.without hs).without hs').nodes = (g.without (hs ++ hs')).nodes := by
    show (g.nodes.filter _).filter _ = g.nodes.filter _
    rw [List.filter_filter]
    simp only [List.mem_append, not_or, Bool.decide_and, Bool.and_comm]
  have htopics : ((g.without hs).without hs').topics = (g.without (hs ++ hs')).topics := by
    show (((g.topics.map (Topic.without hs)).filter Topic.isUsed).map
      (Topic.without hs')).filter _ = (g.topics.map (Topic.without (hs ++ hs'))).filter _
    have hboth : Topic.without hs' ∘ Topic.without hs = Topic.without (hs ++ hs') :=
      funext (Topic.without_append hs hs')
    rw [List.filter_map, List.filter_map, List.filter_map, List.map_map, List.filter_map,
      hboth]
    congr 1
    rw [List.filter_filter]
    apply List.filter_congr
    intro t _
    show (((t.without hs).without hs').isUsed && (t.without hs).isUsed) =
      (t.without (hs ++ hs')).isUsed
    -- a topic that is in use in the end was in use in between
    rw [← Topic.without_append, Bool.eq_iff_iff, Bool.and_eq_true]
    exact and_iff_left_of_imp Topic.isUsed_of_without
  have hservices : ((g.without hs).without hs').services =
      (g.without (hs ++ hs')).services := by
    show (g.services.filter _).filter _ = g.services.filter _
    rw [List.filter_filter]
    simp only [Service.isLost_append, Bool.not_or, Bool.and_comm]
  have hfeeds : ((g.without hs).without hs').feeds = (g.without (hs ++ hs')).feeds :=
    close_append h.senders (g.mem_closes_append hs hs')
  exact eq_with_journal _ (g.without (hs ++ hs')) rfl hnodes htopics hservices hfeeds

/-- Being without nothing is being as before. -/
theorem without_nil (h : Tidy g) : g.without [] = g := by
  refine eq_with_journal (g.without []) g rfl (nodes_without (by simp)) ?_
    (services_without fun _ _ => rfl) ?_
  · show (g.topics.map (Topic.without [])).filter _ = _
    rw [List.map_id'' fun t => ?_, List.filter_eq_self.mpr h.used]
    unfold Topic.without Registration.isLost
    simp
  · show g.feeds.close [] = g.feeds
    unfold Feeds.close
    simp

/-- **Dropping handles one after the other is being without them.** -/
theorem dropEach_eq (h : Tidy g) {hs : List Handle} (hup : ∀ n, .node n ∈ hs → n ∈ g.nodes)
    (hnodup : hs.Nodup) :
    g.dropEach hs = { g.without hs with journal := (g.dropEach hs).journal } := by
  induction hs using List.reverseRecOn with
  | nil =>
    rw [without_nil h]
    rfl
  | append_singleton hs handle ih =>
    have hnodup := List.nodup_append.mp hnodup
    have hbefore := ih (fun n hn => hup n (List.mem_append_left _ hn)) hnodup.1
    have hlast : g.dropEach (hs ++ [handle]) = (g.dropEach hs).drop handle := List.foldl_append
    have htidy : Tidy (g.dropEach hs) := by
      rw [hbefore]
      exact ⟨(h.without hs).used, (h.without hs).names, (h.without hs).senders⟩
    have hstep := drop_eq htidy handle ?_
    · rw [hlast, ← without_append h]
      rw [hbefore] at hstep ⊢
      exact hstep
    · -- a node that is dropped only once is still there when its turn comes
      rintro n rfl
      rw [hbefore]
      refine List.mem_filter.mpr ⟨hup n (List.mem_append_right _ (List.mem_singleton_self _)), ?_⟩
      rw [decide_eq_true_iff]
      intro hmem
      exact hnodup.2.2 _ hmem _ (List.mem_singleton_self _) rfl

/-- The order does not matter to what is left. -/
theorem without_perm {hs hs' : List Handle} (h : hs'.Perm hs) (g : Graph ε) :
    g.without hs' = g.without hs := by
  have hlost : ∀ node own, Registration.isLost hs' node own = Registration.isLost hs node own :=
    fun node own => h.any_eq
  have hfeeds : ∀ id, id ∈ hs'.flatMap g.closes ↔ id ∈ hs.flatMap g.closes :=
    fun id => (h.flatMap_right g.closes).mem_iff
  unfold without Topic.without Service.isLost Feeds.close
  simp only [hlost, hfeeds, h.mem_iff]

/-! ## Under the lock -/

/-- The handlers that go with some handles. -/
def discardedAll (g : Graph ε) (hs : List Handle) : List Handler :=
  (g.services.filter (·.isLost hs)).map (·.handler)

/-- Whether one of the handlers that go owns something that asks for the lock. -/
def asksAgainAmong (g : Graph ε) (hs : List Handle) : Bool :=
  (g.discardedAll hs).any (·.owns.any Handle.asksForLock)

theorem discarded_eq (g : Graph ε) (handle : Handle) :
    g.discarded handle = g.discardedAll [handle] := by
  unfold discardedAll
  rcases handle with node | logger | registration
  · simp only [Service.isLost_node]
    rfl
  · simp only [Service.isLost_logger, List.filter_false]
    rfl
  · rcases registration with ⟨topic, id⟩ | ⟨topic, id⟩ | ⟨name, id⟩
    · simp only [Service.isLost_subscriber, List.filter_false]
      rfl
    · simp only [Service.isLost_publisher, List.filter_false]
      rfl
    · simp only [Service.isLost_service]
      rfl

/-- A handler goes with the first of the handles that takes it. -/
theorem asksAgainAmong_append (g : Graph ε) (hs : List Handle) (handle : Handle) :
    g.asksAgainAmong (hs ++ [handle]) =
      (g.asksAgainAmong hs || (g.without hs).asksAgain handle) := by
  unfold asksAgain
  rw [discarded_eq]
  unfold asksAgainAmong discardedAll
  rw [Bool.eq_iff_iff, Bool.or_eq_true]
  simp only [List.any_eq_true, List.mem_map, List.mem_filter, Service.isLost_append,
    Bool.or_eq_true]
  constructor
  · rintro ⟨handler, ⟨s, ⟨hs', hlost⟩, rfl⟩, hasks⟩
    by_cases hfirst : s.isLost hs = true
    · exact .inl ⟨_, ⟨s, ⟨hs', hfirst⟩, rfl⟩, hasks⟩
    · have hkept : s ∈ (g.without hs).services :=
        List.mem_filter.mpr ⟨hs', by rw [Bool.eq_false_iff.mpr hfirst, Bool.not_false]⟩
      exact .inr ⟨_, ⟨s, ⟨hkept, hlost.resolve_left hfirst⟩, rfl⟩, hasks⟩
  · rintro (⟨handler, ⟨s, ⟨hs', hlost⟩, rfl⟩, hasks⟩ | ⟨handler, ⟨s, ⟨hs', hlost⟩, rfl⟩, hasks⟩)
    · exact ⟨_, ⟨s, ⟨hs', .inl hlost⟩, rfl⟩, hasks⟩
    · exact ⟨_, ⟨s, ⟨(List.mem_filter.mp hs').1, .inr hlost⟩, rfl⟩, hasks⟩

/-- **Under the lock the drops come to an end exactly if no handler that goes owns something
that asks for it,** and then do what they should. -/
theorem dropEachLocked?_eq (h : Tidy g) {hs : List Handle}
    (hup : ∀ n, .node n ∈ hs → n ∈ g.nodes) (hnodup : hs.Nodup) :
    g.dropEachLocked? hs = if g.asksAgainAmong hs then none else some (g.dropEach hs) := by
  induction hs using List.reverseRecOn with
  | nil =>
    have hnone : g.asksAgainAmong [] = false := by
      unfold asksAgainAmong discardedAll
      simp [Service.isLost, Registration.isLost]
    rw [hnone]
    rfl
  | append_singleton hs handle ih =>
    have hup' : ∀ n, .node n ∈ hs → n ∈ g.nodes := fun n hn => hup n (List.mem_append_left _ hn)
    have hnodup' := (List.nodup_append.mp hnodup).1
    have hlast : g.dropEachLocked? (hs ++ [handle]) =
        (g.dropEachLocked? hs).bind (·.dropLocked? handle) := by
      unfold dropEachLocked?
      rw [List.foldlM_append]
      simp only [List.foldlM_cons, List.foldlM_nil, bind_pure]
      rfl
    have hasks : (g.dropEach hs).asksAgain handle = (g.without hs).asksAgain handle := by
      rw [dropEach_eq h hup' hnodup']
      rfl
    have hdone : g.dropEach (hs ++ [handle]) = (g.dropEach hs).drop handle := List.foldl_append
    rw [hlast, ih hup' hnodup', asksAgainAmong_append, hdone]
    by_cases hfirst : g.asksAgainAmong hs = true
    · simp only [hfirst, Bool.true_or, if_true, Option.bind_none]
    · rw [Bool.eq_false_iff.mpr hfirst, Bool.false_or, ← hasks]
      rfl

end Graph

/-! ## In every reachable state -/

namespace Audit

variable {a b : Audit ε}

/-- Whether a handle is there to be dropped. -/
def Droppable (a : Audit ε) : Handle → Prop
  | .node node => node ∈ a.ledger.live
  | .logger _ => True
  | .registration r => a.ledger.Holds r

/-- The audit after a drop. -/
def dropHandle (a : Audit ε) : Handle → Audit ε
  | .node node => a.shutDown node
  | .logger _ => a
  | .registration r => a.drop r

theorem tidy (hs : Sound a) (hf : Fed a) : Tidy a.graph where
  used := fun _ ht => hs.exact.topics.isUsed ht
  names := hs.exact.nodeNames
  senders := by
    intro f hmem
    have hid : f.id ∈ a.ledger.subscriptions.map Grant.id := hf.ids ▸ List.mem_map_of_mem hmem
    obtain ⟨c, hc, hcf⟩ := List.mem_map.mp hid
    rw [(hf.serves c hc f hmem hcf.symm).senders]
    split <;> decide

theorem graph_dropHandle (a : Audit ε) (handle : Handle) :
    (a.dropHandle handle).graph = a.graph.drop handle := by
  cases handle <;> rfl

theorem steps_dropHandle {handle : Handle} (h : a.Droppable handle) :
    Steps a (a.dropHandle handle) := by
  cases handle with
  | node node => exact .single (.operation (.shutDown a node h))
  | logger => exact .refl
  | registration r => exact .single (.operation (.drop a r h))

/-- What is there to be dropped stays so until it is dropped. -/
theorem droppable_dropHandle (hs : Sound a) {handle other : Handle} (h : a.Droppable handle)
    (hother : a.Droppable other) (hne : other ≠ handle) :
    (a.dropHandle handle).Droppable other := by
  cases handle with
  | logger => exact hother
  | node node =>
    cases other with
    | logger => trivial
    | registration r => exact hother
    | node n =>
      obtain ⟨hmem, hup⟩ := Ledger.mem_live.mp hother
      refine Ledger.mem_live.mpr ⟨hmem, fun hdown => ?_⟩
      rcases List.mem_append.mp hdown with hold | hnew
      · exact hup hold
      · have hid := List.mem_singleton.mp hnew
        exact hne (congrArg _ (hs.numbered.node_inj hmem (Ledger.mem_live.mp h).1 hid))
  | registration r =>
    cases other with
    | logger => trivial
    | node n => exact hother
    | registration r' =>
      refine ⟨hother.1, fun hdropped => ?_⟩
      rcases List.mem_append.mp hdropped with hold | hnew
      · exact hother.2 hold
      · have hid := List.mem_singleton.mp hnew
        exact hne (congrArg _ (hs.numbered.handle_inj hother.1 h.1 hid))

/-- Handles that are there can be dropped one after the other. -/
theorem exists_steps_dropEach (h : Reachable a) {handles : List Handle} (hnodup : handles.Nodup)
    (hall : ∀ x ∈ handles, a.Droppable x) :
    ∃ b, Steps a b ∧ b.graph = a.graph.dropEach handles := by
  induction handles generalizing a with
  | nil => exact ⟨a, .refl, rfl⟩
  | cons handle rest ih =>
    obtain ⟨hnot, hrest⟩ := List.nodup_cons.mp hnodup
    have hfirst := hall handle (List.mem_cons_self)
    have hstep := steps_dropHandle hfirst
    obtain ⟨b, hsteps, hgraph⟩ := ih (h.trans hstep) hrest fun x hx =>
      droppable_dropHandle h.sound hfirst (hall x (List.mem_cons_of_mem _ hx))
        fun he => hnot (he ▸ hx)
    refine ⟨b, hstep.trans hsteps, ?_⟩
    rw [hgraph, graph_dropHandle]
    rfl

/-- A subscription that keeps its handle and its node is not closed. -/
theorem not_mem_closes (hs : Sound a) {handles : List Handle}
    (hall : ∀ x ∈ handles, a.Droppable x) {c : Grant (Intake ε)}
    (hc : c ∈ a.ledger.subscriptions) (hkept : c.handle.isLost handles c.node.id = false) :
    c.id ∉ handles.flatMap a.graph.closes := by
  intro hmem
  refine Bool.eq_false_iff.mp hkept (Registration.isLost_iff.mpr ?_)
  obtain ⟨handle, hhandle, hcloses⟩ := List.mem_flatMap.mp hmem
  cases handle with
  | node n =>
    exact .inr ⟨n, hhandle, ((mem_subscriptionsOf_iff hs hc).mp hcloses).2.symm⟩
  | logger => exact absurd hcloses List.not_mem_nil
  | registration r =>
    cases r with
    | subscriber topic id =>
      have hid : c.handle.id = (Registration.subscriber topic id).id :=
        List.mem_singleton.mp hcloses
      have hheld : a.ledger.Holds (.subscriber topic id) := hall _ hhandle
      rw [hs.numbered.handle_inj (Ledger.handle_of_subscription hc) hheld.1 hid]
      exact .inl hhandle
    | publisher => exact absurd hcloses List.not_mem_nil
    | service => exact absurd hcloses List.not_mem_nil

/-- **The order in which things are dropped does not matter.** Take handles that are held and
nodes that are up, of whatever kinds and nodes, each once. In whatever order they are dropped,
this is a run of the graph and leaves it as it was without them, but for the process log:
exactly their entries and those of the nodes among them are gone, with the topics that
nobody uses any more. The feeds of all other subscriptions are untouched, and so are all
other services with their handlers. With the lock, either every order ends so or none ends. -/
theorem teardown_order (h : Reachable a) {handles : List Handle} (hnodup : handles.Nodup)
    (hall : ∀ x ∈ handles, a.Droppable x) :
    (∀ order, order.Perm handles →
      (∃ b, Steps a b ∧ b.graph = a.graph.dropEach order) ∧
      (∃ journal, a.graph.dropEach order = { a.graph.without handles with journal }) ∧
      a.graph.dropEachLocked? order =
        if a.graph.asksAgainAmong handles then none else some (a.graph.dropEach order)) ∧
    (∀ c ∈ a.ledger.subscriptions, c.handle.isLost handles c.node.id = false →
      ∀ f ∈ a.graph.feeds, f.id = c.id → f ∈ (a.graph.without handles).feeds) ∧
    ∀ c ∈ a.ledger.offers, a.ledger.isOpen c = true →
      c.handle.isLost handles c.node.id = false →
        c.service ∈ (a.graph.without handles).services := by
  have hs := h.sound
  have htidy := tidy hs h.fed
  refine ⟨fun order hperm => ?_, fun c hc hkept f hf hid => ?_, fun c hc hopen hkept => ?_⟩
  · have hall' : ∀ x ∈ order, a.Droppable x := fun x hx => hall x (hperm.mem_iff.mp hx)
    have hnodup' := hperm.nodup_iff.mpr hnodup
    have hup : ∀ n, .node n ∈ order → n ∈ a.graph.nodes := by
      intro n hn
      rw [hs.exact.nodes]
      exact hall' _ hn
    refine ⟨exists_steps_dropEach h hnodup' hall', ⟨(a.graph.dropEach order).journal, ?_⟩, ?_⟩
    · rw [← Graph.without_perm hperm]
      exact Graph.dropEach_eq htidy hup hnodup'
    · rw [Graph.dropEachLocked?_eq htidy hup hnodup']
      unfold Graph.asksAgainAmong Graph.discardedAll Service.isLost Registration.isLost
      simp only [hperm.any_eq]
  · refine List.mem_map.mpr ⟨f, hf, if_neg ?_⟩
    rw [hid]
    exact not_mem_closes hs hall hc hkept
  · refine List.mem_filter.mpr ⟨?_, ?_⟩
    · rw [hs.exact.services]
      exact Ledger.mem_services.mpr ⟨c, hc, hopen, rfl⟩
    · rw [hs.coherent.offer c hc] at hkept
      show (!(Registration.service c.target c.id).isLost handles c.node.id) = true
      rw [hkept, Bool.not_false]

/-- A second node, with a subscription on the topic of the first. -/
def household : Audit String :=
  (foundation.register "b").subscribe ⟨5, "/b"⟩ "t" 0 Text.type Text.data

theorem household_reachable : Reachable household := by
  unfold household
  refine .tail (.tail foundation_reachable
    (.operation (.register _ "b")))
    (.operation (.subscribe _ ⟨5, "/b"⟩ "t" 0 Text.type Text.data ?_))
  decide

/-- The first node, and its subscription and its service. -/
def leaving : List Handle :=
  [.registration (.subscriber "/t" 2), .registration (.service "/s" 4), .node ⟨1, "/a"⟩]

/-- The service's handle goes after the node or before, and only the second node is left on
the topic. -/
theorem teardown_order_household :
    (∃ journal, household.graph.dropEach leaving =
      { household.graph.without leaving with journal }) ∧
    (∃ journal, household.graph.dropEach leaving.reverse =
      { household.graph.without leaving with journal }) ∧
    household.graph.topics.map (·.subscribers) = [[⟨2, 1⟩, ⟨6, 5⟩]] ∧
    (household.graph.without leaving).nodes = [⟨5, "/b"⟩] ∧
    (household.graph.without leaving).topics =
      [⟨"/t", "std_msgs/String", Text.type.md5, [], [⟨6, 5⟩]⟩] := by
  have hall : ∀ x ∈ leaving, household.Droppable x := by
    intro x hx
    simp only [leaving, List.mem_cons, List.not_mem_nil, or_false] at hx
    rcases hx with rfl | rfl | rfl
    · exact ⟨by decide, by decide⟩
    · exact ⟨by decide, by decide⟩
    · show (⟨1, "/a"⟩ : Node) ∈ household.ledger.live
      decide
  obtain ⟨horder, -⟩ := teardown_order household_reachable (by decide) hall
  exact ⟨(horder _ (List.Perm.refl _)).2.1, (horder _ (List.reverse_perm _)).2.1, by decide,
    by decide, by decide⟩

/-- Two nodes, one of which is kept by the handler of a service of the other. -/
def lodging : Audit String :=
  ((({} : Audit String).register "a").register "b").advertise ⟨1, "/a"⟩ "s" Addition.service
    (fun _ => .done (.ok ⟨0⟩)) [.node ⟨2, "/b"⟩]

theorem lodging_reachable : Reachable lodging := by
  refine .tail (.tail (.single (.operation (.register _ "a"))) (.operation (.register _ "b")))
    (.operation (.advertise _ ⟨1, "/a"⟩ "s" _ _ _ ?_))
  decide

/-- The handle of the service is all there is to drop, and so there is one order only. It does
not come to an end, and the graph never gets to be without it. -/
theorem lodging_never_erased :
    Reachable lodging ∧ lodging.Droppable (.registration (.service "/s" 3)) ∧
    ∀ order, order.Perm [.registration (.service "/s" 3)] →
      lodging.graph.dropEachLocked? order = none := by
  refine ⟨lodging_reachable, ⟨by decide, by decide⟩, fun order hperm => ?_⟩
  rw [List.perm_singleton.mp hperm]
  have hasks : lodging.graph.asksAgain (.registration (.service "/s" 3)) = true := by decide
  have hends : lodging.graph.dropLocked? (.registration (.service "/s" 3)) = none := if_pos hasks
  unfold Graph.dropEachLocked?
  rw [List.foldlM_cons, hends]
  rfl

end Audit

end NodeGraph
