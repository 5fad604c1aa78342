import NodeGraph.Proofs.Registry.Founding

/-!
# Who is let in

Whoever asks to be registered is let in or turned away by a look at the tables. Seen
from outside, the answer is a matter of what is still held by nodes that are up, and of
nothing that is gone.

> `Ledger.AllCarry`: all that is still held on a topic was granted for one sum.
>
> `Decided`: somebody who wants to be on a topic is let in exactly if all that is held
> there was granted for the sum that is wanted. Otherwise the error names the topic, the
> type that is wanted, and the type of the topic's founder, who need not be there any
> more.
>
> `admission_decided`: this is so for subscribers and publishers in every reachable
> state; a node is let in exactly if no node that is up goes by its name, and a service
> exactly if none that is held by a node that is up does, whatever their types.

What the tables know of a topic is the sum that it was made with. That all who are on it
now carry that sum is `Typed`, and that there is nobody on it without a topic, and no topic
without anybody, is `Tabled`; `allCarry_iff` is the two together.
-/

namespace NodeGraph

universe u

variable {ε : Type}

/-! ## What is held on a topic -/

namespace Ledger

variable {l : Ledger ε}

/-- All that is still held on a topic by nodes that are up was granted for that sum. -/
def AllCarry (l : Ledger ε) (name md5 : String) : Prop :=
  (∀ c ∈ l.subscriptions, l.isOpen c = true → c.target = name → c.item.md5 = md5) ∧
  ∀ c ∈ l.publications, l.isOpen c = true → c.target = name → c.item.md5 = md5

theorem members_ne_nil_iff {τ : Type u} {cs : List (Grant τ)} {name : String} :
    l.members cs name ≠ [] ↔ ∃ c ∈ cs, l.isOpen c = true ∧ c.target = name := by
  constructor
  · intro hne
    obtain ⟨m, hm⟩ := List.exists_mem_of_ne_nil _ hne
    obtain ⟨c, hc, hopen, htarget, -⟩ := mem_members.mp hm
    exact ⟨c, hc, hopen, htarget⟩
  · intro hex
    obtain ⟨c, hc, hopen, htarget⟩ := hex
    exact List.ne_nil_of_mem (mem_members.mpr ⟨c, hc, hopen, htarget, rfl⟩)

/-- Those are on a topic who have a grant on it that still stands. -/
theorem uses_iff {name : String} :
    l.Uses name ↔ (∃ c ∈ l.subscriptions, l.isOpen c = true ∧ c.target = name) ∨
      ∃ c ∈ l.publications, l.isOpen c = true ∧ c.target = name :=
  or_congr members_ne_nil_iff members_ne_nil_iff

/-- A topic is anybody's, whatever the type, exactly as long as nobody is on it. -/
theorem forall_allCarry_iff {name : String} :
    (∀ md5, l.AllCarry name md5) ↔ ¬ l.Uses name := by
  rw [uses_iff]
  constructor
  · intro hall hused
    -- whoever is on it cannot carry every sum
    have hdiffer : ("" : String) ≠ "x" := by decide
    rcases hused with ⟨c, hc, hopen, htarget⟩ | ⟨c, hc, hopen, htarget⟩
    · exact hdiffer (((hall "").1 c hc hopen htarget).symm.trans
        ((hall "x").1 c hc hopen htarget))
    · exact hdiffer (((hall "").2 c hc hopen htarget).symm.trans
        ((hall "x").2 c hc hopen htarget))
  · intro hunused md5
    rw [not_or] at hunused
    exact ⟨fun c hc hopen htarget => absurd ⟨c, hc, hopen, htarget⟩ hunused.1,
      fun c hc hopen htarget => absurd ⟨c, hc, hopen, htarget⟩ hunused.2⟩

end Ledger

/-! ## What the tables say -/

namespace Graph

variable {g : Graph ε} {e : Error}

theorem register_granted_iff {name : String} :
    (∃ node, (g.register name).1 = .ok node) ↔
      ∀ n ∈ g.nodes, n.name ≠ Name.resolve "/" name := by
  unfold register
  by_cases htaken : g.nodes.any (·.name = Name.resolve "/" name) = true
  · simp only [if_pos htaken]
    obtain ⟨n, hn, hname⟩ := List.any_eq_true.mp htaken
    exact iff_of_false (by simp) fun hfree => hfree n hn (of_decide_eq_true hname)
  · simp only [if_neg htaken]
    refine iff_of_true ⟨_, rfl⟩ fun n hn hname => htaken ?_
    exact List.any_eq_true.mpr ⟨n, hn, decide_eq_true hname⟩

theorem advertise_granted_iff {ρ σ : Type} {node : Node} {service : String}
    {type : ServiceType ρ σ} {answer : ρ → Act (Except String σ)} {owns : List Handle} :
    (∃ handle, (g.advertise node service type answer owns).1 = .ok handle) ↔
      ∀ s ∈ g.services, s.name ≠ Name.resolve node.name service := by
  simp only [advertise, fst_orDropping]
  unfold addService
  by_cases hdup : (g.service? (Name.resolve node.name service)).isSome = true
  · simp only [if_pos hdup]
    obtain ⟨s, hs, hname⟩ := List.find?_isSome.mp hdup
    exact iff_of_false (by simp) fun hfree => hfree s hs (of_decide_eq_true hname)
  · simp only [if_neg hdup]
    refine iff_of_true ⟨_, rfl⟩ fun s hs hname => hdup ?_
    exact List.find?_isSome.mpr ⟨s, hs, decide_eq_true hname⟩

theorem subscribe_error_iff {α : Type} {node : Node} {topic : String} {capacity : Nat}
    {type : MessageType α} {receive : α → ε} {owns : List Handle} :
    (g.subscribe node topic capacity type receive owns).1 = .error e ↔
      g.Clash (Name.resolve node.name topic) type.name type.md5 e := by
  constructor
  · exact fun h => (subscribe_refused (Prod.ext h rfl)).2
  · intro hclash
    have hclash : ({ g with lastId := g.lastId + 1 } : Graph ε).Clash _ _ _ e := hclash
    rw [subscribe, fst_orDropping]
    unfold addSubscriber
    simp only [ensureTopic_of_clash hclash]

theorem publish_error_iff {α : Type} {node : Node} {topic : String} {type : MessageType α} :
    (g.publish node topic type).1 = .error e ↔
      g.Clash (Name.resolve node.name topic) type.name type.md5 e := by
  constructor
  · exact fun h => (publish_refused (Prod.ext h rfl)).2
  · intro hclash
    have hclash : ({ g with lastId := g.lastId + 1 } : Graph ε).Clash _ _ _ e := hclash
    unfold publish
    simp only [ensureTopic_of_clash hclash]

end Graph

/-! ## What follows from what is held -/

namespace Audit

variable {a : Audit ε} {name typeName md5 : String}

/-- All that is held on a topic carries the sum that the topic was made with. -/
theorem Reachable.allCarry_iff (h : Reachable a) :
    a.ledger.AllCarry name md5 ↔ ∀ t, a.graph.topic? name = some t → t.md5 = md5 := by
  have hs := h.sound
  have htyped := h.typed
  constructor
  · intro hall t ht
    obtain ⟨hmem, rfl⟩ := mem_of_find?_topic ht
    have hused : a.ledger.Uses t.name := (hs.exact.topics.exists_iff _).mp ⟨t, hmem, rfl⟩
    rcases Ledger.uses_iff.mp hused with ⟨c, hc, hopen, htarget⟩ | ⟨c, hc, hopen, htarget⟩
    · rw [← htyped.subscriptions t hmem c hc hopen htarget]
      exact hall.1 c hc hopen htarget
    · rw [← htyped.publications t hmem c hc hopen htarget]
      exact hall.2 c hc hopen htarget
  · intro hsum
    cases ht : a.graph.topic? name with
    | none => exact Ledger.forall_allCarry_iff.mpr (hs.topic?_eq_none_iff.mp ht) md5
    | some t =>
      obtain ⟨hmem, rfl⟩ := mem_of_find?_topic ht
      rw [← hsum t ht]
      exact ⟨htyped.subscriptions t hmem, htyped.publications t hmem⟩

/-- The answer to somebody who wants to be on a topic, as it follows from what is held. -/
structure Decided {τ : Type} (a : Audit ε) (name typeName md5 : String)
    (answer : Except Error τ) : Prop where
  granted : (∃ handle, answer = .ok handle) ↔ a.ledger.AllCarry name md5
  founded : ¬ a.ledger.AllCarry name md5 → ∃ s, a.Founds s ∧ s.topic = name
  refused : ¬ a.ledger.AllCarry name md5 → ∀ s, a.Founds s → s.topic = name →
    answer = .error (Cause.typeMismatch name s.typeName typeName)

/-- If just those are turned away whose topic is there with another sum, the answer is
what follows from what is held. -/
theorem decided_of_error_iff {τ : Type} {answer : Except Error τ} (h : Reachable a)
    (herror : ∀ e, answer = .error e ↔ a.graph.Clash name typeName md5 e) :
    Decided a name typeName md5 answer := by
  have htaken : ¬ a.ledger.AllCarry name md5 →
      ∃ t, a.graph.topic? name = some t ∧ t.md5 ≠ md5 := by
    rw [h.allCarry_iff, not_forall]
    intro hex
    obtain ⟨t, ht⟩ := hex
    exact ⟨t, Classical.not_imp.mp ht⟩
  refine ⟨?_, ?_, ?_⟩
  · constructor
    · intro hgranted
      obtain ⟨handle, rfl⟩ := hgranted
      by_contra hnot
      obtain ⟨t, ht, hsum⟩ := htaken hnot
      exact absurd ((herror _).mpr ⟨t, ht, hsum, rfl⟩) (by simp)
    · intro hall
      cases answer with
      | ok handle => exact ⟨handle, rfl⟩
      | error e =>
        obtain ⟨t, ht, hsum, -⟩ := (herror e).mp rfl
        exact absurd (h.allCarry_iff.mp hall t ht) hsum
  · intro hnot
    obtain ⟨t, ht, -⟩ := htaken hnot
    obtain ⟨hmem, rfl⟩ := mem_of_find?_topic ht
    have hmade : t.label ∈ a.graph.labels := List.mem_map_of_mem hmem
    obtain ⟨s, hfounds, hlabel⟩ := exists_founds h hmade
    exact ⟨s, hfounds, congrArg Prod.fst hlabel⟩
  · intro hnot s hfounds hname
    obtain ⟨t, ht, hsum⟩ := htaken hnot
    obtain ⟨hmem, htname⟩ := mem_of_find?_topic ht
    have hlabel : t.label = s.label :=
      label_of_founds hfounds (List.mem_map_of_mem hmem) (htname.trans hname.symm)
    have htype : t.typeName = s.typeName := congrArg (·.2.1) hlabel
    rw [← htype]
    exact (herror _).mpr ⟨t, ht, hsum, rfl⟩

/-- Who is let in, as it follows from what is held by nodes that are up. -/
structure Admission (a : Audit ε) : Prop where
  register : ∀ name, (∃ node, (a.graph.register name).1 = .ok node) ↔
    ∀ n ∈ a.ledger.live, n.name ≠ Name.resolve "/" name
  advertise : ∀ {ρ σ : Type} (node : Node) (service : String) (type : ServiceType ρ σ)
    (answer : ρ → Act (Except String σ)) (owns : List Handle),
    (∃ handle, (a.graph.advertise node service type answer owns).1 = .ok handle) ↔
      ∀ c ∈ a.ledger.offers, a.ledger.isOpen c = true →
        c.target ≠ Name.resolve node.name service
  subscribe : ∀ {α : Type} (node : Node) (topic : String) (capacity : Nat)
    (type : MessageType α) (receive : α → ε) (owns : List Handle),
    Decided a (Name.resolve node.name topic) type.name type.md5
      (a.graph.subscribe node topic capacity type receive owns).1
  publish : ∀ {α : Type} (node : Node) (topic : String) (type : MessageType α),
    Decided a (Name.resolve node.name topic) type.name type.md5
      (a.graph.publish node topic type).1
  /-- A topic is free for every type as soon as, and no sooner than, the last one on it
  goes. -/
  released : ∀ name, (∀ md5, a.ledger.AllCarry name md5) ↔ ¬ a.ledger.Uses name

/-- **What is still held decides who is let in.** In every reachable state a node is
registered, a service offered and a topic joined exactly if nothing that is held by a node
that is up stands in the way, and a topic that is refused is refused with the type of its
founder. -/
theorem admission_decided (h : Reachable a) : Admission a := by
  have hexact := h.sound.exact
  exact
    { register := fun name => by
        rw [← hexact.nodes]
        exact Graph.register_granted_iff
      advertise := fun node service type answer owns => by
        rw [Graph.advertise_granted_iff, hexact.services]
        constructor
        · intro hfree c hc hopen htarget
          exact hfree c.service (Ledger.mem_services.mpr ⟨c, hc, hopen, rfl⟩) htarget
        · intro hfree s hmem htarget
          obtain ⟨c, hc, hopen, rfl⟩ := Ledger.mem_services.mp hmem
          exact hfree c hc hopen htarget
      subscribe := fun node topic capacity type receive owns =>
        decided_of_error_iff h fun e => Graph.subscribe_error_iff
      publish := fun node topic type => decided_of_error_iff h fun e => Graph.publish_error_iff
      released := fun name => Ledger.forall_allCarry_iff }

/-- Texts under another name, with the sum that they had before. -/
def legacy : MessageType Text := { Text.type with name := "legacy/String" }

/-- A node that publishes texts. -/
def opening : Audit String :=
  (({} : Audit String).register "a").publish ⟨1, "/a"⟩ "t" Text.type

/-- It subscribes to the same under another name, and gives up its publisher. -/
def inherited : Audit String :=
  (opening.subscribe ⟨1, "/a"⟩ "t" 1 legacy Text.data).drop (.publisher "/t" 2)

/-- The subscription, as it was granted. -/
def heir : Grant (Intake String) where
  node := ⟨1, "/a"⟩
  asked := "t"
  handle := .subscriber "/t" 3
  item := { type := legacy, capacity := 1, callback := Text.data }

/-- The publisher that is gone. -/
def founder : Stake := ⟨.publisher "/t" 2, "/t", "std_msgs/String", Text.type.md5⟩

theorem opening_reachable : Reachable opening :=
  .tail (.single (.operation (.register _ "a")))
    (.operation (.publish _ ⟨1, "/a"⟩ "t" Text.type (by decide)))

theorem inherited_busy : Busy "/t" opening inherited := by
  have hshared : Busy "/t" opening (opening.subscribe ⟨1, "/a"⟩ "t" 1 legacy Text.data) :=
    .single ⟨.operation (.subscribe _ ⟨1, "/a"⟩ "t" 1 legacy Text.data (by decide)),
      .inl (by decide)⟩
  exact hshared.tail
    ⟨.operation (.drop _ (.publisher "/t" 2) ⟨by decide, by decide⟩), .inl (by decide)⟩

theorem inherited_reachable : Reachable inherited :=
  opening_reachable.trans
    (Relation.ReflTransGen.mono (fun _ _ hstep => hstep.1) _ _ inherited_busy)

theorem inherited_founds : inherited.Founds founder := by
  refine ⟨({} : Audit String).register "a", opening, .single (.operation (.register _ "a")),
    .operation (.publish _ ⟨1, "/a"⟩ "t" Text.type (by decide)), ⟨by decide, by decide⟩,
    ⟨?_, .inr (by decide)⟩, inherited_busy⟩
  exact not_or.mpr ⟨by decide, by decide⟩

/-- Pairs are refused for the sake of a publisher that is gone; whoever has the sum may
join. -/
theorem admission_decided_inherited :
    Reachable inherited ∧ founder.handle.id ∈ inherited.ledger.dropped ∧
    (inherited.graph.publish ⟨1, "/a"⟩ "t" Addition.Pair.type).1 =
      .error (Cause.typeMismatch "/t" "std_msgs/String" "rospy_tutorials/AddTwoInts") ∧
    ∃ p, (inherited.graph.publish ⟨1, "/a"⟩ "t" legacy).1 = .ok p := by
  have hpairs := (admission_decided inherited_reachable).publish ⟨1, "/a"⟩ "t"
    Addition.Pair.type
  have htexts := (admission_decided inherited_reachable).publish ⟨1, "/a"⟩ "t" legacy
  refine ⟨inherited_reachable, by decide, ?_, htexts.granted.mpr ?_⟩
  · refine hpairs.refused ?_ founder inherited_founds rfl
    intro hall
    -- the subscription is still there, and it is for texts
    exact absurd (hall.1 heir (.head _) (by decide) (by decide)) (by decide)
  · refine ⟨?_, ?_⟩
    · intro c hc _ _
      obtain rfl := List.mem_singleton.mp hc
      rfl
    · intro c hc _ _
      obtain rfl := List.mem_singleton.mp hc
      rfl

end Audit

end NodeGraph
