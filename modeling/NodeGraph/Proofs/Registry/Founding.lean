import NodeGraph.Proofs.Registry.Refusal
import NodeGraph.Proofs.Registry.Typed

/-!
# Who made a topic

A topic keeps the type of whoever came first, and keeps it as long as anybody is on
it, the first comer or not. So which type it is cannot be read off those who are on it
now; it is a matter of what has happened.

> `Founds`: when this registration was granted nobody was on its topic, and from then
> on there has always been somebody.
>
> `exists_founds`, `label_of_founds`: every topic that is there has such a registration
> behind it, and its label, which is the name and the type with the sum, is what that
> registration asked for.

A step does to the labels of all topics one of two things (`founding_of_step`). It may take
some out, or it adds the label of a registration that has just been granted on a topic
that nobody was on.
-/

namespace NodeGraph

open Wire (Bytes)

variable {ε : Type}

/-! ## Topics left alone -/

namespace Graph

variable {g g' : Graph ε}

theorem topics_send {α : Type} (g : Graph ε) (p : Publisher α) (message : α) :
    (g.send p message).2.topics = g.topics := by
  unfold send
  split
  · rfl
  · split
    · split <;> rfl
    · rfl

theorem topics_broadcast (g : Graph ε) (node : Nat) (topic md5 : String) (payload : Bytes) :
    (g.broadcast node topic md5 payload).topics = g.topics := by
  unfold broadcast
  split
  · split
    · split <;> rfl
    · rfl
  · rfl

theorem topics_log (g : Graph ε) (logger : Logger) (entry : Entry) :
    (g.log logger entry).topics = g.topics := by
  unfold log
  split
  · exact topics_broadcast ..
  · rfl

/-- Making sure of a topic adds its label, if there was no topic of that name. -/
theorem labels_ensureTopic {name typeName md5 : String}
    (h : g.ensureTopic name typeName md5 = .ok g') :
    g'.labels = g.labels ∨
      g.topic? name = none ∧ g'.labels = g.labels ++ [(name, typeName, md5)] := by
  unfold ensureTopic at h
  split at h
  next hnone =>
    injection h with h
    rw [← h]
    exact .inr ⟨hnone, List.map_append⟩
  next t ht =>
    split at h
    next =>
      injection h with h
      exact .inl (h ▸ rfl)
    next => exact absurd h (by simp)

end Graph

/-! ## Registrations on topics -/

/-- A registration on a topic, by its handle and by what it asked for. -/
structure Stake where
  handle : Registration
  topic : String
  typeName : String
  md5 : String
deriving DecidableEq, Repr

/-- The label that the topic would have if it were made for this registration. -/
def Stake.label (s : Stake) : String × String × String := (s.topic, s.typeName, s.md5)

/-- A subscription as a registration on its topic. -/
def Grant.intakeStake (c : Grant (Intake ε)) : Stake :=
  ⟨c.handle, c.target, c.item.type.name, c.item.type.md5⟩

/-- A publisher as a registration on its topic. -/
def Grant.outletStake (c : Grant Outlet) : Stake :=
  ⟨c.handle, c.target, c.item.publisher.type.name, c.item.publisher.type.md5⟩

namespace Ledger

/-- Every registration on a topic that was ever granted. -/
def stakes (l : Ledger ε) : List Stake :=
  l.subscriptions.map Grant.intakeStake ++ l.publications.map Grant.outletStake

/-- A registration on a topic goes by a handle that was given. -/
theorem handle_of_stake {l : Ledger ε} {s : Stake} (h : s ∈ l.stakes) :
    s.handle ∈ l.handles := by
  rcases List.mem_append.mp h with hsub | hpub
  · obtain ⟨c, hc, rfl⟩ := List.mem_map.mp hsub
    exact handle_of_subscription hc
  · obtain ⟨c, hc, rfl⟩ := List.mem_map.mp hpub
    exact handle_of_publication hc

theorem mem_stakes_subscribe {l : Ledger ε} {c : Grant (Intake ε)} {s : Stake} :
    s ∈ (l.subscribe c).stakes ↔ s ∈ l.stakes ∨ s = c.intakeStake := by
  unfold stakes subscribe
  simp only [List.map_append, List.mem_append, List.map_cons, List.map_nil, List.mem_singleton]
  tauto

theorem mem_stakes_publish {l : Ledger ε} {c : Grant Outlet} {s : Stake} :
    s ∈ (l.publish c).stakes ↔ s ∈ l.stakes ∨ s = c.outletStake := by
  unfold stakes publish
  simp only [List.map_append, List.mem_append, List.map_cons, List.map_nil, List.mem_singleton]
  tauto

end Ledger

/-! ## What a step does to labels -/

namespace Audit

variable {a b : Audit ε}

/-- The registration was granted in this step, on a topic that was made for it. -/
structure Founding (a b : Audit ε) (s : Stake) : Prop where
  id : s.handle.id = a.graph.lastId + 1
  none : a.graph.topic? s.topic = none
  labels : b.graph.labels = a.graph.labels ++ [s.label]
  stakes : ∀ s', s' ∈ b.ledger.stakes ↔ s' ∈ a.ledger.stakes ∨ s' = s

theorem founding_of_subscribe {α : Type} (a : Audit ε) (node : Node) (topic : String)
    (capacity : Nat) (type : MessageType α) (callback : α → ε) :
    (a.subscribe node topic capacity type callback).graph.labels = a.graph.labels ∨
      ∃ s, Founding a (a.subscribe node topic capacity type callback) s := by
  unfold subscribe Graph.addSubscriber
  cases hensure : Graph.ensureTopic { a.graph with lastId := a.graph.lastId + 1 }
      (Name.resolve node.name topic) type.name type.md5 with
  | error e =>
    simp only [hensure]
    exact .inl rfl
  | ok g =>
    simp only [hensure]
    have hkept := g.labels_modifyTopic (Name.resolve node.name topic)
      (·.addSubscriber ⟨a.graph.lastId + 1, node.id⟩) fun _ => rfl
    refine (Graph.labels_ensureTopic hensure).imp hkept.trans ?_
    intro hmade
    exact ⟨⟨_, _, type.name, type.md5⟩, rfl, hmade.1, hkept.trans hmade.2,
      fun _ => Ledger.mem_stakes_subscribe⟩

theorem founding_of_publish {α : Type} (a : Audit ε) (node : Node) (topic : String)
    (type : MessageType α) :
    (a.publish node topic type).graph.labels = a.graph.labels ∨
      ∃ s, Founding a (a.publish node topic type) s := by
  unfold publish Graph.publish
  cases hensure : Graph.ensureTopic { a.graph with lastId := a.graph.lastId + 1 }
      (Name.resolve node.name topic) type.name type.md5 with
  | error e =>
    simp only [hensure]
    exact .inl rfl
  | ok g =>
    simp only [hensure]
    have hkept := g.labels_modifyTopic (Name.resolve node.name topic)
      (·.addPublisher ⟨a.graph.lastId + 1, node.id⟩) fun _ => rfl
    refine (Graph.labels_ensureTopic hensure).imp hkept.trans ?_
    intro hmade
    exact ⟨⟨_, _, type.name, type.md5⟩, rfl, hmade.1, hkept.trans hmade.2,
      fun _ => Ledger.mem_stakes_publish⟩

/-- **A step adds at most one label,** that of a registration on a topic that nobody was
on. -/
theorem founding_of_step (h : Step a b) :
    b.graph.labels.Sublist a.graph.labels ∨ ∃ s, Founding a b s := by
  have hsame : ∀ {g : Graph ε}, g.labels = a.graph.labels →
      g.labels.Sublist a.graph.labels := fun hg => hg ▸ List.Sublist.refl _
  have htopics : ∀ {g : Graph ε}, g.topics = a.graph.topics → g.labels = a.graph.labels :=
    congrArg (List.map Topic.label)
  cases h with
  | turn feed h =>
    cases h with
    | advance => exact .inl (List.Sublist.refl _)
  | operation h =>
    cases h with
    | register _ name =>
      refine .inl (hsame (htopics ?_))
      unfold register Graph.register
      by_cases htaken : a.graph.nodes.any (·.name = Name.resolve "/" name) = true
      · simp only [if_pos htaken]
      · simp only [if_neg htaken]
        rfl
    | advertise _ node service type answer owns _ =>
      refine .inl (hsame (htopics ?_))
      unfold advertise Graph.addService
      by_cases hdup : (a.graph.service? (Name.resolve node.name service)).isSome = true
      · simp only [if_pos hdup]
      · simp only [if_neg hdup]
    | subscribe _ node topic capacity type callback _ =>
      exact (founding_of_subscribe a node topic capacity type callback).imp_left hsame
    | publish _ node topic type _ =>
      exact (founding_of_publish a node topic type).imp_left hsame
    | send => exact .inl (hsame (htopics (Graph.topics_send ..)))
    | log => exact .inl (hsame (htopics (Graph.topics_log ..)))
    | shutDown _ node _ => exact .inl (a.graph.labels_drop (.node node))
    | drop _ r _ => exact .inl (a.graph.labels_drop (.registration r))
    | journal => exact .inl (List.Sublist.refl _)

end Audit

/-! ## Names in use -/

namespace Sound

variable {a : Audit ε}

/-- A name has a topic exactly if somebody is on it. -/
theorem topic?_eq_none_iff (h : Sound a) {name : String} :
    a.graph.topic? name = none ↔ ¬ a.ledger.Uses name := by
  rw [← h.exact.topics.exists_iff, Graph.topic?, List.find?_eq_none]
  constructor
  · intro hnone hex
    obtain ⟨t, ht, hname⟩ := hex
    exact hnone t ht (decide_eq_true hname)
  · intro hnot t ht hname
    exact hnot ⟨t, ht, of_decide_eq_true hname⟩

theorem uses_of_label (h : Sound a) {label : String × String × String}
    (hlabel : label ∈ a.graph.labels) : a.ledger.Uses label.1 := by
  obtain ⟨t, ht, rfl⟩ := List.mem_map.mp hlabel
  exact (h.exact.topics.exists_iff _).mp ⟨t, ht, rfl⟩

end Sound

/-! ## Founders -/

namespace Audit

variable {a b : Audit ε} {s : Stake}

/-- Steps after each of which somebody is on the topic. -/
abbrev Busy (name : String) : Audit ε → Audit ε → Prop :=
  Relation.ReflTransGen fun c d => Step c d ∧ d.ledger.Uses name

/-- When the registration was granted nobody was on its topic, and from then on there
has always been somebody. -/
def Founds (a : Audit ε) (s : Stake) : Prop :=
  ∃ before after, Reachable before ∧ Step before after ∧
    (s ∉ before.ledger.stakes ∧ s ∈ after.ledger.stakes) ∧
    (¬ before.ledger.Uses s.topic ∧ after.ledger.Uses s.topic) ∧ Busy s.topic after a

theorem Founds.step (h : a.Founds s) (hstep : Step a b) (huses : b.ledger.Uses s.topic) :
    b.Founds s := by
  obtain ⟨before, after, hreach, hgrant, hnew, hfirst, hbusy⟩ := h
  exact ⟨before, after, hreach, hgrant, hnew, hfirst, hbusy.tail ⟨hstep, huses⟩⟩

/-- **Every topic has a founder,** and goes by the founder's label. The induction is on
the run: a label is there since the step that added it. -/
theorem exists_founds (h : Reachable a) {label : String × String × String}
    (hlabel : label ∈ a.graph.labels) : ∃ s, a.Founds s ∧ s.label = label := by
  induction h with
  | refl => exact absurd hlabel List.not_mem_nil
  | @tail b c hsteps hstep ih =>
    have hsound : Sound c := Reachable.sound (hsteps.tail hstep)
    have hkept : label ∈ b.graph.labels → ∃ s, c.Founds s ∧ s.label = label := by
      intro hold
      obtain ⟨s, hfounds, rfl⟩ := ih hold
      exact ⟨s, hfounds.step hstep (hsound.uses_of_label hlabel), rfl⟩
    rcases founding_of_step hstep with hsub | ⟨s, hs⟩
    · exact hkept (hsub.subset hlabel)
    · have hcases : label ∈ b.graph.labels ++ [s.label] := hs.labels ▸ hlabel
      rcases List.mem_append.mp hcases with hold | hnew
      · exact hkept hold
      · obtain rfl := List.mem_singleton.mp hnew
        have hunused := (Reachable.sound hsteps).topic?_eq_none_iff.mp hs.none
        have huses : c.ledger.Uses s.topic := hsound.uses_of_label hlabel
        have hfresh : s ∉ b.ledger.stakes := by
          intro hold
          have hle := (Reachable.sound hsteps).numbered.bound _
            (Ledger.id_mem_ids (Ledger.handle_of_stake hold))
          have hid := hs.id
          omega
        exact ⟨s, ⟨b, c, hsteps, hstep, ⟨hfresh, (hs.stakes s).mpr (.inr rfl)⟩,
          ⟨hunused, huses⟩, .refl⟩, rfl⟩

/-- **A founder's label is that of its topic,** whoever else has come and gone since. -/
theorem label_of_founds (h : a.Founds s) {label : String × String × String}
    (hlabel : label ∈ a.graph.labels) (hname : label.1 = s.topic) : label = s.label := by
  obtain ⟨before, after, hreach, hgrant, hnew, hfirst, hbusy⟩ := h
  have hafter : Reachable after := hreach.tail hgrant
  suffices hall : Reachable a ∧ a.ledger.Uses s.topic ∧
      ∀ label ∈ a.graph.labels, label.1 = s.topic → label = s.label from
    hall.2.2 label hlabel hname
  clear hlabel hname label
  induction hbusy with
  | refl =>
    refine ⟨hafter, hfirst.2, ?_⟩
    intro label hlabel hname
    have hold : label ∉ before.graph.labels := fun hmem =>
      hfirst.1 (hname ▸ (Reachable.sound hreach).uses_of_label hmem)
    rcases founding_of_step hgrant with hsub | ⟨s', hs'⟩
    · exact absurd (hsub.subset hlabel) hold
    · -- only one registration is granted in a step
      obtain rfl := ((hs'.stakes s).mp hnew.2).resolve_left hnew.1
      have hcases : label ∈ before.graph.labels ++ [s.label] := hs'.labels ▸ hlabel
      exact List.mem_singleton.mp ((List.mem_append.mp hcases).resolve_left hold)
  | tail _ hstep ih =>
    obtain ⟨hreached, huses, hall⟩ := ih
    refine ⟨hreached.tail hstep.1, hstep.2, ?_⟩
    intro label hlabel hname
    rcases founding_of_step hstep.1 with hsub | ⟨s', hs'⟩
    · exact hall label (hsub.subset hlabel) hname
    · have hcases := List.mem_append.mp (hs'.labels ▸ hlabel)
      rcases hcases with hold | hmade
      · exact hall label hold hname
      · -- a topic that somebody is on is not made
        obtain rfl := List.mem_singleton.mp hmade
        have hunused := (Reachable.sound hreached).topic?_eq_none_iff.mp hs'.none
        have hsame : s'.topic = s.topic := hname
        exact absurd (hsame ▸ huses) hunused

end Audit

end NodeGraph
