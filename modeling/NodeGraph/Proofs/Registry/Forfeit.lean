import NodeGraph.Component.Listener
import NodeGraph.Component.Server
import NodeGraph.Component.Talker
import NodeGraph.Proofs.Registry.Erasure
import NodeGraph.Proofs.Registry.Refusal

/-!
# What a refusal leaves

A refusal leaves the registry alone. But whoever asks may have brought something along: a
callback or a handler that keeps handles for its work. If it is refused it goes, and what it
keeps is dropped, as it would be by anybody. So nodes, topics, services and queues are as they
were exactly if nothing of that kind is kept, and otherwise are without it:

> `Ask.make_refused`: why anything that can be asked is refused, and what is done about it.
>
> `refused_forfeits`: in every reachable state a refusal leaves the graph without what the refused
> callback or handler kept, and is otherwise as if nothing had been asked.

What is kept are handles that nobody else has (`Ask.Owned`). None of that holds of a call that
gets as far as a handler: what it leaves is up to the handler.
-/

namespace NodeGraph

namespace Graph

variable {ε : Type} {g g' : Graph ε} {e : Error}

/-! ## Components that are refused -/

variable {μ : Type}

/-- A listener is refused if its subscription is. -/
theorem listen_refused {g g' : Graph (Arrival μ)} {node : Node}
    (h : Listener.subscribe g node = (.error e, g')) :
    g.subscribe node Listener.topic Listener.queueSize Text.type .chatter [] = (.error e, g') := by
  unfold Listener.subscribe at h
  split at h
  next e' b hsubscribe =>
    obtain ⟨he, rfl⟩ := Prod.mk.inj h
    obtain rfl : e' = e := Except.error.inj he
    exact hsubscribe
  next => exact absurd (Prod.mk.inj h).1 (by simp)

/-- A talker is refused if its publisher is. -/
theorem talk_refused {node : Node} (h : Talker.advertise g node = (.error e, g')) :
    g.publish node Talker.topic Text.type = (.error e, g') := by
  unfold Talker.advertise at h
  split at h
  next e' b hpublish =>
    obtain ⟨he, rfl⟩ := Prod.mk.inj h
    obtain rfl : e' = e := Except.error.inj he
    exact hpublish
  next => exact absurd (Prod.mk.inj h).1 (by simp)

/-- A server is refused if its service is. -/
theorem serve_refused {node : Node} (h : AdditionServer.advertise g node = (.error e, g')) :
    g.advertise node Addition.serviceName Addition.service
      (AdditionServer.answer ⟨node.id, node.name⟩) [.logger ⟨node.id, node.name⟩] =
        (.error e, g') := by
  unfold AdditionServer.advertise at h
  simp only at h
  split at h
  next e' b hadvertise =>
    obtain ⟨he, rfl⟩ := Prod.mk.inj h
    obtain rfl : e' = e := Except.error.inj he
    exact hadvertise
  next => exact absurd (Prod.mk.inj h).1 (by simp)

/-! ## What loggers take along -/

/-- Loggers take nothing with them. -/
theorem dropEach_filter (g : Graph ε) (handles : List Handle) :
    g.dropEach (handles.filter Handle.asksForLock) = g.dropEach handles := by
  induction handles generalizing g with
  | nil => rfl
  | cons handle rest ih =>
    cases handle with
    | node node => exact ih (g.drop (.node node))
    | logger logger => exact ih g
    | registration registration => exact ih (g.drop (.registration registration))

/-- Drops have nothing to do with the number that was given out last. -/
theorem dropEach_lastId (g : Graph ε) (lastId : Nat) (handles : List Handle) :
    ({ g with lastId } : Graph ε).dropEach handles = { g.dropEach handles with lastId } := by
  induction handles generalizing g with
  | nil => rfl
  | cons handle rest ih =>
    have hfirst : ({ g with lastId } : Graph ε).drop handle = { g.drop handle with lastId } := by
      rcases handle with node | logger | registration
      · rfl
      · rfl
      · cases registration <;> rfl
    show (({ g with lastId } : Graph ε).drop handle).dropEach rest = _
    rw [hfirst, ih]
    rfl

end Graph

/-! ## Whatever can be asked -/

/-- Something that somebody asks of a graph, or has a component ask for, and that may be
refused. -/
inductive Ask (μ : Type) : Type → Type 1 where
  | register (name : String) : Ask μ Node
  | subscribe {α : Type} (node : Node) (topic : String) (capacity : Nat) (type : MessageType α)
    (receive : α → Arrival μ) (owns : List Handle) : Ask μ Registration
  | publish {α : Type} (node : Node) (topic : String) (type : MessageType α) :
    Ask μ (Publisher α)
  | advertise {ρ σ : Type} (node : Node) (service : String) (type : ServiceType ρ σ)
    (answer : ρ → Act (Except String σ)) (owns : List Handle) : Ask μ Registration
  | send {α : Type} (p : Publisher α) (message : α) : Ask μ Unit
  | call {ρ σ : Type} (node : Node) (service : String) (type : ServiceType ρ σ) (request : ρ) :
    Ask μ σ
  | listen (node : Node) : Ask μ Listener
  | talk (node : Node) : Ask μ Talker
  | serve (node : Node) : Ask μ AdditionServer

namespace Ask

variable {μ τ : Type} {g g' : Graph (Arrival μ)} {e : Error}

/-- Asks, and gives what the graph is afterwards. Only a call may never be over. -/
def make {τ : Type} (g : Graph (Arrival μ)) : Ask μ τ → Option (Except Error τ × Graph (Arrival μ))
  | .register name => some (g.register name)
  | .subscribe node topic capacity type receive owns =>
    some (g.subscribe node topic capacity type receive owns)
  | .publish node topic type => some (g.publish node topic type)
  | .advertise node service type answer owns => some (g.advertise node service type answer owns)
  | .send p message => some (g.send p message)
  | .call node service type request => Middleware.call g node service type request
  | .listen node => some (Listener.subscribe g node)
  | .talk node => some (Talker.advertise g node)
  | .serve node => some (AdditionServer.advertise g node)

/-- The handles that are brought along, to be kept by a callback or a handler. -/
def owns {τ : Type} : Ask μ τ → List Handle
  | .subscribe _ _ _ _ _ owns => owns
  | .advertise _ _ _ _ owns => owns
  | .serve node => [.logger ⟨node.id, node.name⟩]
  | _ => []

/-- Those of them that stand for something. -/
def stakes (ask : Ask μ τ) : List Handle := ask.owns.filter Handle.asksForLock

/-- The topic that has to be made sure of: its name, and the name and sum of the type that
it is wanted for. -/
def topic? {τ : Type} : Ask μ τ → Option (String × String × String)
  | .subscribe node topic _ type _ _ => some (Name.resolve node.name topic, type.name, type.md5)
  | .publish node topic type => some (Name.resolve node.name topic, type.name, type.md5)
  | .listen node =>
    some (Name.resolve node.name Listener.topic, Text.type.name, Text.type.md5)
  | .talk node => some (Name.resolve node.name Talker.topic, Text.type.name, Text.type.md5)
  | _ => none

/-- Why it may be refused. -/
def Grounds {τ : Type} (g : Graph (Arrival μ)) (e : Error) : Ask μ τ → Prop
  | .register name => (∃ n ∈ g.nodes, n.name = Name.resolve "/" name) ∧
      e = Cause.nameTaken (Name.resolve "/" name)
  | .subscribe node topic _ type _ _ =>
    g.Clash (Name.resolve node.name topic) type.name type.md5 e
  | .publish node topic type => g.Clash (Name.resolve node.name topic) type.name type.md5 e
  | .advertise node service _ _ _ => (∃ s, g.service? (Name.resolve node.name service) = some s) ∧
      e = Cause.duplicate (Name.resolve node.name service)
  | .send p message => (∃ fault, p.type.pack message = .error fault ∧ e = Cause.io fault) ∨
      (∃ payload, p.type.pack message = .ok payload) ∧ g.isAlive p.node = false ∧
        e = Cause.closed p.topic
  | .call node service type request =>
    g.Unreached (Name.resolve node.name service) type request e
  | .listen node =>
    g.Clash (Name.resolve node.name Listener.topic) Text.type.name Text.type.md5 e
  | .talk node => g.Clash (Name.resolve node.name Talker.topic) Text.type.name Text.type.md5 e
  | .serve node => (∃ s, g.service? (Name.resolve node.name Addition.serviceName) = some s) ∧
      e = Cause.duplicate (Name.resolve node.name Addition.serviceName)

/-- Whether it was a call that came as far as a handler, and failed only then. -/
def Reached {τ : Type} (g : Graph (Arrival μ)) (e : Error) : Ask μ τ → Prop
  | .call node service type request =>
    g.Reached (Name.resolve node.name service) type request e
  | _ => False

/-- The number that is the last one given out after a refusal. -/
def spent {τ : Type} (ask : Ask μ τ) (g : Graph (Arrival μ)) : Nat :=
  if ask.topic?.isSome then g.lastId + 1 else g.lastId

/-- A graph that has spent a number at most. -/
def refusing (ask : Ask μ τ) (g : Graph (Arrival μ)) : Graph (Arrival μ) :=
  { g with lastId := ask.spent g }

/-- **What is refused is dropped,** and there was a reason. -/
theorem make_refused {ask : Ask μ τ} (h : ask.make g = some (.error e, g')) :
    ask.Reached g e ∨ g' = (ask.refusing g).dropEach ask.owns ∧ ask.Grounds g e := by
  cases ask with
  | call => exact Graph.call_refused h
  | register name => exact .inr (Graph.register_refused (Option.some.inj h))
  | subscribe => exact .inr (Graph.subscribe_refused (Option.some.inj h))
  | publish => exact .inr (Graph.publish_refused (Option.some.inj h))
  | advertise => exact .inr (Graph.advertise_refused (Option.some.inj h))
  | send => exact .inr (Graph.send_refused (Option.some.inj h))
  | listen =>
    exact .inr (Graph.subscribe_refused (Graph.listen_refused (Option.some.inj h)))
  | talk => exact .inr (Graph.publish_refused (Graph.talk_refused (Option.some.inj h)))
  | serve => exact .inr (Graph.advertise_refused (Graph.serve_refused (Option.some.inj h)))

/-- Whoever wants a topic and is refused has found it taken. -/
theorem clash_of_grounds {ask : Ask μ τ} {name typeName md5 : String}
    (htopic : ask.topic? = some (name, typeName, md5)) (h : ask.Grounds g e) :
    g.Clash name typeName md5 e := by
  cases ask with
  | subscribe | publish | listen | talk =>
    obtain ⟨rfl, rfl, rfl⟩ : _ ∧ _ ∧ _ := by simpa [topic?] using htopic
    exact h
  | register | advertise | send | call | serve => exact absurd htopic (by simp [topic?])

/-- What is brought along is there to be dropped, and each of it once. -/
structure Owned (ask : Ask μ τ) (a : Audit (Arrival μ)) : Prop where
  once : ask.stakes.Nodup
  held : ∀ x ∈ ask.stakes, a.Droppable x

end Ask

/-! ## Every refusal -/

/-- What a refusal leaves of a graph: all that was there, but for what was brought along. -/
structure Refused {μ τ : Type} (a : Audit (Arrival μ)) (ask : Ask μ τ) (e : Error)
    (g' : Graph (Arrival μ)) : Prop where
  grounds : ask.Grounds a.graph e
  nodes : g'.nodes = (a.graph.without ask.stakes).nodes
  topics : g'.topics = (a.graph.without ask.stakes).topics
  services : g'.services = (a.graph.without ask.stakes).services
  feeds : g'.feeds = (a.graph.without ask.stakes).feeds
  lastId : g'.lastId = ask.spent a.graph
  /-- Nobody says anything, least of all that it is ready. -/
  untouched : ask.stakes = [] → g' = { a.graph with lastId := ask.spent a.graph }
  /-- There is no topic that nobody is on. -/
  used : ∀ t ∈ g'.topics, t.isUsed = true
  /-- Nor was there one for a moment: the entry that comes before the comparison has not
  been made for nothing. -/
  entered : ∀ name typeName md5, ask.topic? = some (name, typeName, md5) →
    a.graph.enterTopic name typeName md5 = (.error e, a.graph)
  /-- But for the number it is a run of the graph, in which what was brought along is dropped. -/
  dropped : ∃ b, a.Steps b ∧ g' = { b.graph with lastId := ask.spent a.graph }
  /-- It is done after the refusal, so that it waits for the lock only if it would anyway. -/
  locked : (ask.refusing a.graph).dropEachLocked? ask.stakes =
    if a.graph.asksAgainAmong ask.stakes then none else some g'

namespace Audit

variable {μ τ : Type} {a : Audit (Arrival μ)} {g' : Graph (Arrival μ)} {e : Error}

/-- **What is refused leaves no trace, but is dropped with all that it keeps.** Whatever is asked
of a graph in a reachable state, by anybody or by a component on behalf of somebody: if it is
not granted, then the nodes, the topics, the services and the feeds are as they were without the
handles that a refused callback or handler kept. If it kept none but loggers, that is as they
were, and nobody has said anything. A call that had reached its handler is another matter. -/
theorem refused_forfeits (h : Reachable a) (ask : Ask μ τ) (hown : ask.Owned a)
    (hask : ask.make a.graph = some (.error e, g')) :
    ask.Reached a.graph e ∨ Refused a ask e g' := by
  refine (Ask.make_refused hask).imp_right fun hrefused => ?_
  obtain ⟨hleft, hgrounds⟩ := hrefused
  replace hleft : g' = { a.graph.dropEach ask.stakes with lastId := ask.spent a.graph } := by
    rw [hleft, ← Graph.dropEach_filter]
    exact a.graph.dropEach_lastId _ _
  have htidy := tidy h.sound h.fed
  have hup : ∀ n, .node n ∈ ask.stakes → n ∈ a.graph.nodes := by
    intro n hn
    rw [h.sound.exact.nodes]
    exact hown.held _ hn
  have hwithout := Graph.dropEach_eq htidy hup hown.once
  obtain ⟨b, hsteps, hgraph⟩ := exists_steps_dropEach h hown.once hown.held
  subst hleft
  have htopics : (a.graph.dropEach ask.stakes).topics = (a.graph.without ask.stakes).topics :=
    (congrArg Graph.topics hwithout :)
  exact
    { grounds := hgrounds
      nodes := (congrArg Graph.nodes hwithout :)
      topics := htopics
      services := (congrArg Graph.services hwithout :)
      feeds := (congrArg Graph.feeds hwithout :)
      lastId := rfl
      untouched := fun hnone => by rw [hnone]; rfl
      used := fun t ht => (htidy.without ask.stakes).used t (htopics ▸ ht)
      entered := fun name typeName md5 htopic =>
        Graph.enterTopic_of_clash (Ask.clash_of_grounds htopic hgrounds)
      dropped := ⟨b, hsteps, by rw [hgraph]⟩
      locked := by
        -- the number does not matter to the lock either
        have htidy' : Tidy (ask.refusing a.graph) := ⟨htidy.used, htidy.names, htidy.senders⟩
        have hsame : (ask.refusing a.graph).dropEach ask.stakes =
            { a.graph.dropEach ask.stakes with lastId := ask.spent a.graph } :=
          a.graph.dropEach_lastId _ _
        have hlocked := Graph.dropEachLocked?_eq htidy' hup hown.once
        rw [hsame] at hlocked
        exact hlocked }

/-! ## Refused twice -/

/-- Somebody who publishes empty pairs where listeners want texts, and offers a service. A second
node is there to be kept by somebody. -/
def occupied : Audit (Arrival String) :=
  let a := (({} : Audit (Arrival String)).register "a").register "b"
  (a.publish ⟨1, "/a"⟩ "chatter" Addition.Pair.type).advertise ⟨1, "/a"⟩ "s" Addition.service
    (fun _ => .done (.ok ⟨0⟩)) []

theorem occupied_reachable : Reachable occupied := by
  refine .tail (.tail (.tail (.single (.operation (.register _ "a")))
    (.operation (.register _ "b")))
    (.operation (.publish _ ⟨1, "/a"⟩ "chatter" Addition.Pair.type ?_)))
    (.operation (.advertise _ ⟨1, "/a"⟩ "s" _ _ _ ?_))
  all_goals decide

/-- A handler for the same service, which keeps the second node for its work. -/
def rival : Ask String Registration :=
  .advertise ⟨1, "/a"⟩ "s" Addition.service (fun _ => .done (.ok ⟨0⟩)) [.node ⟨2, "/b"⟩]

theorem rival_owned : rival.Owned occupied := by
  refine ⟨by decide, fun x hx => ?_⟩
  obtain rfl : x = .node ⟨2, "/b"⟩ := List.mem_singleton.mp hx
  show (⟨2, "/b"⟩ : Node) ∈ occupied.ledger.live
  decide

/-- A listener gets nothing but a number. A second handler gets nothing either, and the node that
it keeps is shut down. -/
theorem refused_forfeits_occupied :
    Reachable occupied ∧
    (∃ g', (Ask.listen ⟨1, "/a"⟩ : Ask String Listener).make occupied.graph =
        some (.error (Cause.typeMismatch "/chatter" "rospy_tutorials/AddTwoInts"
          "std_msgs/String"), g') ∧
      g' = { occupied.graph with lastId := 5 }) ∧
    ∃ g', rival.make occupied.graph = some (.error (Cause.duplicate "/s"), g') ∧
      g'.nodes = [⟨1, "/a"⟩] ∧ g'.lastId = 4 := by
  have hlisten : (Ask.listen ⟨1, "/a"⟩ : Ask String Listener).Owned occupied :=
    ⟨.nil, fun x hx => absurd hx List.not_mem_nil⟩
  have hturned := (refused_forfeits occupied_reachable _ hlisten rfl).resolve_left id
  have hrefused := (refused_forfeits occupied_reachable rival rival_owned rfl).resolve_left id
  refine ⟨occupied_reachable, ⟨_, rfl, hturned.untouched rfl⟩, _, rfl, ?_, hrefused.lastId⟩
  rw [hrefused.nodes]
  decide

/-- So a refusal need not leave the registry as it was. -/
theorem rival_not_untouched :
    Reachable occupied ∧ rival.Owned occupied ∧
    ∃ g', rival.make occupied.graph = some (.error (Cause.duplicate "/s"), g') ∧
      occupied.graph.nodes = [⟨1, "/a"⟩, ⟨2, "/b"⟩] ∧ g'.nodes = [⟨1, "/a"⟩] :=
  ⟨occupied_reachable, rival_owned, _, rfl, by decide, by decide⟩

end Audit

end NodeGraph
