import Mathlib.Logic.Relation
import NodeGraph.Graph.Traffic
import NodeGraph.Proofs.Audit.Ledger

/-!
# Runs of an audited graph

An `Audit` is a graph with the ledger of what it has handed out. Every
operation of the graph becomes an operation of the audit that carries it out
and enters into the ledger what came back: the node or the handle if it
succeeded, nothing if it was refused. What a sending or a log entry puts on a
topic is listed as letters (`sendLetters`, `logLetters`), one for each time a
topic's payload is handed to all of its subscriptions.

`Operation` says which operations may come next. Nothing is asked of them but
what ownership guarantees: a node is used only while it is up, a publisher is
sent through only while it is held, and a handle is dropped only once. Loggers
may log at any time, whether their node is up or not. A call is not an operation
of its own: what its handler does are operations like everybody's, and others may
come in between (`Audit.Carries`). A handler that goes away with its service leaves
the handles it owns in the ledger, to be dropped whenever.

`Turn` is one step of the delivery thread of one feed: it takes the oldest
payload, or deals with the one it holds, or comes to its end. A `Step` is either
of the two, and `Reachable` audits are those that any number of steps in any
order make out of the empty one.
-/

namespace NodeGraph

/-! ## Letters -/

namespace Graph

variable {ε : Type}

/-- Whether a topic exists and carries messages with that sum. -/
def carries (g : Graph ε) (topic md5 : String) : Bool := (g.topic? topic).any (·.md5 = md5)

/-- What sending puts on the publisher's topic. -/
def sendLetters {α : Type} (g : Graph ε) (p : Publisher α) (message : α) : List Letter :=
  match h : p.type.pack message with
  | .error _ => []
  | .ok payload =>
    if g.isAlive p.node && (g.topic? p.topic).isSome then
      [⟨p.type, message, p.topic, payload, h⟩]
    else []

/-- What logging puts on the topic of records. -/
def logLetters (g : Graph ε) (logger : Logger) (entry : Entry) : List Letter :=
  match h : Record.type.pack (record logger entry) with
  | .error _ => []
  | .ok payload =>
    if g.isAlive logger.node && g.carries Record.topic Record.type.md5 then
      [⟨Record.type, record logger entry, Record.topic, payload, h⟩]
    else []

end Graph

/-- The feed after the next step of its thread, if there is one: a held payload
is dealt with, else the oldest one is taken, else a thread with nothing to wait
for comes to its end. -/
def Feed.advance? {ε : Type} (f : Feed ε) : Option (Feed ε) :=
  if f.ended then none
  else
    match f.held with
    | some _ => some f.finish
    | none =>
      match f.take? with
      | some taken => some taken
      | none => if f.isSpent then some { f with ended := true } else none

/-! ## Audits -/

/-- A graph with the ledger of what it has handed out. -/
structure Audit (ε : Type) where
  graph : Graph ε := {}
  ledger : Ledger ε := {}

namespace Audit

variable {ε : Type}

/-- Registers a node. -/
def register (a : Audit ε) (name : String) : Audit ε :=
  match a.graph.register name with
  | (.ok node, graph) => ⟨graph, a.ledger.enter ⟨node.id, Name.resolve "/" name⟩⟩
  | (.error _, graph) => ⟨graph, a.ledger⟩

/-- Shuts a node down. -/
def shutDown (a : Audit ε) (node : Node) : Audit ε :=
  ⟨a.graph.drop (.node node), a.ledger.shutDown node.id⟩

/-- Subscribes a node to a topic. -/
def subscribe {α : Type} (a : Audit ε) (node : Node) (topic : String) (capacity : Nat)
    (type : MessageType α) (callback : α → ε) : Audit ε :=
  match a.graph.addSubscriber node topic capacity type callback with
  | (.ok handle, graph) =>
    ⟨graph, a.ledger.subscribe
      { node, asked := topic, handle, item := { type, capacity, callback } }⟩
  | (.error _, graph) => ⟨graph, a.ledger⟩

/-- Makes a node a publisher on a topic. -/
def publish {α : Type} (a : Audit ε) (node : Node) (topic : String) (type : MessageType α) :
    Audit ε :=
  match a.graph.publish node topic type with
  | (.ok publisher, graph) =>
    ⟨graph, a.ledger.publish
      { node, asked := topic, handle := publisher.registration, item := { publisher } }⟩
  | (.error _, graph) => ⟨graph, a.ledger⟩

/-- Offers a service on a node. -/
def advertise {ρ σ : Type} (a : Audit ε) (node : Node) (service : String)
    (type : ServiceType ρ σ) (answer : ρ → Act (Except String σ)) (owns : List Handle) :
    Audit ε :=
  match a.graph.addService node service type answer owns with
  | (.ok handle, graph) =>
    ⟨graph, a.ledger.offer
      { node, asked := service, handle,
        item := ⟨type.name, type.md5, .ofTyped type answer owns⟩ }⟩
  | (.error _, graph) => ⟨graph, a.ledger⟩

/-- Sends a message. -/
def send {α : Type} (a : Audit ε) (p : Publisher α) (message : α) : Audit ε :=
  ⟨(a.graph.send p message).2, (a.graph.sendLetters p message).foldl Ledger.post a.ledger⟩

/-- Logs an entry. -/
def log (a : Audit ε) (logger : Logger) (entry : Entry) : Audit ε :=
  ⟨a.graph.log logger entry, (a.graph.logLetters logger entry).foldl Ledger.post a.ledger⟩

/-- Drops the handle of a registration. -/
def drop (a : Audit ε) (r : Registration) : Audit ε :=
  ⟨a.graph.drop (.registration r), a.ledger.drop r.id⟩

/-! ## Steps -/

/-- An operation of somebody who uses the graph. -/
inductive Operation : Audit ε → Audit ε → Prop where
  | register (a : Audit ε) (name : String) : Operation a (a.register name)
  | shutDown (a : Audit ε) (node : Node) (h : node ∈ a.ledger.live) :
    Operation a (a.shutDown node)
  | subscribe {α : Type} (a : Audit ε) (node : Node) (topic : String) (capacity : Nat)
    (type : MessageType α) (callback : α → ε) (h : node ∈ a.ledger.live) :
    Operation a (a.subscribe node topic capacity type callback)
  | publish {α : Type} (a : Audit ε) (node : Node) (topic : String) (type : MessageType α)
    (h : node ∈ a.ledger.live) : Operation a (a.publish node topic type)
  | advertise {ρ σ : Type} (a : Audit ε) (node : Node) (service : String)
    (type : ServiceType ρ σ) (answer : ρ → Act (Except String σ)) (owns : List Handle)
    (h : node ∈ a.ledger.live) : Operation a (a.advertise node service type answer owns)
  | send (a : Audit ε) (c : Grant Outlet) (message : c.item.α)
    (h : c ∈ a.ledger.publications) (held : c.id ∉ a.ledger.dropped) :
    Operation a (a.send c.item.publisher message)
  | log (a : Audit ε) (logger : Logger) (entry : Entry) : Operation a (a.log logger entry)
  | drop (a : Audit ε) (r : Registration) (h : a.ledger.Holds r) : Operation a (a.drop r)
  /-- The process log belongs to everybody. -/
  | journal (a : Audit ε) (journal : List Line) :
    Operation a ⟨{ a.graph with journal }, a.ledger⟩

/-- A step of the delivery thread of `feed`. -/
inductive Turn (feed : Feed ε) : Audit ε → Audit ε → Prop where
  | advance (a : Audit ε) (h : feed ∈ a.graph.feeds) (next : Feed ε)
    (hnext : feed.advance? = some next) :
    Turn feed a
      ⟨{ a.graph with feeds := a.graph.feeds.modify feed.id fun _ => next },
        a.ledger.turn feed⟩

/-- A step of anybody. -/
inductive Step : Audit ε → Audit ε → Prop where
  | operation {a b : Audit ε} (h : Operation a b) : Step a b
  | turn {a b : Audit ε} (feed : Feed ε) (h : Turn feed a b) : Step a b

/-- Any number of steps, one after the other. -/
abbrev Steps : Audit ε → Audit ε → Prop := Relation.ReflTransGen Step

/-- What steps make out of an empty graph. -/
def Reachable (a : Audit ε) : Prop := Steps {} a

end Audit

end NodeGraph
