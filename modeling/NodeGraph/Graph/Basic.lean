import NodeGraph.Error
import NodeGraph.Journal
import NodeGraph.Middleware.Feed
import NodeGraph.Middleware.Handler
import NodeGraph.Name.Resolve

/-!
# The graph

A graph is a registry of nodes, topics and services inside one process, with
the feeds of its subscriptions. A topic exists as long as somebody publishes or
subscribes to it, and keeps the message type of whoever came first. Nodes,
publishers, subscriptions and services are numbered together, and a number is
never given out twice.

This file holds the state and what can be read off it; `Registry` changes it,
`Traffic` moves messages and calls through it.
-/

namespace NodeGraph

/-- A publisher or subscription on a topic, and the node that owns it. -/
structure Member where
  id : Nat
  node : Nat
deriving DecidableEq, Repr

/-- A topic in use. -/
structure Topic where
  name : String
  /-- The message type of whoever made the topic. -/
  typeName : String
  md5 : String
  publishers : List Member := []
  subscribers : List Member := []
deriving DecidableEq, Repr

namespace Topic

/-- Whether anybody publishes or subscribes. -/
def isUsed (t : Topic) : Bool := !(t.publishers.isEmpty && t.subscribers.isEmpty)

/-- One more publisher. -/
def addPublisher (t : Topic) (m : Member) : Topic := { t with publishers := t.publishers ++ [m] }

/-- One more subscription. -/
def addSubscriber (t : Topic) (m : Member) : Topic :=
  { t with subscribers := t.subscribers ++ [m] }

/-- Without the publisher of that number. -/
def withoutPublisher (t : Topic) (id : Nat) : Topic :=
  { t with publishers := t.publishers.filter (·.id ≠ id) }

/-- Without the subscription of that number. -/
def withoutSubscriber (t : Topic) (id : Nat) : Topic :=
  { t with subscribers := t.subscribers.filter (·.id ≠ id) }

/-- Without all members that a node owns. -/
def withoutNode (t : Topic) (node : Nat) : Topic :=
  { t with
    publishers := t.publishers.filter (·.node ≠ node)
    subscribers := t.subscribers.filter (·.node ≠ node) }

end Topic

/-- A service on offer. -/
structure Service where
  name : String
  id : Nat
  /-- The node that offers it. -/
  node : Nat
  typeName : String
  md5 : String
  handler : Handler

/-- A registry and the feeds of its subscriptions. -/
structure Graph (ε : Type) where
  /-- The last number given out. -/
  lastId : Nat := 0
  /-- The live nodes. -/
  nodes : List Node := []
  topics : List Topic := []
  services : List Service := []
  feeds : Feeds ε := []
  /-- The process log. -/
  journal : List Line := []

namespace Graph

variable {ε : Type}

/-- Whether the node of that number is alive. -/
def isAlive (g : Graph ε) (node : Nat) : Bool := g.nodes.any (·.id = node)

/-- The topic of a global name. -/
def topic? (g : Graph ε) (name : String) : Option Topic := g.topics.find? (·.name = name)

/-- The service of a global name. -/
def service? (g : Graph ε) (name : String) : Option Service := g.services.find? (·.name = name)

/-- The names of all nodes in ascending order. -/
def nodeNames (g : Graph ε) : List String :=
  (g.nodes.map (·.name)).mergeSort fun a b => a ≤ b

/-- How many subscriptions a topic has, its name taken from the root. -/
def subscriberCount (g : Graph ε) (topic : String) : Nat :=
  match g.topic? (Name.resolve "/" topic) with
  | some t => t.subscribers.length
  | none => 0

/-- Whether a service is on offer, its name taken from the root. -/
def hasService (g : Graph ε) (service : String) : Bool :=
  (g.service? (Name.resolve "/" service)).isSome

/-- Adds a line to the process log. -/
def note (g : Graph ε) (line : Line) : Graph ε := { g with journal := g.journal ++ [line] }

end Graph

end NodeGraph
