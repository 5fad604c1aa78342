import NodeGraph.Message.Record
import NodeGraph.Middleware.Feed
import NodeGraph.Middleware.Handler
import NodeGraph.Name.Path

/-!
# A master and its clients

A master knows which nodes there are and who publishes, subscribes and serves
under which path. A node is a client of the master from its connection until it
is closed.

Nodes may share a name, and a service belongs to whoever offered it last. Within
one node a topic has one type in each direction, and a service one handler.
-/

namespace NodeGraph

/-- A node's connection to the master. -/
structure Client where
  id : Nat
  /-- The node's path. -/
  path : Path
  /-- What the command line replaces, the last remapping first. -/
  remaps : List (Path × Path) := []
deriving DecidableEq, Repr

/-- Somebody publishes. -/
structure Publication where
  id : Nat
  node : Nat
  topic : String
  typeName : String
deriving DecidableEq, Repr

/-- Somebody is subscribed. -/
structure Subscription where
  id : Nat
  node : Nat
  topic : String
  typeName : String
  md5 : String
  /-- The handles that the callback keeps for its work. -/
  owns : List Handle := []
deriving DecidableEq, Repr

/-- Somebody serves. -/
structure Provision where
  id : Nat
  node : Nat
  name : String
  md5 : String
  handler : Handler

/-- The master, its clients, and what they have registered. -/
structure Master (ε : Type) where
  /-- Whether anybody answers where the master should be. -/
  isReachable : Bool := true
  /-- The command line that the nodes are started with. -/
  arguments : List String := []
  /-- The number of the last registration. -/
  lastId : Nat := 0
  clients : List Client := []
  publications : List Publication := []
  subscriptions : List Subscription := []
  provisions : List Provision := []
  /-- For each service the number of the provision that calls go to, the latest
  first. -/
  providers : List (String × Nat) := []
  feeds : Feeds ε := []
  /-- The log records that clients have published, each with the client's number. -/
  records : List (Nat × Record) := []
  /-- The lines printed to the terminal. -/
  terminal : List String := []

namespace Master

variable {ε : Type}

/-- The client of a number. -/
def client? (m : Master ε) (client : Nat) : Option Client := m.clients.find? (·.id = client)

/-- The names of all registered nodes in ascending order. -/
def nodeNames (m : Master ε) : List String :=
  (m.clients.map (·.path.toText)).mergeSort fun a b => a ≤ b

/-- The provision that calls to a service go to. -/
def provider? (m : Master ε) (name : String) : Option Provision :=
  match m.providers.lookup name with
  | some id => m.provisions.find? (·.id = id)
  | none => none

/-- What a client publishes, each topic once: its own topics and the one that
records go to. -/
def publishedTopics (m : Master ε) (client : Nat) : List String :=
  ((Record.topic :: (m.publications.filter (·.node = client)).map (·.topic)).eraseDups).mergeSort
    fun a b => a ≤ b

/-- The type of a client's messages on a topic. -/
def publishedType? (m : Master ε) (client : Nat) (topic : String) : Option String :=
  if topic = Record.topic then some Record.type.name
  else (m.publications.find? fun p => p.node = client && p.topic = topic).map (·.typeName)

/-- The type under which a client is subscribed to a topic. -/
def subscribedType? (m : Master ε) (client : Nat) (topic : String) : Option String :=
  (m.subscriptions.find? fun s => s.node = client && s.topic = topic).map (·.typeName)

/-- The path that a client means by a name. -/
def locate (m : Master ε) (client : Nat) (name : String) : Except ClientFault String :=
  match m.client? client with
  | none => .error (.other "Node is shut down")
  | some c =>
    match c.path.locate c.remaps name with
    | .ok path => .ok path.toText
    | .error fault => .error (.path fault)

end Master

end NodeGraph
