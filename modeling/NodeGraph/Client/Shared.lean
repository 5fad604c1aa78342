import NodeGraph.Client.Library
import NodeGraph.Journal
import NodeGraph.Middleware.Basic

/-!
# Nodes with a client of their own

A node registers with a master by a client of a client library. The client is
shared: the node holds on to it, and so does every logger of the node, wherever it
is kept. Whoever lets go last closes it. Shutting a node down is no more than
letting go of it.

Whatever keeps a call from getting its response is a failure to communicate,
except that the service itself says it failed. Errors name the service as the
caller did.
-/

namespace NodeGraph

/-- A client library, and who holds on to its clients. -/
structure Shared (β : Type) where
  library : β
  /-- The last number given to a client. -/
  lastId : Nat := 0
  /-- The numbers of the clients that somebody holds on to, once for each holder. -/
  holds : List Nat := []
  /-- The process log. -/
  journal : List Line := []

namespace Shared

variable {β ε : Type} [ClientLibrary β ε]

/-! ## Holding on and letting go -/

/-- One holder more. -/
def hold (s : Shared β) (client : Nat) : Shared β := { s with holds := client :: s.holds }

/-- One holder less. The last one closes the client. -/
def letGo (s : Shared β) (client : Nat) : Shared β :=
  { s with
    library :=
      if s.holds.count client = 1 then ClientLibrary.close s.library client else s.library
    holds := s.holds.erase client }

/-- Drops a handle. -/
def drop (s : Shared β) : Handle → Shared β
  | .node node => s.letGo node.id
  | .logger logger => s.letGo logger.node
  | .registration registration =>
    let (clients, library) := ClientLibrary.withdraw s.library registration
    clients.foldl letGo { s with library }

/-- Drops some handles one after the other. -/
def dropEach (s : Shared β) (handles : List Handle) : Shared β := handles.foldl drop s

/-! ## Nodes and loggers -/

/-- The error of a node that could not be set up. -/
def setupFailure (name : String) (fault : ClientFault) : Error :=
  Error.wrap (Cause.client fault) (.message s!"Failed to initialize node {name}")

/-- Registers a node. -/
def register (s : Shared β) (name : String) : Except Error Node × Shared β :=
  let id := s.lastId + 1
  match ClientLibrary.connect s.library id name with
  | (.error fault, library) => (.error (setupFailure name fault), { s with library })
  | (.ok name, library) =>
    (.ok ⟨id, name⟩,
      { library, lastId := id, holds := id :: s.holds,
        journal := s.journal ++ [.registered name] })

/-- A logger for a node. -/
def logger (s : Shared β) (node : Node) : Logger × Shared β := (⟨node.id, node.name⟩, s.hold node.id)

/-- Logs an entry. -/
def log (s : Shared β) (logger : Logger) (entry : Entry) : Shared β :=
  { s with library := ClientLibrary.log s.library logger.node entry }

/-! ## What a node does -/

/-- What a caller makes of what has come of a request. -/
def concluded {σ : Type} (service : String) :
    Except ClientFault (Except String σ) → Except Error σ
  | .error fault => .error (Error.wrap (Cause.client fault) (.communication service))
  | .ok (.error reason) => .error (Cause.serviceFailed service reason)
  | .ok (.ok response) => .ok response

/-- Hands a call to whoever answers it. -/
def dispatch {ρ σ : Type} (s : Shared β) (node : Node) (service : String)
    (type : ServiceType ρ σ) (request : ρ) : Act (Except Error σ) × Shared β :=
  match ClientLibrary.client s.library node.id service type with
  | (.error fault, library) => (.done (concluded service (.error fault)), { s with library })
  | (.ok requests, library) =>
    match requests request library with
    | (.error fault, library) => (.done (concluded service (.error fault)), { s with library })
    | (.ok act, library) => (concluded service <$> act, { s with library })

/-- What the library has granted or refused. What would have been kept is dropped if it
has refused. -/
def orDropping {τ : Type} (s : Shared β) (owns : List Handle) :
    Except ClientFault τ × β → Except Error τ × Shared β
  | (.ok granted, library) => (.ok granted, { s with library })
  | (.error fault, library) =>
    (.error (Cause.client fault), dropEach { s with library } owns)

/-- Subscribes to a topic. The callback keeps some handles for its work. -/
def subscribe {α : Type} (s : Shared β) (node : Node) (topic : String) (capacity : Nat)
    (type : MessageType α) (receive : α → ε) (owns : List Handle) :
    Except Error Registration × Shared β :=
  s.orDropping owns
    (ClientLibrary.subscribe s.library node.id topic capacity type receive owns)

/-- Offers a service. The handler keeps some handles for its work. -/
def advertise {ρ σ : Type} (s : Shared β) (node : Node) (service : String)
    (type : ServiceType ρ σ) (answer : ρ → Act (Except String σ)) (owns : List Handle) :
    Except Error Registration × Shared β :=
  s.orDropping owns (ClientLibrary.service s.library node.id service type answer owns)

/-- Announces messages on a topic. -/
def publish {α : Type} (s : Shared β) (node : Node) (topic : String) (capacity : Nat)
    (type : MessageType α) : Except Error (Publisher α) × Shared β :=
  s.orDropping [] (ClientLibrary.publish s.library node.id topic capacity type)

/-- Sends a message. -/
def send {α : Type} (s : Shared β) (p : Publisher α) (message : α) :
    Except Error Unit × Shared β :=
  s.orDropping [] (ClientLibrary.send s.library p message)

instance : Middleware (Shared β) ε where
  arguments s := ClientLibrary.arguments s.library
  register := register
  logger := logger
  log := log
  nodeNames s := ClientLibrary.nodeNames s.library
  dispatch := dispatch
  subscribe := subscribe
  advertise := advertise
  publish := publish
  send := send
  drop := drop
  feeds s := ClientLibrary.feeds s.library
  withFeeds s feeds := { s with library := ClientLibrary.withFeeds s.library feeds }
  journal := journal
  withJournal s journal := { s with journal }

end Shared

end NodeGraph
