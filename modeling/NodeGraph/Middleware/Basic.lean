import NodeGraph.Error
import NodeGraph.Journal
import NodeGraph.Middleware.Feed
import NodeGraph.Middleware.Handler

/-!
# The seam between components and their middleware

Components are written against `Middleware`: a state `β` in which nodes are
registered, send, call and log. Every operation gives the state after it, also
one that fails. What subscribers make of the messages handed to them is a value
of type `ε`.

A registration is taken back by dropping its handle, and a node is shut down by
dropping the node.

A call has no result but that of the course of action that answers it. What is done
there goes step by step (`advance`) until it is over (`run`), and need never be over:
handlers may call each other round in circles.
-/

namespace NodeGraph

/-- A middleware with state `β`, whose subscribers turn messages into `ε`. -/
class Middleware (β : Type) (ε : outParam Type) where
  /-- The command line that nodes are named by. -/
  arguments : β → List String
  /-- Registers a node under a name. -/
  register : β → String → Except Error Node × β
  /-- A logger for a node. -/
  logger : β → Node → Logger × β
  /-- Logs an entry. -/
  log : β → Logger → Entry → β
  /-- The names of all nodes in ascending order. -/
  nodeNames : β → List String
  /-- Hands a call to whoever answers it: what there is to do, down to the result. -/
  dispatch {ρ σ : Type} : β → Node → String → ServiceType ρ σ → ρ → Act (Except Error σ) × β
  /-- Subscribes to a topic with a queue of the given capacity. The callback keeps some
  handles for its work, which are dropped if it is refused. -/
  subscribe {α : Type} : β → Node → String → Nat → MessageType α → (α → ε) →
    (owns : List Handle) → Except Error Registration × β
  /-- Offers a service. The handler keeps some handles for its work, which are dropped if it
  is refused. -/
  advertise {ρ σ : Type} : β → Node → String → ServiceType ρ σ → (ρ → Act (Except String σ)) →
    (owns : List Handle) → Except Error Registration × β
  /-- Announces messages on a topic. -/
  publish {α : Type} : β → Node → String → Nat → MessageType α → Except Error (Publisher α) × β
  /-- Sends a message. -/
  send {α : Type} : β → Publisher α → α → Except Error Unit × β
  /-- Drops a handle. -/
  drop : β → Handle → β
  /-- The feeds of all subscriptions. -/
  feeds : β → Feeds ε
  /-- The state with other feeds. -/
  withFeeds : β → Feeds ε → β
  /-- The lines of the process log, in order. -/
  journal : β → List Line
  /-- The state with other lines in the process log. -/
  withJournal : β → List Line → β

namespace Middleware

variable {β ε : Type} [Middleware β ε]

/-- Adds a line to the process log. -/
def note (b : β) (line : Line) : β :=
  Middleware.withJournal b (Middleware.journal b ++ [line])

/-- Logs an entry for a node through a logger that is dropped afterwards. -/
def logFor (b : β) (node : Node) (entry : Entry) : β :=
  let (logger, b) := Middleware.logger b node
  Middleware.drop (Middleware.log b logger entry) (.logger logger)

/-! ## Calls -/

/-- What is left of a course of action after the next thing in it has been done. -/
def advance {α : Type} (b : β) : Act α → Act α × β
  | .done result => (.done result, b)
  | .names next => (next (Middleware.nodeNames b), b)
  | .register name next =>
    let (made, b) := Middleware.register b name
    (next made, b)
  | .lend node next =>
    let (logger, b) := Middleware.logger b node
    (next logger, b)
  | .log logger entry next => (next, Middleware.log b logger entry)
  | .publish node topic capacity type next =>
    let (made, b) := Middleware.publish b node topic capacity type
    (next made, b)
  | .send publisher message next =>
    let (sent, b) := Middleware.send b publisher message
    (next sent, b)
  | .call node service type request next =>
    let (act, b) := Middleware.dispatch b node service type request
    (act.bind next, b)
  | .drop handle next => (next, Middleware.drop b handle)

/-- Carries out a course of action. Nothing comes of one that is never over. -/
def run {α : Type} (b : β) (act : Act α) : Option (α × β) :=
  match act with
  | .done result => some (result, b)
  | act =>
    let (act, b) := advance b act
    -- plain application, without the note of its place in the file that recursive calls carry
    leftact% run b act
partial_fixpoint

/-- Calls a service and waits for the response. -/
def call {ρ σ : Type} (b : β) (node : Node) (service : String) (type : ServiceType ρ σ)
    (request : ρ) : Option (Except Error σ × β) :=
  let (act, b) := Middleware.dispatch b node service type request
  run b act

end Middleware

end NodeGraph
