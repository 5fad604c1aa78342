import NodeGraph.Error
import NodeGraph.Middleware.Handle

/-!
# Service handlers

A handler answers requests. While it works it may use the handles it keeps, and do
what a component does: register nodes, log, publish and send, call other services,
or drop something. `Act` is such a course of action as a value: it says what is done
next and how it goes on, and leaves it to the middleware to carry it out. Messages,
requests and responses are bytes in it. That says no less than values would, since a
service type of bytes may write them as any other type does.

Handlers of typed services are wrapped into handlers of payloads by
`Handler.ofTyped`. There is no response if the handler says so, and also if the
request cannot be read or the response cannot be written.
-/

namespace NodeGraph

open Wire (Bytes)

/-- A course of action that ends in a value. -/
inductive Act (α : Type) where
  /-- It is over. -/
  | done (result : α)
  /-- Go on with the names of the nodes. -/
  | names (next : List String → Act α)
  /-- Register a node under a name. -/
  | register (name : String) (next : Except Error Node → Act α)
  /-- Make a logger for a node. -/
  | lend (node : Node) (next : Logger → Act α)
  /-- Log an entry, then go on. -/
  | log (logger : Logger) (entry : Entry) (next : Act α)
  /-- Announce messages on a topic. -/
  | publish (node : Node) (topic : String) (capacity : Nat) (type : MessageType Bytes)
    (next : Except Error (Publisher Bytes) → Act α)
  /-- Send a message. -/
  | send (publisher : Publisher Bytes) (message : Bytes) (next : Except Error Unit → Act α)
  /-- Call a service. -/
  | call (node : Node) (service : String) (type : ServiceType Bytes Bytes) (request : Bytes)
    (next : Except Error Bytes → Act α)
  /-- Drop a handle, then go on. -/
  | drop (handle : Handle) (next : Act α)

namespace Act

/-- One course of action after another. -/
def bind {α β : Type} : Act α → (α → Act β) → Act β
  | .done a, f => f a
  | .names next, f => .names fun names => (next names).bind f
  | .register name next, f => .register name fun made => (next made).bind f
  | .lend node next, f => .lend node fun logger => (next logger).bind f
  | .log logger entry next, f => .log logger entry (next.bind f)
  | .publish node topic capacity type next, f =>
    .publish node topic capacity type fun made => (next made).bind f
  | .send publisher message next, f => .send publisher message fun sent => (next sent).bind f
  | .call node service type request next, f =>
    .call node service type request fun result => (next result).bind f
  | .drop handle next, f => .drop handle (next.bind f)

instance : Monad Act where
  pure := .done
  bind := bind

end Act

/-- Why a service gives no response. -/
inductive Refusal where
  /-- The handler says so. -/
  | failed (reason : String)
  /-- The request could not be read. -/
  | unreadable (fault : Wire.Fault)
  /-- The response could not be written. -/
  | unwritable (fault : Wire.Fault)
deriving DecidableEq, Repr

/-- The wording of a refusal. -/
def Refusal.message : Refusal → String
  | .failed reason => reason
  | .unreadable fault => fault.message
  | .unwritable fault => fault.message

/-- What answers the requests to a service. -/
structure Handler where
  /-- The course of action for a request: in the end a response, or the reason
  why there is none. -/
  answer : Bytes → Act (Except Refusal Bytes)
  /-- The handles it keeps for its work. -/
  owns : List Handle := []

namespace Handler

/-- The payload of a typed answer. -/
def response {ρ σ : Type} (type : ServiceType ρ σ) : Except String σ → Except Refusal Bytes
  | .error reason => .error (.failed reason)
  | .ok value =>
    match type.response.pack value with
    | .ok payload => .ok payload
    | .error fault => .error (.unwritable fault)

/-- A handler of payloads from one of values. -/
def ofTyped {ρ σ : Type} (type : ServiceType ρ σ) (answer : ρ → Act (Except String σ))
    (owns : List Handle := []) : Handler where
  answer payload :=
    match type.request.unpack payload with
    | .error fault => .done (.error (.unreadable fault))
    | .ok request => do
      let result ← answer request
      pure (response type result)
  owns

end Handler

end NodeGraph
