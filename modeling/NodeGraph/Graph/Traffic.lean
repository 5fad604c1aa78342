import NodeGraph.Graph.Basic

/-!
# Messages, log records and calls

A message is written once and added to the feed of every subscription that its
topic has at that moment; nobody has to listen. Sending compares no types: the
publisher of a live node keeps its topic, and with it the type, alive. Log
records go out without a publisher, and so only to subscriptions of their own
type.

A call is made in steps that fail in a fixed order: there has to be a provider,
with the same sum, the request has to be written, the provider has to give a
response, and the response has to be read.
-/

namespace NodeGraph.Graph

variable {ε : Type}

/-- Adds a payload to the feeds of all subscriptions on a topic. -/
def fanOut (g : Graph ε) (topic : Topic) (payload : Wire.Bytes) : Graph ε :=
  { g with feeds := g.feeds.push (topic.subscribers.map (·.id)) payload }

/-- Sends a message. A node that is gone cannot send, and a topic that nobody
subscribes to takes the message without effect. -/
def send {α : Type} (g : Graph ε) (p : Publisher α) (message : α) : Except Error Unit × Graph ε :=
  match p.type.pack message with
  | .error fault => (.error (Cause.io fault), g)
  | .ok payload =>
    if g.isAlive p.node then
      match g.topic? p.topic with
      | some topic => (.ok (), g.fanOut topic payload)
      | none => (.ok (), g)
    else (.error (Cause.closed p.topic), g)

/-- Sends to whoever subscribes to a topic with that sum, if the node is alive. -/
def broadcast (g : Graph ε) (node : Nat) (topic md5 : String) (payload : Wire.Bytes) : Graph ε :=
  if g.isAlive node then
    match g.topic? topic with
    | some t => if t.md5 = md5 then g.fanOut t payload else g
    | none => g
  else g

/-- The record of an entry. -/
def record (logger : Logger) (entry : Entry) : Record :=
  { level := entry.level, name := logger.name, msg := entry.text,
    file := entry.site.file, line := entry.site.line }

/-- Logs an entry: a line in the process log, and a record for those who want
to know, as long as the node is alive. -/
def log (g : Graph ε) (logger : Logger) (entry : Entry) : Graph ε :=
  let g := g.note ⟨.ofLevel entry.level, logger.name, entry.text⟩
  match Record.type.pack (record logger entry) with
  | .ok payload => g.broadcast logger.node Record.topic Record.type.md5 payload
  | .error fault => g.note ⟨.error, "", s!"Failed to encode log record: {fault.message}"⟩

/-- The provider of a service, if it is of the wanted type. -/
def provider (g : Graph ε) (name typeName md5 : String) : Except Error Handler :=
  match g.service? name with
  | none => .error (Error.wrap (Cause.message "no provider") (.communication name))
  | some s =>
    if s.md5 = md5 then .ok s.handler
    else .error (Cause.typeMismatch name s.typeName typeName)

/-- What a caller makes of what the provider of a service has given. -/
def received {ρ σ : Type} (name : String) (type : ServiceType ρ σ) :
    Except Refusal Wire.Bytes → Except Error σ
  | .error refusal => .error (Cause.serviceFailed name refusal.message)
  | .ok response =>
    match type.response.unpack response with
    | .ok value => .ok value
    | .error fault => .error (Cause.io fault)

/-- Hands a call to whoever provides the service. -/
def dispatch {ρ σ : Type} (g : Graph ε) (node : Node) (service : String) (type : ServiceType ρ σ)
    (request : ρ) : Act (Except Error σ) :=
  let name := Name.resolve node.name service
  match g.provider name type.name type.md5 with
  | .error e => .done (.error e)
  | .ok handler =>
    match type.request.pack request with
    | .error fault => .done (.error (Cause.io fault))
    | .ok payload => received name type <$> handler.answer payload

end NodeGraph.Graph
