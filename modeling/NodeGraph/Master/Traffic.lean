import NodeGraph.Client.Library
import NodeGraph.Master.Basic

/-!
# Messages, log records and calls between clients

A message goes to every subscription of its type that its topic has at that
moment, of any client. Handles of a client that has been closed go on working.

A client's log lines are printed, if their level is one of the usual ones, and
published as records that are numbered per client and name the topics that the
client publishes.
-/

namespace NodeGraph.Master

variable {ε : Type}

/-- Adds a payload to the feeds of all subscriptions on a topic. -/
def deliver (m : Master ε) (topic md5 : String) (payload : Wire.Bytes) : Master ε :=
  let ids := (m.subscriptions.filter fun s => s.topic = topic && s.md5 = md5).map (·.id)
  { m with feeds := m.feeds.push ids payload }

/-- Sends a message. -/
def send {α : Type} (m : Master ε) (p : Publisher α) (message : α) :
    Except ClientFault Unit × Master ε :=
  match p.type.pack message with
  | .error fault => (.error (.wire fault), m)
  | .ok payload => (.ok (), m.deliver p.topic p.type.md5 payload)

/-- The word that is printed for a level, if it is one of the usual ones. -/
def levelWord? (level : Level) : Option String :=
  if level = Level.debug then some "DEBUG"
  else if level = Level.info then some "INFO"
  else if level = Level.warn then some "WARN"
  else if level = Level.error then some "ERROR"
  else if level = Level.fatal then some "FATAL"
  else none

/-- The lines that are printed for an entry. -/
def printed (entry : Entry) : List String :=
  match levelWord? entry.level with
  | none => []
  | some word =>
    let text := s!"[{word} @ {entry.site.file}:{entry.site.line}]: {entry.text}"
    (text.toList.splitOn '\n').map String.ofList

/-- The record that a client publishes for an entry. -/
def record (m : Master ε) (c : Client) (entry : Entry) : Record :=
  { header := { seq := UInt32.ofNat (m.records.countP (·.1 = c.id)) }, level := entry.level,
    name := c.path.toText, msg := entry.text, file := entry.site.file, line := entry.site.line,
    topics := m.publishedTopics c.id }

/-- Logs an entry for a client that is still there. -/
def log (m : Master ε) (client : Nat) (entry : Entry) : Master ε :=
  match m.client? client with
  | none => m
  | some c =>
    let record := m.record c entry
    let m := { m with
      terminal := m.terminal ++ printed entry
      records := m.records ++ [(c.id, record)] }
    match Record.type.pack record with
    | .ok payload => m.deliver Record.topic Record.type.md5 payload
    | .error _ => m

/-- What becomes of the answer to a call. -/
def response {ρ σ : Type} (type : ServiceType ρ σ) :
    Except Refusal Wire.Bytes → Except ClientFault (Except String σ)
  | .error (.failed reason) => .ok (.error reason)
  | .error (.unreadable fault) => .error (.wire fault)
  | .error (.unwritable fault) => .error (.wire fault)
  | .ok payload =>
    match type.response.unpack payload with
    | .ok value => .ok (.ok value)
    | .error fault => .error (.wire fault)

/-- Hands a request to whoever provides the service of a name. -/
def request {ρ σ : Type} (name : String) (type : ServiceType ρ σ) : Requests (Master ε) ρ σ :=
  fun request m =>
    match m.provider? name with
    | none => (.error (.other "no provider"), m)
    | some p =>
      if p.md5 = type.md5 then
        match type.request.pack request with
        | .error fault => (.error (.wire fault), m)
        | .ok payload => (.ok (response type <$> p.handler.answer payload), m)
      else (.error (.other "md5 sums differ"), m)

/-- A client's way to a service. -/
def client {ρ σ : Type} (m : Master ε) (client : Nat) (service : String)
    (type : ServiceType ρ σ) : Except ClientFault (Requests (Master ε) ρ σ) × Master ε :=
  ((m.locate client service).map fun name => request name type, m)

end NodeGraph.Master
