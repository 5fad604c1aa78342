import NodeGraph.Component.Requester
import NodeGraph.Component.Server
import NodeGraph.Graph.Middleware
import NodeGraph.Proofs.Calls.Courses
import NodeGraph.Proofs.Wire.Payloads

/-!
# What a request for a sum comes to

Between the two components lie a look-up, two messages there and back and two
loggers. Here all of that is reduced to what somebody sees from outside: the result
(`verdict`), and what has happened to the graph, which is that two nodes have said
something (`said`) or nothing at all.

> `requestSum_eq`: if the addition server of a live node provides the service, a
> live client is told the exact sum, and first the server and then the client says
> so; where the sum has no 64-bit form the client is told that, and nobody says
> anything.
>
> `requestSums_eq`: the same for any number of requests, one after the other.

What is needed of the graph (`Provides`) can be read off its nodes and services,
which no request touches.
-/

namespace NodeGraph

open Wire

variable {ε : Type}

/-! ## Sums -/

namespace Operands

/-- The sum of the integers. -/
def exact (o : Operands) : Int := o.a.toInt + o.b.toInt

/-- Whether the sum has a 64-bit form. -/
def Fits (o : Operands) : Prop := -2 ^ 63 ≤ o.exact ∧ o.exact < 2 ^ 63

instance (o : Operands) : Decidable o.Fits := inferInstanceAs (Decidable (_ ∧ _))

/-- What is said when the sum is known. -/
def statement (o : Operands) : String :=
  toString o.a.toInt ++ " + " ++ toString o.b.toInt ++ " = " ++ toString o.exact

/-- What is said when there is no sum. -/
def complaint (o : Operands) : String :=
  toString o.a.toInt ++ " + " ++ toString o.b.toInt ++ " overflows int64"

/-- What somebody who asks for the sum has to be told. -/
def verdict (o : Operands) : Except Error Equation :=
  if o.Fits then .ok ⟨o.a, o.b, Int64.ofInt o.exact⟩
  else .error (Cause.serviceFailed "/add_two_ints" o.complaint)

variable {o : Operands}

theorem inRange_iff : Decimal.inRange o.exact = true ↔ o.Fits := by
  unfold Decimal.inRange Decimal.smallest Decimal.largest Fits
  rw [Bool.and_eq_true, decide_eq_true_iff, decide_eq_true_iff]
  omega

theorem toInt_exact (h : o.Fits) : (Int64.ofInt o.exact).toInt = o.exact :=
  Int64.toInt_ofInt_of_le h.1 h.2

theorem add_of_fits (h : o.Fits) : Addition.add o.a o.b = .ok (Int64.ofInt o.exact) :=
  if_pos (inRange_iff.mpr h)

theorem add_of_not_fits (h : ¬ o.Fits) : Addition.add o.a o.b = .error o.complaint :=
  if_neg fun hrange => h (inRange_iff.mp hrange)

theorem toText_exact (h : o.Fits) :
    (⟨o.a, o.b, Int64.ofInt o.exact⟩ : Equation).toText = o.statement := by
  unfold Equation.toText Decimal.write statement
  rw [toInt_exact h]

end Operands

/-! ## Saying something -/

/-- The record of what a node says. -/
def Record.saying (node : Node) (text : String) : Record :=
  { level := Level.info, name := node.name, msg := text, file := "<component>", line := 0 }

/-- A body behind its frame. -/
def framed (body : Bytes) : Bytes := Codec.count body.length ++ body

theorem drop_framed (body : Bytes) : (framed body).drop 4 = body := by
  rw [framed, ← Codec.Faithful.length_count body.length, List.drop_left]

theorem unpack_framed {α : Type} {c : Codec α} {fits : α → Prop} (h : c.Faithful fits) {v : α}
    (hv : fits v) : (Format.ofCodec c).unpack (framed (c.encode v)) = .ok v := by
  have hread : (Format.ofCodec c).decode (c.encode v) = .ok (v, []) :=
    (h.decode_iff _ _ _).mpr ⟨hv, (List.append_nil _).symm⟩
  unfold Format.unpack
  rw [drop_framed, hread]

namespace Graph

/-- The subscriptions that log records go to. -/
def watchers (g : Graph ε) : List Nat :=
  match g.topic? Record.topic with
  | some t => if t.md5 = Record.type.md5 then t.subscribers.map (·.id) else []
  | none => []

/-- A node has said something: there is a line more in the process log, and a record
more on the way to whoever watches. -/
def said (g : Graph ε) (node : Node) (text : String) : Graph ε :=
  { g with
    journal := g.journal ++ [⟨.info, node.name, text⟩]
    feeds := g.feeds.push g.watchers (framed (Record.codec.encode (.saying node text))) }

variable {g : Graph ε} {node server client : Node} {o : Operands}

/-- Nothing is pushed to nobody. -/
theorem push_nil (fs : Feeds ε) (payload : Bytes) : fs.push [] payload = fs := by
  unfold Feeds.push
  simp

/-- Broadcasting a record pushes it to those who watch, if the node is alive. -/
theorem broadcast_eq (g : Graph ε) (node : Nat) (payload : Bytes) :
    g.broadcast node Record.topic Record.type.md5 payload =
      { g with feeds := g.feeds.push (if g.isAlive node then g.watchers else []) payload } := by
  unfold broadcast watchers
  by_cases halive : g.isAlive node = true
  · simp only [if_pos halive]
    cases g.topic? Record.topic with
    | none => simp only [push_nil]
    | some t =>
      by_cases hsum : t.md5 = Record.type.md5
      · simp only [if_pos hsum]
        rfl
      · simp only [if_neg hsum, push_nil]
  · simp only [if_neg halive, push_nil]

/-- Logging is a line in the process log and a payload for those who watch, if the node is
alive, and nothing else. -/
theorem log_eq (g : Graph ε) (logger : Logger) (entry : Entry) :
    g.log logger entry =
      { g with
        journal := g.journal ++ [⟨.ofLevel entry.level, logger.name, entry.text⟩]
        feeds := g.feeds.push (if g.isAlive logger.node then g.watchers else [])
          (framed (Record.codec.encode (record logger entry))) } :=
  broadcast_eq (g.note ⟨.ofLevel entry.level, logger.name, entry.text⟩) logger.node _

/-- A node that is alive says what it logs. -/
theorem log_info (halive : g.isAlive node.id = true) (text : String) :
    g.log ⟨node.id, node.name⟩ (.info text) = g.said node text := by
  rw [log_eq, if_pos halive]
  rfl

end Graph

/-! ## Requests -/

/-- The handler of the addition server of a node. -/
def AdditionServer.handler (server : Node) : Handler :=
  .ofTyped Addition.service (answer ⟨server.id, server.name⟩) [.logger ⟨server.id, server.name⟩]

namespace Graph

variable {g : Graph ε} {server client : Node} {o : Operands}

/-- The addition server of a node that is alive is what everybody finds. -/
structure Provides (g : Graph ε) (server : Node) : Prop where
  provider : g.provider "/add_two_ints" Addition.service.name Addition.service.md5 =
    .ok (AdditionServer.handler server)
  alive : g.isAlive server.id = true

/-- Every node finds the server by the name of the service. -/
theorem Provides.found (h : Provides g server) (client : Node) :
    g.provider (Name.resolve client.name Addition.serviceName) Addition.service.name
      Addition.service.md5 = .ok (AdditionServer.handler server) := h.provider

/-- A request is about nodes and services, and changes neither. -/
theorem Provides.congr {g' : Graph ε} (h : Provides g server) (hnodes : g'.nodes = g.nodes)
    (hservices : g'.services = g.services) : Provides g' server := by
  refine ⟨?_, ?_⟩
  · rw [← h.provider]
    unfold Graph.provider service?
    rw [hservices]
  · rw [← h.alive]
    unfold isAlive
    rw [hnodes]

theorem pack_request (o : Operands) : Addition.service.request.pack ⟨o.a, o.b⟩ =
    .ok (framed (Addition.Request.codec.encode ⟨o.a, o.b⟩)) := rfl

theorem unpack_response (sum : Int64) : Addition.service.response.unpack
    (framed (Addition.Response.codec.encode ⟨sum⟩)) = .ok ⟨sum⟩ :=
  unpack_framed Addition.Response.codec_faithful trivial

/-- What the server does about a request. -/
theorem answer_eq (logger : Logger) (o : Operands) :
    AdditionServer.answer logger ⟨o.a, o.b⟩ =
      if o.Fits then .log logger (.info o.statement) (.done (.ok ⟨Int64.ofInt o.exact⟩))
      else .done (.error o.complaint) := by
  unfold AdditionServer.answer
  by_cases h : o.Fits
  · simp only [Operands.add_of_fits h, Operands.toText_exact h, if_pos h]
  · simp only [Operands.add_of_not_fits h, if_neg h]

/-- What its handler does about the payload of one. -/
theorem handler_answer (server : Node) (o : Operands) :
    (AdditionServer.handler server).answer
        (framed (Addition.Request.codec.encode ⟨o.a, o.b⟩)) =
      if o.Fits then
        .log ⟨server.id, server.name⟩ (.info o.statement)
          (.done (.ok (framed (Addition.Response.codec.encode ⟨Int64.ofInt o.exact⟩))))
      else .done (.error (.failed o.complaint)) := by
  have hread : Addition.service.request.unpack
      (framed (Addition.Request.codec.encode ⟨o.a, o.b⟩)) = .ok ⟨o.a, o.b⟩ :=
    unpack_framed Addition.Request.codec_faithful trivial
  unfold AdditionServer.handler Handler.ofTyped
  simp only [hread, answer_eq]
  by_cases h : o.Fits
  · rw [if_pos h, if_pos h]
    rfl
  · rw [if_neg h, if_neg h]
    rfl

/-- What a graph is after a request. -/
def requested (g : Graph ε) (server client : Node) (o : Operands) : Graph ε :=
  if o.Fits then (g.said server o.statement).said client o.statement else g

/-- What there is to do about a request: what its handler does, and to read the sum. -/
theorem dispatch_eq (hp : Provides g server) (client : Node) (o : Operands) :
    g.dispatch client Addition.serviceName Addition.service ⟨o.a, o.b⟩ =
      if o.Fits then
        .log ⟨server.id, server.name⟩ (.info o.statement) (.done (.ok ⟨Int64.ofInt o.exact⟩))
      else .done (.error (Cause.serviceFailed "/add_two_ints" o.complaint)) := by
  unfold dispatch
  simp only [hp.found, pack_request, handler_answer]
  by_cases h : o.Fits
  · simp only [if_pos h]
    show Act.log _ _ (.done (received _ Addition.service (.ok _))) = _
    unfold received
    simp only [unpack_response]
  · simp only [if_neg h]
    rfl

theorem call_eq (hp : Provides g server) (client : Node) (o : Operands) :
    Middleware.call g client Addition.serviceName Addition.service (⟨o.a, o.b⟩ : Addition.Request) =
      if o.Fits then some (.ok ⟨Int64.ofInt o.exact⟩, g.said server o.statement)
      else some (.error (Cause.serviceFailed "/add_two_ints" o.complaint), g) := by
  show Middleware.run g (g.dispatch client Addition.serviceName Addition.service ⟨o.a, o.b⟩) = _
  rw [dispatch_eq hp]
  by_cases h : o.Fits
  · rw [if_pos h, if_pos h, Middleware.run_log, Middleware.run_done, ← log_info hp.alive]
    rfl
  · rw [if_neg h, if_neg h, Middleware.run_done]

theorem requestSum_eq (hp : Provides g server) (hclient : g.isAlive client.id = true)
    (o : Operands) :
    Requester.requestSum g client o = some (o.verdict, g.requested server client o) := by
  unfold Requester.requestSum Operands.verdict requested
  simp only [call_eq hp client o]
  by_cases h : o.Fits
  · have hlog : Middleware.logFor (g.said server o.statement) client (.info o.statement) = _ :=
      log_info (g := g.said server o.statement) hclient o.statement
    simp only [if_pos h, Option.bind_eq_bind, Option.bind_some, Operands.toText_exact h, hlog]
    rfl
  · simp only [if_neg h]
    rfl

theorem requestSum_of_none (hnone : g.service? "/add_two_ints" = none) (client : Node)
    (o : Operands) :
    Requester.requestSum g client o =
      some (.error ⟨.communication "/add_two_ints", [.message "no provider"]⟩, g) := by
  have hprovider : g.provider (Name.resolve client.name Addition.serviceName)
      Addition.service.name Addition.service.md5 =
        .error ⟨.communication "/add_two_ints", [.message "no provider"]⟩ := by
    have hresolve : g.service? (Name.resolve client.name Addition.serviceName) = none := hnone
    unfold Graph.provider
    rw [hresolve]
    rfl
  have hcall : Middleware.call g client Addition.serviceName Addition.service
      (⟨o.a, o.b⟩ : Addition.Request) =
        some (.error ⟨.communication "/add_two_ints", [.message "no provider"]⟩, g) := by
    show Middleware.run g (g.dispatch client Addition.serviceName Addition.service ⟨o.a, o.b⟩) = _
    unfold dispatch
    simp only [hprovider, Middleware.run_done]
  unfold Requester.requestSum
  simp only [hcall]
  rfl

/-! ## One request after another -/

/-- Several requests, one after the other, with their results. -/
def requestSums (g : Graph ε) :
    List (Node × Operands) → Option (List (Except Error Equation) × Graph ε)
  | [] => some ([], g)
  | (client, o) :: rest => do
    let (result, g) ← Requester.requestSum g client o
    let (results, g) ← requestSums g rest
    pure (result :: results, g)

/-- The lines that a request leaves in the process log. -/
def statements (server client : Node) (o : Operands) : List Line :=
  if o.Fits then [⟨.info, server.name, o.statement⟩, ⟨.info, client.name, o.statement⟩] else []

/-- A graph that differs from another in its log and its feeds alone. -/
structure Alike (g g' : Graph ε) : Prop where
  nodes : g'.nodes = g.nodes
  topics : g'.topics = g.topics
  services : g'.services = g.services
  lastId : g'.lastId = g.lastId

theorem requested_alike (g : Graph ε) (server client : Node) (o : Operands) :
    Alike g (g.requested server client o) := by
  unfold requested
  split <;> exact ⟨rfl, rfl, rfl, rfl⟩

theorem journal_requested (g : Graph ε) (server client : Node) (o : Operands) :
    (g.requested server client o).journal = g.journal ++ statements server client o := by
  unfold requested statements
  split
  next => exact List.append_assoc ..
  next => exact (List.append_nil _).symm

theorem requestSums_eq (hp : Provides g server) {requests : List (Node × Operands)}
    (hclients : ∀ r ∈ requests, g.isAlive r.1.id = true) :
    ∃ g', requestSums g requests = some (requests.map (·.2.verdict), g') ∧ Alike g g' ∧
      g'.journal = g.journal ++ requests.flatMap fun r => statements server r.1 r.2 := by
  induction requests generalizing g with
  | nil => exact ⟨g, rfl, ⟨rfl, rfl, rfl, rfl⟩, (List.append_nil _).symm⟩
  | cons r rest ih =>
    obtain ⟨client, o⟩ := r
    have halike := requested_alike g server client o
    have hrest : ∀ r ∈ rest, (g.requested server client o).isAlive r.1.id = true := by
      intro r hr
      unfold isAlive
      rw [halike.nodes]
      exact hclients r (List.mem_cons_of_mem _ hr)
    obtain ⟨g', hresults, hlast, hjournal⟩ := ih (hp.congr halike.nodes halike.services) hrest
    refine ⟨g', ?_, ⟨hlast.nodes.trans halike.nodes, hlast.topics.trans halike.topics,
      hlast.services.trans halike.services, hlast.lastId.trans halike.lastId⟩, ?_⟩
    · simp only [requestSums, requestSum_eq hp (hclients _ (List.mem_cons_self ..)) o,
        Option.bind_eq_bind, Option.bind_some, hresults]
      rfl
    · rw [hjournal, journal_requested, List.append_assoc]
      rfl

end Graph

end NodeGraph
