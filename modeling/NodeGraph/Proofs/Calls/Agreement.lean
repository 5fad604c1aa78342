import NodeGraph.Proofs.Calls.Exits
import NodeGraph.Proofs.Clients.Mastered
import NodeGraph.Proofs.Naming.Global

/-!
# The same call, here and there

A component that calls a service cannot tell whether its node is on a graph or has a client of
its own, as long as calls come to the same. On a graph the name of the service is looked up, the
request is written and read, and so is the response. What a client library does is its affair.
All that is needed of it is a `Directory`: that clients find a service by its name, and that the
library is `Faithful`, so that the provider is handed the request and the caller what the
provider has said, as it is. What gets lost or changed on the way is up to the type, and if that
reads what it writes, only the outcome of the provider's course of action is left (`handled`).

> `Graph.call_of_offers`, `Shared.call_of_provides`: the result of a call is that outcome. A
> failure names the service, on a graph as it was found, and with a client as it was asked for.
>
> `calls_compared`: so if the providers come to the same, results are the same exactly if they
> have not failed, or if the caller asked for the service by its full name.

A requester asks by a relative name. That shows if there is no sum. Those who watch are told the
same in the same order, be it on a graph or in an outlook on clients that last.
-/

namespace NodeGraph

open Wire (Bytes)

variable {β ε ρ σ : Type}

/-! ## What a provider comes to -/

/-- What a provider comes to when it has been handed a call. -/
def Middleware.handled [Middleware β ε] (b : β) (caller : Node) (service : String)
    (type : ServiceType ρ σ) (request : ρ) (answer : ρ → Act (Except String σ)) :
    Option (Except String σ × β) :=
  Middleware.run (Middleware.dispatch b caller service type request).2 (answer request)

/-- What a caller is given when a provider has come to an outcome, and a failure goes by a
name. -/
def resultOf (name : String) (outcome : Except String σ) : Except Error σ :=
  outcome.mapError fun reason => Cause.serviceFailed name reason

theorem resultOf_eq_iff {name name' : String} {outcome outcome' : Except String σ} :
    resultOf name outcome = resultOf name' outcome' ↔
      outcome = outcome' ∧ ((∀ reason, outcome ≠ .error reason) ∨ name = name') := by
  cases outcome with
  | ok response =>
    cases outcome' with
    | ok response' =>
      refine ⟨fun h => ⟨congrArg Except.ok (Except.ok.inj h), .inl nofun⟩, fun h => ?_⟩
      exact congrArg Except.ok (Except.ok.inj h.1)
    | error reason => exact iff_of_false nofun nofun
  | error reason =>
    cases outcome' with
    | ok response => exact iff_of_false nofun nofun
    | error reason' =>
      constructor
      · intro h
        injection h with h
        injection h with hcause
        injection hcause with hname hreason
        exact ⟨congrArg Except.error hreason, .inr hname⟩
      · intro h
        obtain ⟨hsame, hok | rfl⟩ := h
        · exact absurd rfl (hok reason)
        · rw [hsame]

/-- Who is never given anything is given the same by everybody. -/
theorem map_resultOf_eq_iff (name name' : String) (outcome outcome' : Option (Except String σ)) :
    outcome.map (resultOf name) = outcome'.map (resultOf name') ↔
      outcome = outcome' ∧ ((∀ reason, outcome ≠ some (.error reason)) ∨ name = name') := by
  cases outcome with
  | none =>
    cases outcome' with
    | none => exact iff_of_true rfl ⟨rfl, .inl nofun⟩
    | some outcome' => exact iff_of_false nofun nofun
  | some outcome =>
    cases outcome' with
    | none => exact iff_of_false nofun nofun
    | some outcome' =>
      simp only [Option.map_some, ne_eq, Option.some.injEq]
      exact resultOf_eq_iff

/-! ## On a graph -/

section

variable {g : Graph ε} {caller : Node} {service : String} {type : ServiceType ρ σ} {request : ρ}
  {answer : ρ → Act (Except String σ)}

/-- A service is on offer under a full name, as a type and with a course of action for each
request. -/
def Graph.Offers (g : Graph ε) (name : String) (type : ServiceType ρ σ)
    (answer : ρ → Act (Except String σ)) : Prop :=
  ∃ s owns, g.service? name = some s ∧ s.md5 = type.md5 ∧ s.handler = .ofTyped type answer owns

/-- What is written and read is what the provider has come to. -/
theorem Graph.received_response {name : String} {outcome : Except String σ}
    (h : ∀ response, outcome = .ok response → type.response.Returns response) :
    Graph.received name type (Handler.response type outcome) = resultOf name outcome := by
  cases outcome with
  | error reason => rfl
  | ok response =>
    obtain ⟨payload, hpack, hread⟩ := (h response rfl).unpack_pack
    simp only [Handler.response, hpack, Graph.received, hread]
    rfl

/-- On a graph a call comes to the outcome, and a failure goes by the full name. -/
theorem Graph.call_of_offers (h : g.Offers (Name.resolve caller.name service) type answer)
    (hrequest : type.request.Returns request)
    (hresponse : ∀ response g', Middleware.handled g caller service type request answer =
      some (.ok response, g') → type.response.Returns response) :
    Middleware.call g caller service type request =
      (Middleware.handled g caller service type request answer).map fun p =>
        (resultOf (Name.resolve caller.name service) p.1, p.2) := by
  obtain ⟨s, owns, hs, hmd5, hhandler⟩ := h
  obtain ⟨payload, hpack, hread⟩ := hrequest.unpack_pack
  have hprovider : g.provider (Name.resolve caller.name service) type.name type.md5 =
      .ok (.ofTyped type answer owns) := by
    unfold Graph.provider
    simp only [hs, if_pos hmd5, hhandler]
  have hcall : Middleware.call g caller service type request =
      Middleware.run g (g.dispatch caller service type request) := rfl
  have hrun : Middleware.run g ((Handler.ofTyped type answer owns).answer payload) =
      (Middleware.run g (answer request)).map fun r => (Handler.response type r.1, r.2) :=
    Graph.run_answer_of_readable g ⟨type, answer, owns⟩ hread
  rw [hcall]
  unfold Graph.dispatch
  simp only [hprovider, hpack, Middleware.run_map, hrun, Option.map_map]
  refine Option.map_congr fun p hp => Prod.ext ?_ rfl
  refine Graph.received_response fun response hok => hresponse response p.2 ?_
  rw [← hok]
  exact hp

end

/-! ## With a client -/

/-- Whether what the provider says is told as it is: any reason, and responses that the type
reads as they were written. -/
structure ServiceType.Relays (type : ServiceType ρ σ)
    (reply : Except String σ → Except ClientFault (Except String σ)) : Prop where
  reason : ∀ reason, reply (.error reason) = .ok (.error reason)
  response : ∀ response, type.response.Returns response → reply (.ok response) = .ok (.ok response)

/-- How the clients of a library find services. -/
structure Directory (β : Type) where
  /-- The full name that a client means by a name. -/
  locate? : β → Nat → String → Option String
  /-- Whether a service is provided under a full name, as a type and with a course of action for
  each request. -/
  Provides : {ρ σ : Type} → β → String → ServiceType ρ σ → (ρ → Act (Except String σ)) → Prop

/-- **Requests get to the provider, and what it says gets back.** -/
structure Directory.Faithful [ClientLibrary β ε] (d : Directory β) : Prop where
  handed : ∀ {ρ σ : Type} b client service name (type : ServiceType ρ σ) answer request,
    d.locate? b client service = some name → d.Provides b name type answer →
    type.request.Returns request →
    ∃ requests b' reply b'', ClientLibrary.client b client service type = (.ok requests, b') ∧
      requests request b' = (.ok (reply <$> answer request), b'') ∧ type.Relays reply

section

variable [ClientLibrary β ε] {view : Outlook β} {d : Directory β} {s : Shared β} {caller : Node}
  {service name : String} {type : ServiceType ρ σ} {request : ρ}
  {answer : ρ → Act (Except String σ)}

/-- With a client it comes to the same, under the name that the caller gave. -/
theorem Shared.call_of_provides (hfaithful : d.Faithful)
    (hlocate : d.locate? s.library caller.id service = some name)
    (hprovides : d.Provides s.library name type answer)
    (hrequest : type.request.Returns request)
    (hresponse : ∀ response s', Middleware.handled s caller service type request answer =
      some (.ok response, s') → type.response.Returns response) :
    Middleware.call s caller service type request =
      (Middleware.handled s caller service type request answer).map fun p =>
        (resultOf service p.1, p.2) := by
  obtain ⟨requests, b', reply, b'', hclient, hrequests, hrelays⟩ :=
    hfaithful.handed _ _ _ _ _ _ _ hlocate hprovides hrequest
  have hdispatch : Middleware.dispatch s caller service type request =
      (concluded service <$> (reply <$> answer request), { s with library := b'' }) := by
    show s.dispatch caller service type request = _
    unfold Shared.dispatch
    simp only [hclient, hrequests]
  unfold Middleware.handled at hresponse ⊢
  unfold Middleware.call
  rw [hdispatch] at hresponse ⊢
  simp only [Middleware.run_map, Option.map_map]
  refine Option.map_congr fun p hp => Prod.ext ?_ rfl
  obtain ⟨reason | response, s'⟩ := p
  · exact congrArg (concluded service) (hrelays.reason reason)
  · exact congrArg (concluded service) (hrelays.response response (hresponse response s' hp))

end

/-! ## Those who watch -/

/-- Whether a record says what a report says. -/
structure Record.Says (record : Record) (report : Report) : Prop where
  name : record.name = report.name
  level : record.level = report.entry.level
  msg : record.msg = report.entry.text
  file : record.file = report.entry.site.file
  line : record.line = report.entry.site.line

/-- What feeds come to when some of them are told something. -/
inductive Feeds.Told (watchers : List Nat) : Feeds ε → List Report → Feeds ε → Prop where
  | nothing (fs : Feeds ε) : Told watchers fs [] fs
  | report (fs fs' : Feeds ε) (record : Record) (report : Report) (reports : List Report)
    (hrecord : record.Says report)
    (h : Told watchers (fs.push watchers (framed (Record.codec.encode record))) reports fs') :
    Told watchers fs (report :: reports) fs'

/-! ## Sums -/

namespace Operands

/-- What somebody is told who asks for the sum and knows the service by some name. -/
def verdictOf (service : String) (o : Operands) : Except Error Equation :=
  if o.Fits then .ok ⟨o.a, o.b, Int64.ofInt o.exact⟩
  else .error (Cause.serviceFailed service o.complaint)

theorem verdictOf_inj_iff {service service' : String} {o : Operands} (hne : service ≠ service') :
    o.verdictOf service = o.verdictOf service' ↔ o.Fits := by
  unfold verdictOf
  by_cases h : o.Fits
  · rw [if_pos h, if_pos h]
    exact ⟨fun _ => h, fun _ => rfl⟩
  · rw [if_neg h, if_neg h]
    refine ⟨fun hsame => ?_, fun hfits => absurd hfits h⟩
    injection hsame with hsame
    injection hsame with hcause
    injection hcause with hname
    exact absurd hname hne

/-- What is said when a client has asked a server for the sum. -/
def reports (server client : String) (o : Operands) : List Report :=
  if o.Fits then [⟨server, .info o.statement⟩, ⟨client, .info o.statement⟩] else []

end Operands

/-- A server comes to the sum, or says that there is none, wherever it serves. -/
theorem AdditionServer.handled_answer [Middleware β ε] (b : β) (caller : Node) (logger : Logger)
    (o : Operands) :
    (Middleware.handled b caller Addition.serviceName Addition.service ⟨o.a, o.b⟩
      (AdditionServer.answer logger)).map Prod.fst =
        some (if o.Fits then .ok ⟨Int64.ofInt o.exact⟩ else .error o.complaint) := by
  unfold Middleware.handled
  rw [Graph.answer_eq]
  by_cases h : o.Fits
  · simp only [if_pos h, Middleware.run_log, Middleware.run_done]
    rfl
  · simp only [if_neg h, Middleware.run_done]
    rfl

/-- On a graph a request for a sum is reported by the server and the client. -/
theorem Graph.told_requested (g : Graph ε) (server client : Node) (o : Operands) :
    g.feeds.Told g.watchers (o.reports server.name client.name)
      (g.requested server client o).feeds := by
  unfold Graph.requested Operands.reports
  by_cases h : o.Fits
  · rw [if_pos h, if_pos h]
    exact .report _ _ (.saying server o.statement) _ _ ⟨rfl, rfl, rfl, rfl, rfl⟩
      (.report _ _ (.saying client o.statement) _ _ ⟨rfl, rfl, rfl, rfl, rfl⟩ (.nothing _))
  · rw [if_neg h, if_neg h]
    exact .nothing _

section

variable [ClientLibrary β ε] {view : Outlook β} {d : Directory β} {s : Shared β}

/-- A logger that comes and goes makes no difference to those who watch. -/
theorem Shared.published_logFor (hlasting : view.Lasting) {node : Node} {name : String}
    (hname : view.registered? s.library node.id = some name) (entry : Entry) :
    view.published (Middleware.logFor s node entry).library =
      view.published s.library ++ [⟨name, entry⟩] := by
  have hlog := (hlasting.logged s.library node.id entry).1
  unfold Outlook.heard at hlog
  rw [hname] at hlog
  refine Eq.trans ?_ hlog
  show view.published (if ((s.hold node.id).log ⟨node.id, node.name⟩ entry).holds.count node.id = 1
    then _ else _) = _
  split
  · exact (hlasting.closed _ node.id).published
  · rfl

/-- With clients it is reported by both of them as well, and the client is told the sum, or the
reason why there is none in the name that it knows the service by. -/
theorem Shared.requestSum_eq (hlasting : view.Lasting) (hfaithful : d.Faithful)
    {server client : Node} {name server' client' : String}
    (hlocate : d.locate? s.library client.id Addition.serviceName = some name)
    (hprovides : d.Provides s.library name Addition.service
      (AdditionServer.answer ⟨server.id, server.name⟩))
    (hserver : view.registered? s.library server.id = some server')
    (hclient : view.registered? s.library client.id = some client') (o : Operands) :
    ∃ s', Requester.requestSum s client o = some (o.verdictOf Addition.serviceName, s') ∧
      view.published s'.library = view.published s.library ++ o.reports server' client' := by
  have hrequest : Addition.service.request.Returns ⟨o.a, o.b⟩ :=
    Format.returns_ofCodec Addition.Request.codec_faithful trivial
  have hcall := Shared.call_of_provides hfaithful hlocate hprovides hrequest
    fun response _ _ => Format.returns_ofCodec Addition.Response.codec_faithful trivial
  have hsame := Shared.same_dispatch hlasting s client Addition.serviceName Addition.service
    (⟨o.a, o.b⟩ : Addition.Request)
  unfold Middleware.handled at hcall
  set asked : Shared β := (Middleware.dispatch s client Addition.serviceName Addition.service
    (⟨o.a, o.b⟩ : Addition.Request)).2
  replace hsame : view.Same s.library asked.library := hsame
  rw [Graph.answer_eq] at hcall
  unfold Requester.requestSum Operands.verdictOf Operands.reports
  simp only [hcall]
  by_cases h : o.Fits
  · simp only [if_pos h, Middleware.run_log, Middleware.run_done]
    -- first the server says so, and then the client
    obtain ⟨hsaid, hregistered, -⟩ := hlasting.logged asked.library server.id (.info o.statement)
    have hheard : view.heard asked.library server.id (.info o.statement) =
        [⟨server', .info o.statement⟩] := by
      unfold Outlook.heard
      rw [hsame.registered, hserver]
      rfl
    have hknown := (congrFun (hregistered.trans hsame.registered) client.id).trans hclient
    refine ⟨_, rfl, (Shared.published_logFor hlasting hknown _).trans ?_⟩
    rw [hheard, hsame.published] at hsaid
    rw [Operands.toText_exact h]
    exact (congrArg (· ++ _) hsaid).trans (List.append_assoc ..)
  · simp only [if_neg h, Middleware.run_done]
    exact ⟨asked, rfl, hsame.published.trans (List.append_nil _).symm⟩

end

/-! ## The comparison -/

/-- **A call comes to the same on a graph and with a client, except for the name that a failure
goes by.** That is the full name of the service on a graph, and with a client whatever the caller
called it. So results are the same if and only if the providers come to the same and this is no
failure, or the caller used a global name. Sums are asked for by a relative name: whoever asks is
told the same exactly if there is a sum, and otherwise the same reason. Those who watch are told
the same reports in the same order. -/
theorem calls_compared [ClientLibrary β ε] {ε' : Type} {view : Outlook β} {d : Directory β}
    (hlasting : view.Lasting) (hfaithful : d.Faithful) (g : Graph ε') (s : Shared β)
    (caller caller' : Node) :
    (∀ {ρ σ : Type} (service : String) (type : ServiceType ρ σ)
        (answer answer' : ρ → Act (Except String σ)) (request : ρ),
      let name := Name.resolve caller.name service
      let there := Middleware.handled g caller service type request answer
      let here := Middleware.handled s caller' service type request answer'
      g.Offers name type answer →
      d.locate? s.library caller'.id service = some name →
      d.Provides s.library name type answer' →
      type.request.Returns request →
      (∀ response g', there = some (.ok response, g') → type.response.Returns response) →
      (∀ response s', here = some (.ok response, s') → type.response.Returns response) →
      Middleware.call g caller service type request =
          (there.map fun p => (resultOf name p.1, p.2)) ∧
        Middleware.call s caller' service type request =
          (here.map fun p => (resultOf service p.1, p.2)) ∧
        ((Middleware.call g caller service type request).map Prod.fst =
            (Middleware.call s caller' service type request).map Prod.fst ↔
          there.map Prod.fst = here.map Prod.fst ∧
            ((∀ reason, there.map Prod.fst ≠ some (.error reason)) ∨ Name.IsGlobal service))) ∧
    (∀ (server server' : Node) (o : Operands),
      g.Provides server → g.isAlive caller.id = true →
      d.locate? s.library caller'.id Addition.serviceName = some "/add_two_ints" →
      d.Provides s.library "/add_two_ints" Addition.service
        (AdditionServer.answer ⟨server'.id, server'.name⟩) →
      view.registered? s.library server'.id = some server.name →
      view.registered? s.library caller'.id = some caller.name →
      ∃ g' s', Requester.requestSum g caller o = some (o.verdictOf "/add_two_ints", g') ∧
        Requester.requestSum s caller' o = some (o.verdictOf "add_two_ints", s') ∧
        (o.verdictOf "/add_two_ints" = o.verdictOf "add_two_ints" ↔ o.Fits) ∧
        g.feeds.Told g.watchers (o.reports server.name caller.name) g'.feeds ∧
        view.published s'.library =
          view.published s.library ++ o.reports server.name caller.name) := by
  refine ⟨?_, ?_⟩
  · intro ρ σ service type answer answer' request name there here hoffers hlocate hprovides
      hrequest hthere hhere
    have hcall := Graph.call_of_offers hoffers hrequest hthere
    have hcall' := Shared.call_of_provides hfaithful hlocate hprovides hrequest hhere
    refine ⟨hcall, hcall', ?_⟩
    have hresults := map_resultOf_eq_iff name service (there.map Prod.fst) (here.map Prod.fst)
    rw [Option.map_map, Option.map_map, Name.resolve_eq_self_iff] at hresults
    rw [hcall, hcall', Option.map_map, Option.map_map]
    exact hresults
  · intro server server' o hp hcaller hlocate hprovides hserver hclient
    obtain ⟨s', hsum', hsaid⟩ :=
      Shared.requestSum_eq hlasting hfaithful hlocate hprovides hserver hclient o
    have hsum : Requester.requestSum g caller o =
        some (o.verdictOf "/add_two_ints", g.requested server caller o) :=
      Graph.requestSum_eq hp hcaller o
    exact ⟨_, s', hsum, hsum', Operands.verdictOf_inj_iff (by decide),
      g.told_requested server caller o, hsaid⟩

/-! ## A server and a client -/

namespace Master

/-- How clients find services that a master knows of. -/
def directory : Directory (Master ε) where
  locate? m client service := (m.locate client service).toOption
  Provides m name type answer :=
    ∃ p owns, m.provider? name = some p ∧ p.md5 = type.md5 ∧ p.handler = .ofTyped type answer owns

/-- What is written and read is what the provider has said. -/
theorem relays_response (type : ServiceType ρ σ) :
    type.Relays fun outcome => response type (Handler.response type outcome) where
  reason _ := rfl
  response value h := by
    obtain ⟨payload, hpack, hread⟩ := h.unpack_pack
    simp only [Handler.response, hpack, response, hread]

/-- Their requests get to the provider, and what it says gets back. -/
theorem directory_faithful : directory.Faithful (β := Master ε) where
  handed m client service name type answer request hlocate hprovides hrequest := by
    obtain ⟨p, owns, hp, hmd5, hhandler⟩ := hprovides
    obtain ⟨payload, hpack, hread⟩ := hrequest.unpack_pack
    have hlocated : m.locate client service = .ok name := by
      have htext : (m.locate client service).toOption = some name := hlocate
      cases hfind : m.locate client service with
      | error fault => rw [hfind] at htext; cases htext
      | ok text => rw [hfind] at htext; exact congrArg Except.ok (Option.some.inj htext)
    refine ⟨Master.request name type, m, _, m, ?_, ?_, relays_response type⟩
    · show ((m.locate client service).map _, m) = _
      rw [hlocated]
      rfl
    · unfold Master.request
      simp only [hp, if_pos hmd5, hpack, hhandler]
      have hanswer : (Handler.ofTyped type answer owns).answer payload =
          Handler.response type <$> answer request := by
        unfold Handler.ofTyped
        simp only [hread]
        rfl
      rw [hanswer, Act.map_eq, Act.map_eq, Act.bind_assoc]
      rfl

end Master

namespace Desk

/-- A node that serves. -/
def server (id : Nat) : Node := ⟨id, "/add_two_ints_server"⟩

/-- A node that asks. -/
def client (id : Nat) : Node := ⟨id, "/add_two_ints_client"⟩

/-- Somebody watches, a server of that number is on offer, and a client has come. -/
def opened [Middleware β Unit] (b : β) (id : Nat) : β :=
  let b := (Middleware.register b "watcher").2
  let b := (Middleware.subscribe b ⟨1, "/watcher"⟩ Record.topic 10 Record.type (fun _ => ()) []).2
  let b := (Middleware.register b "add_two_ints_server").2
  let b := (AdditionServer.advertise b (server id)).2
  (Middleware.register b "add_two_ints_client").2

/-- All of it on a graph. -/
def graph : Graph Unit := opened {} 3

/-- All of it with clients of a master. -/
def shared : Shared (Master Unit) := opened { library := {} } 2

theorem provides_graph : graph.Provides (server 3) := ⟨rfl, by decide⟩

theorem offers_graph : graph.Offers "/add_two_ints" Addition.service
    (AdditionServer.answer ⟨(server 3).id, (server 3).name⟩) := ⟨_, _, rfl, rfl, rfl⟩

theorem provides_shared : Master.directory.Provides shared.library "/add_two_ints"
    Addition.service (AdditionServer.answer ⟨(server 2).id, (server 2).name⟩) :=
  ⟨_, _, rfl, rfl, rfl⟩

theorem locate_shared : Master.directory.locate? shared.library (client 3).id
    Addition.serviceName = some "/add_two_ints" := by decide

theorem registered_server : Master.outlook.registered? shared.library (server 2).id =
    some (server 3).name := by decide

theorem registered_client : Master.outlook.registered? shared.library (client 3).id =
    some (client 5).name := by decide

/-- Two and three are added alike on both, and reported alike. -/
theorem calls_compared_desk :
    (Middleware.call graph (client 5) Addition.serviceName Addition.service ⟨2, 3⟩).map Prod.fst =
        (Middleware.call shared (client 3) Addition.serviceName Addition.service ⟨2, 3⟩).map
          Prod.fst ∧
      ∃ g' s', Requester.requestSum graph (client 5) ⟨2, 3⟩ = some (.ok ⟨2, 3, 5⟩, g') ∧
        Requester.requestSum shared (client 3) ⟨2, 3⟩ = some (.ok ⟨2, 3, 5⟩, s') ∧
        Master.outlook.published s'.library = Master.outlook.published shared.library ++
          [⟨"/add_two_ints_server", .info "2 + 3 = 5"⟩,
            ⟨"/add_two_ints_client", .info "2 + 3 = 5"⟩] := by
  obtain ⟨hcalls, hsums⟩ := calls_compared (Master.lasting (ε := Unit)) Master.directory_faithful
    graph shared (client 5) (client 3)
  obtain ⟨g', s', hsum, hsum', -, -, hsaid⟩ := hsums (server 3) (server 2) ⟨2, 3⟩ provides_graph
    (by decide) locate_shared provides_shared registered_server registered_client
  have hresponse : ∀ response : Addition.Response, Addition.service.response.Returns response :=
    fun _ => Format.returns_ofCodec Addition.Response.codec_faithful trivial
  obtain ⟨-, -, hsame⟩ := hcalls Addition.serviceName Addition.service _ _ ⟨2, 3⟩ offers_graph
    locate_shared provides_shared
    (Format.returns_ofCodec Addition.Request.codec_faithful trivial)
    (fun response _ _ => hresponse response) (fun response _ _ => hresponse response)
  have hthere := AdditionServer.handled_answer graph (client 5) ⟨3, "/add_two_ints_server"⟩ ⟨2, 3⟩
  have hhere := AdditionServer.handled_answer shared (client 3) ⟨2, "/add_two_ints_server"⟩ ⟨2, 3⟩
  refine ⟨hsame.mpr ⟨hthere.trans hhere.symm, .inl fun reason hfailed => ?_⟩, g', s', hsum, hsum',
    hsaid⟩
  cases hthere.symm.trans hfailed

/-- Operands without a sum. -/
def excessive : Operands := ⟨9223372036854775807, 1⟩

/-- Where there is no sum, the service goes by one name on the graph and by another one with the
client. -/
theorem overflow_told_apart :
    Master.outlook.Lasting (β := Master Unit) ∧ Master.directory.Faithful (β := Master Unit) ∧
    graph.Provides (server 3) ∧
    Master.directory.Provides shared.library "/add_two_ints" Addition.service
      (AdditionServer.answer ⟨(server 2).id, (server 2).name⟩) ∧
    Master.directory.locate? shared.library (client 3).id Addition.serviceName =
      some "/add_two_ints" ∧
    (Requester.requestSum graph (client 5) excessive).map Prod.fst =
      some (.error (Cause.serviceFailed "/add_two_ints"
        "9223372036854775807 + 1 overflows int64")) ∧
    (Requester.requestSum shared (client 3) excessive).map Prod.fst =
      some (.error (Cause.serviceFailed "add_two_ints"
        "9223372036854775807 + 1 overflows int64")) ∧
    (Requester.requestSum graph (client 5) excessive).map Prod.fst ≠
      (Requester.requestSum shared (client 3) excessive).map Prod.fst := by
  have hover : ¬ excessive.Fits := by decide
  have hgraph : (Requester.requestSum graph (client 5) excessive).map Prod.fst =
      some (excessive.verdictOf "/add_two_ints") :=
    congrArg (Option.map Prod.fst) (Graph.requestSum_eq provides_graph (by decide) excessive)
  obtain ⟨s', hsum, -⟩ := Shared.requestSum_eq Master.lasting Master.directory_faithful
    locate_shared provides_shared registered_server registered_client excessive
  have hshared : (Requester.requestSum shared (client 3) excessive).map Prod.fst =
      some (excessive.verdictOf "add_two_ints") := congrArg (Option.map Prod.fst) hsum
  refine ⟨Master.lasting, Master.directory_faithful, provides_graph, provides_shared,
    locate_shared, hgraph.trans (congrArg some (if_neg hover)),
    hshared.trans (congrArg some (if_neg hover)), fun hsame => ?_⟩
  rw [hgraph, hshared, Option.some.injEq, Operands.verdictOf_inj_iff (by decide)] at hsame
  exact hover hsame

end Desk

end NodeGraph
