import NodeGraph.Proofs.Addition.Errand

/-!
# The addition service from end to end

Whether there is a server is a question of what has been handed out: a node that is
up was granted the service, and still holds it (`Serving`). From there it goes down to
what the registry answers (`Serving.provides`), and the rest has been proved of graphs
and of errands.

> `serving_of_advertise`: a server that has been advertised is there from then on,
> until its node goes down or it is dropped.
>
> `sums_requested`: in every reachable state, whoever asks for a sum gets what is
> right for the operands, be it alone, one after the other or all at once.
-/

namespace NodeGraph

variable {ε : Type}

/-- What the addition server of a node offers. -/
def AdditionServer.offer (server : Node) : Offer :=
  ⟨Addition.service.name, Addition.service.md5, handler server⟩

namespace Audit

variable {a b : Audit ε}

/-- The addition server of a node that is up. -/
structure Serving (a : Audit ε) (server : Node) : Prop where
  live : server ∈ a.ledger.live
  offered : ∃ c ∈ a.ledger.offers, a.ledger.isOpen c = true ∧ c.node = server ∧
    c.asked = Addition.serviceName ∧ c.item = AdditionServer.offer server

/-- An open offer is found under its name. -/
theorem service?_of_offer (hs : Sound a) {c : Grant Offer} (hc : c ∈ a.ledger.offers)
    (hopen : a.ledger.isOpen c = true) : a.graph.service? c.target = some c.service := by
  have hmem : c.service ∈ a.graph.services := by
    rw [hs.exact.services]
    exact Ledger.mem_services.mpr ⟨c, hc, hopen, rfl⟩
  unfold Graph.service?
  cases hfound : a.graph.services.find? (·.name = c.target) with
  | none => exact absurd (decide_eq_true rfl) (List.find?_eq_none.mp hfound _ hmem)
  | some s =>
    -- names of services are distinct
    have hname : s.name = c.target := by simpa using List.find?_some hfound
    have hsame := List.inj_on_of_nodup_map hs.exact.serviceNames
      (List.mem_of_find?_eq_some hfound) hmem hname
    rw [hsame]

theorem isAlive_of_live (hs : Sound a) {node : Node} (h : node ∈ a.ledger.live) :
    a.graph.isAlive node.id = true :=
  hs.isAlive_iff.mpr ⟨node, h, rfl⟩

theorem Serving.provides (h : Serving a server) (hs : Sound a) : a.graph.Provides server := by
  obtain ⟨c, hc, hopen, hnode, hasked, hitem⟩ := h.offered
  have htarget : c.target = "/add_two_ints" := by
    unfold Grant.target
    rw [hasked]
    rfl
  have hservice := service?_of_offer hs hc hopen
  rw [htarget] at hservice
  refine ⟨?_, isAlive_of_live hs h.live⟩
  unfold Graph.provider
  rw [hservice]
  show (if c.item.md5 = Addition.service.md5 then Except.ok c.item.handler else _) = _
  rw [hitem]
  exact if_pos rfl

/-! ## How a server comes to be there -/

theorem serving_of_advertise {node : Node} {s : AdditionServer} {g : Graph ε}
    (hlive : node ∈ a.ledger.live)
    (h : AdditionServer.advertise a.graph node = (.ok s, g)) :
    ∃ b, Steps a b ∧ b.graph = g ∧
      (b.ledger.nodes = a.ledger.nodes ∧ b.ledger.down = a.ledger.down ∧
        b.ledger.dropped = a.ledger.dropped) ∧
      ∀ {d : Audit ε}, Steps b d → node.id ∉ d.ledger.down →
        s.service.id ∉ d.ledger.dropped → Serving d node := by
  let logger : Logger := ⟨node.id, node.name⟩
  cases hadvertise : a.graph.advertise node Addition.serviceName Addition.service
      (AdditionServer.answer logger) [.logger logger] with
  | mk result granted =>
    have hmiddle : Middleware.advertise a.graph node Addition.serviceName Addition.service
        (AdditionServer.answer logger) [.logger logger] = (result, granted) := hadvertise
    unfold AdditionServer.advertise at h
    simp only [Middleware.logger] at h
    cases result with
    | error e => simp only [logger, hmiddle] at h; cases h
    | ok handle =>
      simp only [logger, hmiddle, Except.ok.injEq, Prod.mk.injEq] at h
      obtain ⟨rfl, rfl⟩ := h
      let offered := a.advertise node Addition.serviceName Addition.service
        (AdditionServer.answer logger) [.logger logger]
      let grant : Grant Offer :=
        { node, asked := Addition.serviceName, handle, item := AdditionServer.offer node }
      have hoffered : offered = ⟨granted, a.ledger.offer grant⟩ := by
        simp only [offered, advertise, Graph.orDropping_eq_ok_iff.mp hadvertise]
        rfl
      refine ⟨offered.log logger (.info AdditionServer.ready), ?_, ?_, ?_, ?_⟩
      · exact .tail (.single (.operation (.advertise a node _ _ _ _ hlive)))
          (.operation (.log offered logger _))
      · rw [hoffered]
        rfl
      · obtain ⟨subscriptions, hposted⟩ := Ledger.exists_foldl_post
          (offered.graph.logLetters logger (.info AdditionServer.ready)) offered.ledger
        unfold log
        rw [hposted, hoffered]
        exact ⟨rfl, rfl, rfl⟩
      · intro d hsteps hdown hdropped
        have hlater : Steps offered d := .head (.operation (.log offered logger _)) hsteps
        have hgrant : grant ∈ offered.ledger.offers := by
          rw [hoffered]
          exact List.mem_append_right _ (List.mem_singleton_self _)
        have hnode : node ∈ offered.ledger.nodes := by
          rw [hoffered]
          exact (Ledger.mem_live.mp hlive).1
        refine ⟨?_, grant, ?_, ?_, rfl, rfl, rfl⟩
        · exact Ledger.mem_live.mpr
            ⟨Steps.preserve (P := fun a => node ∈ a.ledger.nodes) hlater nodes_beat hnode, hdown⟩
        · exact Steps.preserve (P := fun a => grant ∈ a.ledger.offers) hlater offers_beat hgrant
        · exact Ledger.isOpen_iff.mpr ⟨hdropped, hdown⟩

end Audit

/-! ## Crowds -/

/-- Clients on their way to sums, among whatever else happens. -/
structure Crowd (ε : Type) where
  audit : Audit ε
  errands : List Errand := []

namespace Crowd

variable {a : Audit ε} {crowd : Crowd ε}

/-- Somebody does something: one of the clients, or anybody else. A client looks the
service up while there is a server. -/
inductive Step : Crowd ε → Crowd ε → Prop where
  | others (a b : Audit ε) (errands : List Errand) (h : a.Step b) :
    Step ⟨a, errands⟩ ⟨b, errands⟩
  | start (a : Audit ε) (errands : List Errand) (client : Node) (o : Operands)
    (h : client ∈ a.ledger.live) : Step ⟨a, errands⟩ ⟨a, errands ++ [⟨client, o, .idle⟩]⟩
  | go (a : Audit ε) (errands : List Errand) (i : Nat) (e : Errand) (he : errands[i]? = some e)
    (hserved : e.stage = .idle → ∃ server, a.Serving server) :
    Step ⟨a, errands⟩ ⟨(Errand.go (e, a)).2, errands.set i (Errand.go (e, a)).1⟩

/-- Any number of steps, one after the other. -/
abbrev Steps : Crowd ε → Crowd ε → Prop := Relation.ReflTransGen Step

/-- No promise is broken, by whomever. -/
theorem steps_kept (h : Steps ⟨a, []⟩ crowd) (ha : a.Reachable) :
    crowd.audit.Reachable ∧ ∀ e ∈ crowd.errands, e.Kept := by
  induction h with
  | refl => exact ⟨ha, nofun⟩
  | tail _ hstep ih =>
    obtain ⟨hreach, hkept⟩ := ih
    cases hstep with
    | others a b errands h => exact ⟨hreach.tail h, hkept⟩
    | start a errands client o h =>
      refine ⟨hreach, fun e he => ?_⟩
      rcases List.mem_append.mp he with hold | hnew
      · exact hkept e hold
      · rw [List.mem_singleton.mp hnew]
        trivial
    | go a errands i e he hserved =>
      refine ⟨hreach.trans ((hkept e (List.mem_of_getElem? he)).go_steps a), fun e' he' => ?_⟩
      rcases List.mem_or_eq_of_mem_set he' with hold | rfl
      · exact hkept e' hold
      · refine (hkept e (List.mem_of_getElem? he)).step fun hidle => ?_
        obtain ⟨server, hserver⟩ := hserved hidle
        exact ⟨server, hserver.provides hreach.sound⟩

end Crowd

namespace Audit

/-- What is true of requests for sums in some state. -/
structure Adds (a : Audit ε) : Prop where
  /-- The sum is exact, and first the server and then the client says so. -/
  sum : ∀ server client o, Serving a server → client ∈ a.ledger.live → o.Fits →
    ∃ sum : Int64, sum.toInt = o.a.toInt + o.b.toInt ∧
      Requester.requestSum a.graph client o = some (.ok ⟨o.a, o.b, sum⟩,
        (a.graph.said server o.statement).said client o.statement) ∧
      a.graph.Alike ((a.graph.said server o.statement).said client o.statement)
  /-- Where there is no sum, nobody says anything. -/
  overflow : ∀ server client o, Serving a server → client ∈ a.ledger.live → ¬ o.Fits →
    Requester.requestSum a.graph client o =
      some (.error (Cause.serviceFailed "/add_two_ints" o.complaint), a.graph)
  absent : (∀ c ∈ a.ledger.offers, a.ledger.isOpen c = true → c.target ≠ "/add_two_ints") →
    ∀ client o, Requester.requestSum a.graph client o =
      some (.error ⟨.communication "/add_two_ints", [.message "no provider"]⟩, a.graph)
  /-- One after the other. -/
  several : ∀ server requests, Serving a server → (∀ r ∈ requests, r.1 ∈ a.ledger.live) →
    ∃ g, a.graph.requestSums requests = some (requests.map (·.2.verdict), g) ∧
      a.graph.Alike g ∧
      g.journal = a.graph.journal ++ requests.flatMap fun r => Graph.statements server r.1 r.2
  /-- All at once: whoever has come to an end has been told what is right, and whoever
  has not gets there. -/
  together : ∀ crowd, Crowd.Steps ⟨a, []⟩ crowd → ∀ e ∈ crowd.errands,
    (∀ result, e.stage = .settled result → result = e.operands.verdict) ∧
    ((e.stage = .idle → ∃ server, Serving crowd.audit server) →
      ∃ b, Errand.Alone (e, crowd.audit) ({ e with stage := .settled e.operands.verdict }, b))

/-- **The addition service works.** -/
theorem sums_requested {a : Audit ε} (h : Reachable a) : Adds a where
  sum server client o hserver hclient hfits := by
    refine ⟨Int64.ofInt o.exact, Operands.toInt_exact hfits, ?_, ⟨rfl, rfl, rfl, rfl⟩⟩
    rw [Graph.requestSum_eq (hserver.provides h.sound) (isAlive_of_live h.sound hclient)]
    unfold Operands.verdict Graph.requested
    rw [if_pos hfits, if_pos hfits]
  overflow server client o hserver hclient hfits := by
    rw [Graph.requestSum_eq (hserver.provides h.sound) (isAlive_of_live h.sound hclient)]
    unfold Operands.verdict Graph.requested
    rw [if_neg hfits, if_neg hfits]
  absent habsent client o := by
    refine Graph.requestSum_of_none ?_ client o
    unfold Graph.service?
    rw [List.find?_eq_none]
    intro s hs
    rw [h.sound.exact.services] at hs
    obtain ⟨c, hc, hopen, rfl⟩ := Ledger.mem_services.mp hs
    rw [decide_eq_true_iff]
    exact habsent c hc hopen
  several server requests hserver hclients :=
    Graph.requestSums_eq (hserver.provides h.sound) fun r hr =>
      isAlive_of_live h.sound (hclients r hr)
  together crowd hcrowd e he := by
    obtain ⟨hreach, hkept⟩ := Crowd.steps_kept hcrowd h
    refine ⟨fun result hends => ?_, fun hserved => ?_⟩
    · have hsettled := hkept e he
      unfold Errand.Kept at hsettled
      rw [hends] at hsettled
      exact hsettled
    · refine (hkept e he).ends fun hidle => ?_
      obtain ⟨server, hserver⟩ := hserved hidle
      exact ⟨server, hserver.provides hreach.sound⟩

/-- A node that is to serve, and a client. -/
def premises : Audit String :=
  (({} : Audit String).register "add_two_ints_server").register "add_two_ints_client"

theorem premises_reachable : Reachable premises :=
  .tail (.single (.operation (.register _ "add_two_ints_server")))
    (.operation (.register _ "add_two_ints_client"))

/-- The server has come, and two and minus five make minus three. There is nothing above the
largest integer. -/
theorem sums_requested_office : ∃ office : Audit String,
    Reachable office ∧
    (AdditionServer.advertise premises.graph ⟨1, "/add_two_ints_server"⟩).2 = office.graph ∧
    (∃ g, Requester.requestSum office.graph ⟨2, "/add_two_ints_client"⟩ ⟨2, -5⟩ =
      some (.ok ⟨2, -5, -3⟩, g)) ∧
    ∃ g, office.graph.requestSums [(⟨2, "/add_two_ints_client"⟩, ⟨9223372036854775807, 1⟩),
        (⟨1, "/add_two_ints_server"⟩, ⟨1, 1⟩)] =
      some ([.error (Cause.serviceFailed "/add_two_ints"
        "9223372036854775807 + 1 overflows int64"), .ok ⟨1, 1, 2⟩], g) := by
  let server : Node := ⟨1, "/add_two_ints_server"⟩
  let client : Node := ⟨2, "/add_two_ints_client"⟩
  have hlive : server ∈ premises.ledger.live := by decide
  obtain ⟨office, hsteps, hgraph, ⟨hnodes, hdown, hdropped⟩, hserving⟩ :=
    serving_of_advertise hlive (Prod.ext rfl rfl)
  have hreach : Reachable office := premises_reachable.trans hsteps
  have hserver : Serving office server := by
    refine hserving .refl ?_ ?_
    · rw [hdown]
      decide
    · rw [hdropped]
      decide
  have hclients : server ∈ office.ledger.live ∧ client ∈ office.ledger.live := by
    unfold Ledger.live
    rw [hnodes, hdown]
    decide
  have hadds := sums_requested hreach
  refine ⟨office, hreach, hgraph.symm, ?_, ?_⟩
  · obtain ⟨sum, hsum, hresult, -⟩ := hadds.sum server client ⟨2, -5⟩ hserver hclients.2 (by decide)
    have hthree : sum = -3 := Int64.toInt_inj.mp (hsum.trans (by decide))
    exact ⟨_, hthree ▸ hresult⟩
  · obtain ⟨g, hresults, -⟩ := hadds.several server
      [(client, ⟨9223372036854775807, 1⟩), (server, ⟨1, 1⟩)] hserver (by
        simp only [List.forall_mem_cons, List.not_mem_nil, false_imp_iff, implies_true, and_true]
        exact ⟨hclients.2, hclients.1⟩)
    have hover : (⟨9223372036854775807, 1⟩ : Operands).verdict = .error (Cause.serviceFailed
        "/add_two_ints" "9223372036854775807 + 1 overflows int64") := rfl
    have htwo : (⟨1, 1⟩ : Operands).verdict = .ok ⟨1, 1, 2⟩ := rfl
    rw [List.map_cons, List.map_cons, List.map_nil, hover, htwo] at hresults
    exact ⟨g, hresults⟩

end Audit

end NodeGraph
