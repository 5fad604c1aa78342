import NodeGraph.Proofs.Addition.Calls

/-!
# How calls end

A call goes through three hands. The registry has to know a provider of the wanted type. The
provider's handler of payloads has to read the request, carry out the course of action that
the provider has for it, and write the response. The caller has to write the request and to
read the response. Each of them may give up, for a reason of its own that the caller is told
in the words of whoever gave up, and the first one to do so decides.

What a service was offered with is known to the ledger as a handler of payloads. A
`Facility` is what the provider said: a kind of call, with a course of action for every
request.

> `exists_facility`: whatever is on offer in a reachable state was offered as somebody's
> facility.
>
> `CallEnds`: the ways in which a call can end, each with the graph that it leaves. Up to the
> point where the provider has read the request the graph is as it was. From there on it is
> what the provider's course of action leaves, carried out once.
>
> `call_ranked`: in every reachable state each call ends in exactly one of them, unless what the
> provider does is never over (`CallHangs`).

A provider may call other services in turn. That is a call like any other (`run_calling`).
-/

namespace NodeGraph

open Wire (Bytes)

variable {ε ρ σ : Type}

/-! ## Facilities -/

/-- What somebody provides: a kind of call, and a course of action for each request. -/
structure Facility where
  {ρ σ : Type}
  type : ServiceType ρ σ
  answer : ρ → Act (Except String σ)
  /-- The handles that are kept for the work. -/
  owns : List Handle := []

/-- A facility as the registry knows it. -/
def Facility.offer (p : Facility) : Offer :=
  ⟨p.type.name, p.type.md5, .ofTyped p.type p.answer p.owns⟩

namespace Audit

variable {a b : Audit ε} {name : String} {p : Facility}

/-- Whether a facility stands under a name: its handle is held and its node is up. -/
def Provides (a : Audit ε) (name : String) (p : Facility) : Prop :=
  ∃ c ∈ a.ledger.offers, a.ledger.isOpen c = true ∧ c.target = name ∧ c.item = p.offer

theorem offers_posts (letters : List Letter) (l : Ledger ε) :
    (letters.foldl Ledger.post l).offers = l.offers := by
  obtain ⟨subscriptions, hposted⟩ := Ledger.exists_foldl_post letters l
  rw [hposted]

/-- An operation leaves the offers alone, or offers one more facility. -/
theorem offers_operation (h : Operation a b) :
    b.ledger.offers = a.ledger.offers ∨
      ∃ c p, c.item = Facility.offer p ∧ b.ledger.offers = a.ledger.offers ++ [c] := by
  cases h with
  | register _ name =>
    left
    unfold register
    split <;> rfl
  | subscribe =>
    left
    unfold subscribe
    split <;> rfl
  | publish =>
    left
    unfold publish
    split <;> rfl
  | advertise _ node service type answer owns =>
    unfold advertise
    split
    next handle graph _ => exact .inr ⟨_, ⟨type, answer, owns⟩, rfl, rfl⟩
    next => exact .inl rfl
  | send => exact .inl (offers_posts _ _)
  | log => exact .inl (offers_posts _ _)
  | shutDown => exact .inl rfl
  | drop => exact .inl rfl
  | journal => exact .inl rfl

/-- **Whatever is on offer is somebody's facility.** -/
theorem exists_facility (h : Reachable a) {c : Grant Offer} (hc : c ∈ a.ledger.offers) :
    ∃ p, c.item = Facility.offer p := by
  induction h with
  | refl => exact absurd hc List.not_mem_nil
  | tail _ hstep ih =>
    cases hstep with
    | turn feed hturn =>
      cases hturn with
      | advance => exact ih hc
    | operation hop =>
      rcases offers_operation hop with hsame | ⟨d, p, hitem, hmore⟩
      · exact ih (hsame ▸ hc)
      · rw [hmore] at hc
        rcases List.mem_append.mp hc with hold | hnew
        · exact ih hold
        · exact ⟨p, List.mem_singleton.mp hnew ▸ hitem⟩

/-! ## What the registry says -/

theorem provider_of_provides (hs : Sound a) (h : a.Provides name p) (typeName md5 : String) :
    a.graph.provider name typeName md5 =
      if p.type.md5 = md5 then .ok p.offer.handler
      else .error (Cause.typeMismatch name p.type.name typeName) := by
  obtain ⟨c, hc, hopen, htarget, hitem⟩ := h
  have hservice := service?_of_offer hs hc hopen
  rw [htarget] at hservice
  unfold Graph.provider
  rw [hservice]
  show (if c.item.md5 = md5 then _ else _) = _
  show (if c.item.md5 = md5 then Except.ok c.item.handler
    else .error (Cause.typeMismatch name c.item.typeName typeName : Error)) = _
  rw [hitem]
  rfl

theorem provider_of_absent (h : Reachable a) (hnone : ∀ p, ¬ a.Provides name p)
    (typeName md5 : String) :
    a.graph.provider name typeName md5 =
      .error (Error.wrap (Cause.message "no provider") (.communication name)) := by
  have hservice : a.graph.service? name = none := by
    unfold Graph.service?
    rw [List.find?_eq_none]
    intro s hs hname
    rw [h.sound.exact.services] at hs
    obtain ⟨c, hc, hopen, rfl⟩ := Ledger.mem_services.mp hs
    obtain ⟨p, hp⟩ := exists_facility h hc
    exact hnone p ⟨c, hc, hopen, of_decide_eq_true hname, hp⟩
  unfold Graph.provider
  rw [hservice]

end Audit

/-! ## What the provider does -/

namespace Graph

/-- A request that cannot be read is refused at once. -/
theorem run_answer_of_unreadable (g : Graph ε) (p : Facility) {payload : Bytes}
    {fault : Wire.Fault} (h : p.type.request.unpack payload = .error fault) :
    Middleware.run g (p.offer.handler.answer payload) = some (.error (.unreadable fault), g) := by
  unfold Facility.offer Handler.ofTyped
  simp only [h, Middleware.run_done]

/-- For one that can be read, the course of action is carried out once, and what comes of it
is written. -/
theorem run_answer_of_readable (g : Graph ε) (p : Facility) {payload : Bytes} {v : p.ρ}
    (h : p.type.request.unpack payload = .ok v) :
    Middleware.run g (p.offer.handler.answer payload) =
      (Middleware.run g (p.answer v)).map fun r => (Handler.response p.type r.1, r.2) := by
  unfold Facility.offer Handler.ofTyped
  simp only [h]
  exact Middleware.run_map (Handler.response p.type) g (p.answer v)

end Graph

/-! ## What a provider calls in turn -/

/-- A service type with a request written down, and responses as they are. -/
def ServiceType.written (type : ServiceType ρ σ) (request : ρ) : ServiceType Bytes Bytes where
  name := type.name
  md5 := type.md5
  request := { encode := fun _ => type.request.encode request, decode := Wire.Decoder.remaining }
  response := .raw

/-- What is read in the body of a response. -/
def Format.read (f : Format σ) (body : Bytes) : Except Error σ :=
  match f.decode body with
  | .ok (value, _) => .ok value
  | .error fault => .error (Cause.io fault)

/-- A call as a course of action. -/
def Act.calling (node : Node) (service : String) (type : ServiceType ρ σ) (request : ρ) :
    Act (Except Error σ) :=
  .call node service (type.written request) [] fun result =>
    .done (result.bind type.response.read)

namespace Graph

theorem received_written (name : String) (type : ServiceType ρ σ) (request : ρ)
    (reply : Except Refusal Bytes) :
    (received name (type.written request) reply).bind type.response.read =
      received name type reply := by
  cases reply with
  | error refusal => rfl
  | ok payload =>
    show type.response.read (payload.drop 4) = _
    simp only [received, Format.unpack, Format.read]
    cases type.response.decode (payload.drop 4) <;> rfl

/-- **A provider calls services as everybody does.** -/
theorem run_calling (g : Graph ε) (node : Node) (service : String) (type : ServiceType ρ σ)
    (request : ρ) :
    Middleware.run g (.calling node service type request) =
      Middleware.call g node service type request := by
  have hcall : Middleware.run g (.calling node service type request) =
      Middleware.run g ((g.dispatch node service (type.written request) []).bind fun result =>
        .done (result.bind type.response.read)) := (Middleware.run_advance g _).symm
  have hpack : (type.written request).request.pack [] = type.request.pack request := rfl
  have hprovider : ∀ name, g.provider name (type.written request).name (type.written request).md5 =
      g.provider name type.name type.md5 := fun _ => rfl
  rw [hcall, ← Act.map_eq, Middleware.run_map]
  show _ = Middleware.run g (g.dispatch node service type request)
  unfold dispatch
  simp only [hpack, hprovider]
  cases g.provider (Name.resolve node.name service) type.name type.md5 with
  | error e => simp only [Middleware.run_done]; rfl
  | ok handler =>
    cases type.request.pack request with
    | error fault => simp only [Middleware.run_done]; rfl
    | ok payload =>
      simp only [Middleware.run_map, Option.map_map]
      refine congrArg (Option.map · _) (funext fun r => Prod.ext ?_ rfl)
      exact received_written _ type request r.1

end Graph

/-! ## The ways to end -/

namespace Audit

variable {a : Audit ε} {name : String} {type : ServiceType ρ σ} {request : ρ}

/-- The request gets to the provider, as a payload: there is one, of the same sum, and the
request could be written. -/
structure Reaches (a : Audit ε) (name : String) (type : ServiceType ρ σ) (request : ρ)
    (p : Facility) (payload : Bytes) : Prop where
  provides : a.Provides name p
  md5 : p.type.md5 = type.md5
  packed : type.request.pack request = .ok payload

/-- The provider reads the request, carries out what it has for it once, and that comes to a
result and leaves a graph. -/
structure Handles (a : Audit ε) (name : String) (type : ServiceType ρ σ) (request : ρ)
    (p : Facility) (result : Except String p.σ) (g : Graph ε) : Prop where
  handled : ∃ payload v, a.Reaches name type request p payload ∧
    p.type.request.unpack payload = .ok v ∧
    Middleware.run a.graph (p.answer v) = some (result, g)

/-- How a call for `request` to the service `name` can end, and the graph it leaves. -/
inductive CallEnds (a : Audit ε) (name : String) (type : ServiceType ρ σ) (request : ρ) :
    Except Error σ → Graph ε → Prop where
  /-- Nobody provides the service. -/
  | absent (h : ∀ p, ¬ a.Provides name p) :
    CallEnds a name type request
      (.error ⟨.communication name, [.message "no provider"]⟩) a.graph
  /-- Somebody does, with another sum. -/
  | mismatch (p : Facility) (h : a.Provides name p) (hmd5 : p.type.md5 ≠ type.md5) :
    CallEnds a name type request
      (.error (Cause.typeMismatch name p.type.name type.name)) a.graph
  /-- The caller cannot write the request. -/
  | unsendable (p : Facility) (h : a.Provides name p) (hmd5 : p.type.md5 = type.md5)
    (fault : Wire.Fault) (hpack : type.request.pack request = .error fault) :
    CallEnds a name type request (.error (Cause.io fault)) a.graph
  /-- The provider cannot read it. -/
  | unreadable (p : Facility) (payload : Bytes) (h : a.Reaches name type request p payload)
    (fault : Wire.Fault) (hread : p.type.request.unpack payload = .error fault) :
    CallEnds a name type request (.error (Cause.serviceFailed name fault.message)) a.graph
  /-- The provider's answer is that it failed. -/
  | failed (p : Facility) (reason : String) (g : Graph ε)
    (h : a.Handles name type request p (.error reason) g) :
    CallEnds a name type request (.error (Cause.serviceFailed name reason)) g
  /-- The provider cannot write the response. -/
  | unwritable (p : Facility) (response : p.σ) (g : Graph ε)
    (h : a.Handles name type request p (.ok response) g)
    (fault : Wire.Fault) (hpack : p.type.response.pack response = .error fault) :
    CallEnds a name type request (.error (Cause.serviceFailed name fault.message)) g
  /-- The caller cannot read it. -/
  | unintelligible (p : Facility) (response : p.σ) (g : Graph ε)
    (h : a.Handles name type request p (.ok response) g)
    (payload : Bytes) (hpack : p.type.response.pack response = .ok payload)
    (fault : Wire.Fault) (hread : type.response.unpack payload = .error fault) :
    CallEnds a name type request (.error (Cause.io fault)) g
  /-- The caller gets what it reads in the response. -/
  | answered (p : Facility) (response : p.σ) (g : Graph ε)
    (h : a.Handles name type request p (.ok response) g)
    (payload : Bytes) (hpack : p.type.response.pack response = .ok payload)
    (value : σ) (hread : type.response.unpack payload = .ok value) :
    CallEnds a name type request (.ok value) g

/-- The provider reads the request, and what it has for it is never over. -/
def CallHangs (a : Audit ε) (name : String) (type : ServiceType ρ σ) (request : ρ) : Prop :=
  ∃ p payload v, a.Reaches name type request p payload ∧
    p.type.request.unpack payload = .ok v ∧ Middleware.run a.graph (p.answer v) = none

/-! ## Every call ends in one of them -/

/-- What becomes of a call whose request gets to the provider. -/
theorem call_of_reaches (hs : Sound a) {node : Node} {service : String} {p : Facility}
    {payload : Bytes} (hname : Name.resolve node.name service = name)
    (h : a.Reaches name type request p payload) :
    Middleware.call a.graph node service type request =
      (Middleware.run a.graph (p.offer.handler.answer payload)).map fun r =>
        (Graph.received name type r.1, r.2) := by
  have hprovider := provider_of_provides hs h.provides type.name type.md5
  rw [if_pos h.md5] at hprovider
  show Middleware.run a.graph (a.graph.dispatch node service type request) = _
  unfold Graph.dispatch
  simp only [hname, hprovider, h.packed, Middleware.run_map]

/-- What becomes of a call whose request the provider reads. -/
theorem call_of_handles (hs : Sound a) {node : Node} {service : String} {p : Facility}
    {result : Except String p.σ} {g : Graph ε} (hname : Name.resolve node.name service = name)
    (h : a.Handles name type request p result g) :
    Middleware.call a.graph node service type request =
      some (Graph.received name type (Handler.response p.type result), g) := by
  obtain ⟨payload, v, hreaches, hread, hrun⟩ := h.handled
  rw [call_of_reaches hs hname hreaches, Graph.run_answer_of_readable a.graph p hread, hrun]
  rfl

/-- A call is as long as what the provider does. -/
theorem call_of_hangs (hs : Sound a) {node : Node} {service : String}
    (hname : Name.resolve node.name service = name) (h : a.CallHangs name type request) :
    Middleware.call a.graph node service type request = none := by
  obtain ⟨p, payload, v, hreaches, hread, hrun⟩ := h
  rw [call_of_reaches hs hname hreaches, Graph.run_answer_of_readable a.graph p hread, hrun]
  rfl

/-- Each way to end is what the call gives. -/
theorem call_of_callEnds (h : Reachable a) {node : Node} {service : String}
    (hname : Name.resolve node.name service = name) {result : Except Error σ} {g : Graph ε}
    (hends : a.CallEnds name type request result g) :
    Middleware.call a.graph node service type request = some (result, g) := by
  have hs := h.sound
  have hdispatch : Middleware.call a.graph node service type request =
      Middleware.run a.graph (a.graph.dispatch node service type request) := rfl
  unfold Graph.dispatch at hdispatch
  cases hends with
  | absent hnone =>
    rw [hdispatch]
    simp only [hname, provider_of_absent h hnone, Middleware.run_done]
    rfl
  | mismatch p hp hmd5 =>
    have hprovider := provider_of_provides hs hp type.name type.md5
    rw [if_neg hmd5] at hprovider
    rw [hdispatch]
    simp only [hname, hprovider, Middleware.run_done]
  | unsendable p hp hmd5 fault hpack =>
    have hprovider := provider_of_provides hs hp type.name type.md5
    rw [if_pos hmd5] at hprovider
    rw [hdispatch]
    simp only [hname, hprovider, hpack, Middleware.run_done]
  | unreadable p payload hreaches fault hread =>
    rw [call_of_reaches hs hname hreaches, Graph.run_answer_of_unreadable a.graph p hread]
    rfl
  | failed p reason g hhandles =>
    rw [call_of_handles hs hname hhandles]
    rfl
  | unwritable p response g hhandles fault hpack =>
    rw [call_of_handles hs hname hhandles]
    simp only [Handler.response, hpack, Graph.received, Refusal.message]
  | unintelligible p response g hhandles payload hpack fault hread =>
    rw [call_of_handles hs hname hhandles]
    simp only [Handler.response, hpack, Graph.received, hread]
  | answered p response g hhandles payload hpack value hread =>
    rw [call_of_handles hs hname hhandles]
    simp only [Handler.response, hpack, Graph.received, hread]

/-- There is a way to end, or none because the provider hangs. -/
theorem exists_callEnds (a : Audit ε) (name : String) (type : ServiceType ρ σ) (request : ρ) :
    (∃ result g, a.CallEnds name type request result g) ∨ a.CallHangs name type request := by
  by_cases hsome : ∃ p, a.Provides name p
  · obtain ⟨p, hp⟩ := hsome
    by_cases hmd5 : p.type.md5 = type.md5
    · cases hpack : type.request.pack request with
      | error fault => exact .inl ⟨_, _, .unsendable p hp hmd5 fault hpack⟩
      | ok payload =>
        have hreaches : a.Reaches name type request p payload := ⟨hp, hmd5, hpack⟩
        cases hread : p.type.request.unpack payload with
        | error fault => exact .inl ⟨_, _, .unreadable p payload hreaches fault hread⟩
        | ok v =>
          cases hrun : Middleware.run a.graph (p.answer v) with
          | none => exact .inr ⟨p, payload, v, hreaches, hread, hrun⟩
          | some r =>
            obtain ⟨result, g⟩ := r
            have hhandles : a.Handles name type request p result g :=
              ⟨payload, v, hreaches, hread, hrun⟩
            cases result with
            | error reason => exact .inl ⟨_, _, .failed p reason g hhandles⟩
            | ok response =>
              cases hwrite : p.type.response.pack response with
              | error fault => exact .inl ⟨_, _, .unwritable p response g hhandles fault hwrite⟩
              | ok bytes =>
                cases hlast : type.response.unpack bytes with
                | error fault =>
                  exact .inl ⟨_, _, .unintelligible p response g hhandles bytes hwrite fault hlast⟩
                | ok value =>
                  exact .inl ⟨_, _, .answered p response g hhandles bytes hwrite value hlast⟩
    · exact .inl ⟨_, _, .mismatch p hp hmd5⟩
  · exact .inl ⟨_, _, .absent fun p hp => hsome ⟨p, hp⟩⟩

end Audit

/-! ## Types that read what they write -/

/-- Whether a value can be written, and is read again from what was written. -/
def Format.Returns {α : Type} (f : Format α) (v : α) : Prop :=
  ∃ body rest, f.encode v = .ok body ∧ f.decode body = .ok (v, rest)

/-- What is written with a faithful codec is read again. -/
theorem Format.returns_ofCodec {α : Type} {c : Wire.Codec α} {fits : α → Prop}
    (h : c.Faithful fits) {v : α} (hv : fits v) : (ofCodec c).Returns v := by
  exact ⟨c.encode v, [], rfl, (h.decode_iff _ _ _).mpr ⟨hv, (List.append_nil _).symm⟩⟩

theorem Format.Returns.unpack_pack {α : Type} {f : Format α} {v : α} (h : f.Returns v) :
    ∃ payload, f.pack v = .ok payload ∧ f.unpack payload = .ok v := by
  obtain ⟨body, rest, hencode, hdecode⟩ := h
  refine ⟨framed body, ?_, ?_⟩
  · unfold pack
    rw [hencode]
    rfl
  · have hdrop : (framed body).drop 4 = body := by
      rw [framed, ← Wire.Codec.Faithful.length_count body.length, List.drop_left]
    unfold unpack
    rw [hdrop, hdecode]

namespace Audit

variable {a : Audit ε}

/-- **A call ends in exactly one of the ways there are,** the first one for which there is a
reason; and whatever the way, the provider's course of action has been carried out once if
its type could read the request, and else not at all. There is no end to it exactly if the
provider's course of action has none. If provider and caller go by the same type, and it
reads what it writes, then the call is transparent: its result is that of the course of
action. -/
theorem call_ranked (h : Reachable a) (node : Node) (service : String) (type : ServiceType ρ σ)
    (request : ρ) :
    (∀ result g, Middleware.call a.graph node service type request = some (result, g) ↔
      a.CallEnds (Name.resolve node.name service) type request result g) ∧
    (Middleware.call a.graph node service type request = none ↔
      a.CallHangs (Name.resolve node.name service) type request) ∧
    ∀ answer owns, a.Provides (Name.resolve node.name service) ⟨type, answer, owns⟩ →
      type.request.Returns request →
      (∀ response g, Middleware.run a.graph (answer request) = some (.ok response, g) →
        type.response.Returns response) →
      Middleware.call a.graph node service type request =
        (Middleware.run a.graph (answer request)).map fun r =>
          (r.1.mapError fun reason =>
            (Cause.serviceFailed (Name.resolve node.name service) reason : Error), r.2) := by
  refine ⟨fun result g => ⟨fun hcall => ?_, call_of_callEnds h rfl⟩,
    ⟨fun hcall => ?_, call_of_hangs h.sound rfl⟩, ?_⟩
  · rcases exists_callEnds a (Name.resolve node.name service) type request with
      ⟨result', g', hends⟩ | hhangs
    · obtain ⟨rfl, rfl⟩ := Prod.mk.inj
        (Option.some.inj ((call_of_callEnds h rfl hends).symm.trans hcall))
      exact hends
    · cases (call_of_hangs h.sound rfl hhangs).symm.trans hcall
  · rcases exists_callEnds a (Name.resolve node.name service) type request with
      ⟨result', g', hends⟩ | hhangs
    · cases (call_of_callEnds h rfl hends).symm.trans hcall
    · exact hhangs
  · intro answer owns hprovides hrequest hresponse
    obtain ⟨payload, hpack, hread⟩ := hrequest.unpack_pack
    have hreaches : a.Reaches (Name.resolve node.name service) type request
        ⟨type, answer, owns⟩ payload := ⟨hprovides, rfl, hpack⟩
    cases hrun : Middleware.run a.graph (answer request) with
    | none => exact call_of_hangs h.sound rfl ⟨_, payload, request, hreaches, hread, hrun⟩
    | some r =>
      obtain ⟨result, g⟩ := r
      have hhandles : a.Handles (Name.resolve node.name service) type request
          ⟨type, answer, owns⟩ result g := ⟨payload, request, hreaches, hread, hrun⟩
      cases result with
      | error reason => exact call_of_callEnds h rfl (.failed _ reason g hhandles)
      | ok response =>
        obtain ⟨bytes, hwrite, hback⟩ := (hresponse response g hrun).unpack_pack
        exact call_of_callEnds h rfl
          (.answered ⟨type, answer, owns⟩ response g hhandles bytes hwrite response hback)

/-! ## Three services -/

namespace Exchange

/-- The node that offers the services. -/
def clerk : Node := ⟨1, "/clerk"⟩

/-- A node that a service keeps to make calls of its own. -/
def runner : Node := ⟨2, "/runner"⟩

/-- Says that it has been asked, and gives the first number back. -/
def echo : Facility where
  type := Addition.service
  answer request := .log ⟨clerk.id, clerk.name⟩ (.info "asked") (.done (.ok ⟨request.a⟩))
  owns := [.logger ⟨clerk.id, clerk.name⟩]

/-- Gives nothing. -/
def broken : Facility where
  type := Addition.service
  answer _ := .done (.error "out of order")

/-- Hands requests on to a service that gives nothing, and says why it has not got anything. -/
def relay : Facility where
  type := Addition.service
  answer request :=
    (Except.mapError Error.message) <$> Act.calling runner "broken" Addition.service request
  owns := [.node runner]

/-- All three are on offer. -/
def opened : Audit String :=
  let a := (({} : Audit String).register "clerk").register "runner"
  let a := a.advertise clerk "echo" echo.type echo.answer echo.owns
  let a := a.advertise clerk "broken" broken.type broken.answer broken.owns
  a.advertise clerk "relay" relay.type relay.answer relay.owns

theorem opened_reachable : Reachable opened := by
  unfold opened
  refine .tail (.tail (.tail (.tail (.tail .refl
    (.operation (.register _ "clerk"))) (.operation (.register _ "runner")))
    (.operation (.advertise _ clerk _ _ _ _ ?_))) (.operation (.advertise _ clerk _ _ _ _ ?_)))
    (.operation (.advertise _ clerk _ _ _ _ ?_))
  all_goals decide

theorem provides_echo : opened.Provides "/echo" echo :=
  ⟨_, .head _, by decide, rfl, rfl⟩

theorem provides_broken : opened.Provides "/broken" broken :=
  ⟨_, .tail _ (.head _), by decide, rfl, rfl⟩

theorem provides_relay : opened.Provides "/relay" relay :=
  ⟨_, .tail _ (.tail _ (.head _)), by decide, rfl, rfl⟩

/-- One answers and says so, one fails, one fails because of the other one, and nobody provides
a fourth. -/
theorem call_ranked_opened :
    Middleware.call opened.graph runner "echo" Addition.service ⟨1, 2⟩ =
      some (.ok ⟨1⟩, opened.graph.log ⟨clerk.id, clerk.name⟩ (.info "asked")) ∧
    Middleware.call opened.graph runner "broken" Addition.service ⟨1, 2⟩ =
      some (.error (Cause.serviceFailed "/broken" "out of order"), opened.graph) ∧
    Middleware.call opened.graph clerk "relay" Addition.service ⟨1, 2⟩ =
      some (.error (Cause.serviceFailed "/relay"
        "Service /broken reported a failure: out of order"), opened.graph) ∧
    opened.CallEnds "/x" Addition.service ⟨1, 2⟩
      (.error ⟨.communication "/x", [.message "no provider"]⟩) opened.graph := by
  have hrequest : Addition.service.request.Returns ⟨1, 2⟩ :=
    Format.returns_ofCodec Addition.Request.codec_faithful trivial
  have hresponse : ∀ response : Addition.Response, Addition.service.response.Returns response :=
    fun _ => Format.returns_ofCodec Addition.Response.codec_faithful trivial
  have hecho := (call_ranked opened_reachable runner "echo" Addition.service ⟨1, 2⟩).2.2 echo.answer
    echo.owns provides_echo hrequest fun response _ _ => hresponse response
  have hbroken := (call_ranked opened_reachable runner "broken" Addition.service ⟨1, 2⟩).2.2
    broken.answer broken.owns provides_broken hrequest fun response _ _ => hresponse response
  have hrelay := (call_ranked opened_reachable clerk "relay" Addition.service ⟨1, 2⟩).2.2
    relay.answer relay.owns provides_relay hrequest fun response _ _ => hresponse response
  have habsent := (call_ranked opened_reachable clerk "x" Addition.service ⟨1, 2⟩).1
  have hfailed : Middleware.run opened.graph (broken.answer ⟨1, 2⟩) =
      some (.error "out of order", opened.graph) := Middleware.run_done ..
  replace hbroken : Middleware.call opened.graph runner "broken" Addition.service ⟨1, 2⟩ =
      some (.error (Cause.serviceFailed "/broken" "out of order"), opened.graph) :=
    hbroken.trans (congrArg (Option.map _) hfailed)
  have hcalled : Middleware.run opened.graph
      (Act.calling runner "broken" Addition.service (⟨1, 2⟩ : Addition.Request)) = _ :=
    (Graph.run_calling ..).trans hbroken
  have hrelayed : Middleware.run opened.graph (relay.answer ⟨1, 2⟩) =
      some (.error "Service /broken reported a failure: out of order", opened.graph) :=
    (Middleware.run_map ..).trans (congrArg (Option.map _) hcalled)
  have hechoed : Middleware.run opened.graph (echo.answer ⟨1, 2⟩) =
      some (.ok ⟨1⟩, opened.graph.log ⟨clerk.id, clerk.name⟩ (.info "asked")) :=
    (Middleware.run_log ..).trans (Middleware.run_done ..)
  refine ⟨hecho.trans (congrArg (Option.map _) hechoed), hbroken,
    hrelay.trans (congrArg (Option.map _) hrelayed), (habsent _ _).mp ?_⟩
  · show Middleware.run opened.graph (.done _) = _
    exact Middleware.run_done ..

end Exchange

end Audit

end NodeGraph
