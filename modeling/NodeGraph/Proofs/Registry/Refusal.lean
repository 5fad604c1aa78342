import NodeGraph.Graph.Middleware
import NodeGraph.Proofs.Calls.Courses
import NodeGraph.Proofs.Registry.Exact

/-!
# Why the registry refuses

A graph looks before it leaps, but not always first: a subscription has been given
a number by the time its topic is looked at, and the topic may have to be made before
there is a sum to compare.

> `register_refused` and the others: why each of the operations is refused, and what it leaves.
> Nothing has been touched, but for the number of a subscription or a publisher.

That a topic is not made in vain comes down to one thing (`enterTopic_eq`): one that has
just been made carries the sum that was asked for, so only one that was there before
can turn anybody away.

A callback or a handler that is refused goes, with all that it keeps, when the registry has
said so (`subscribe_refused`, `advertise_refused`).
-/

namespace NodeGraph

open Wire (Bytes)

namespace Graph

variable {ε : Type} {g g' : Graph ε} {e : Error}

/-! ## Making sure of a topic, the entry first -/

/-- The topic of a name. It is made if there is none; one that is there may carry
anything. -/
def entry (g : Graph ε) (name typeName md5 : String) : Topic × Graph ε :=
  match g.topic? name with
  | some t => (t, g)
  | none =>
    let t : Topic := { name, typeName, md5 }
    (t, { g with topics := g.topics ++ [t] })

/-- Makes sure of a topic step by step: first there is an entry, and then its sum is
looked at. What a refusal leaves behind is given as well. -/
def enterTopic (g : Graph ε) (name typeName md5 : String) : Except Error Unit × Graph ε :=
  let (t, g) := g.entry name typeName md5
  if t.md5 = md5 then (.ok (), g)
  else (.error (Cause.typeMismatch name t.typeName typeName), g)

/-- A refusal leaves no entry behind, though the entry comes first. -/
theorem enterTopic_eq (g : Graph ε) (name typeName md5 : String) :
    g.enterTopic name typeName md5 =
      match g.ensureTopic name typeName md5 with
      | .ok g' => (.ok (), g')
      | .error e => (.error e, g) := by
  unfold enterTopic entry ensureTopic
  cases g.topic? name with
  | none => exact if_pos rfl
  | some t =>
    by_cases hsum : t.md5 = md5
    · simp only [if_pos hsum]
    · simp only [if_neg hsum]

/-- Somebody turned away from a topic, which is there and carries another sum. -/
def Clash (g : Graph ε) (name typeName md5 : String) (e : Error) : Prop :=
  ∃ t, g.topic? name = some t ∧ t.md5 ≠ md5 ∧ e = Cause.typeMismatch name t.typeName typeName

theorem clash_of_ensureTopic {name typeName md5 : String}
    (h : g.ensureTopic name typeName md5 = .error e) : g.Clash name typeName md5 e := by
  unfold ensureTopic at h
  split at h
  next => exact absurd h (by simp)
  next t ht =>
    split at h
    next => exact absurd h (by simp)
    next hsum =>
      injection h with h
      exact ⟨t, ht, hsum, h.symm⟩

theorem ensureTopic_of_clash {name typeName md5 : String} (h : g.Clash name typeName md5 e) :
    g.ensureTopic name typeName md5 = .error e := by
  obtain ⟨t, ht, hsum, rfl⟩ := h
  unfold ensureTopic
  rw [ht]
  exact if_neg hsum

/-- So whoever is turned away finds the graph as it was. -/
theorem enterTopic_of_clash {name typeName md5 : String} (h : g.Clash name typeName md5 e) :
    g.enterTopic name typeName md5 = (.error e, g) := by
  rw [enterTopic_eq, ensureTopic_of_clash h]

/-! ## One refusal after another -/

theorem register_refused {name : String} (h : g.register name = (.error e, g')) :
    g' = g ∧ (∃ n ∈ g.nodes, n.name = Name.resolve "/" name) ∧
      e = Cause.nameTaken (Name.resolve "/" name) := by
  unfold register at h
  by_cases htaken : g.nodes.any (·.name = Name.resolve "/" name) = true
  · simp only [if_pos htaken] at h
    obtain ⟨he, hg⟩ := Prod.mk.inj h
    obtain ⟨n, hn, hname⟩ := List.any_eq_true.mp htaken
    exact ⟨hg.symm, ⟨n, hn, of_decide_eq_true hname⟩, (Except.error.inj he).symm⟩
  · simp only [if_neg htaken] at h
    exact absurd (Prod.mk.inj h).1 (by simp)

theorem addSubscriber_refused {α : Type} {node : Node} {topic : String} {capacity : Nat}
    {type : MessageType α} {receive : α → ε}
    (h : g.addSubscriber node topic capacity type receive = (.error e, g')) :
    g' = { g with lastId := g.lastId + 1 } ∧
      g.Clash (Name.resolve node.name topic) type.name type.md5 e := by
  unfold addSubscriber at h
  simp only at h
  split at h
  next e' hclash =>
    obtain ⟨he, hg⟩ := Prod.mk.inj h
    obtain rfl : e' = e := Except.error.inj he
    -- the number does not matter to the topic
    have hclash : ({ g with lastId := g.lastId + 1 } : Graph ε).Clash _ _ _ e' :=
      clash_of_ensureTopic hclash
    exact ⟨hg.symm, hclash⟩
  next => exact absurd (Prod.mk.inj h).1 (by simp)

theorem publish_refused {α : Type} {node : Node} {topic : String} {type : MessageType α}
    (h : g.publish node topic type = (.error e, g')) :
    g' = { g with lastId := g.lastId + 1 } ∧
      g.Clash (Name.resolve node.name topic) type.name type.md5 e := by
  unfold publish at h
  simp only at h
  split at h
  next e' hclash =>
    obtain ⟨he, hg⟩ := Prod.mk.inj h
    obtain rfl : e' = e := Except.error.inj he
    -- the number does not matter to the topic
    have hclash : ({ g with lastId := g.lastId + 1 } : Graph ε).Clash _ _ _ e' :=
      clash_of_ensureTopic hclash
    exact ⟨hg.symm, hclash⟩
  next => exact absurd (Prod.mk.inj h).1 (by simp)

theorem addService_refused {ρ σ : Type} {node : Node} {service : String}
    {type : ServiceType ρ σ} {answer : ρ → Act (Except String σ)} {owns : List Handle}
    (h : g.addService node service type answer owns = (.error e, g')) :
    g' = g ∧ (∃ s, g.service? (Name.resolve node.name service) = some s) ∧
      e = Cause.duplicate (Name.resolve node.name service) := by
  unfold addService at h
  by_cases hdup : (g.service? (Name.resolve node.name service)).isSome = true
  · simp only [if_pos hdup] at h
    obtain ⟨he, hg⟩ := Prod.mk.inj h
    exact ⟨hg.symm, Option.isSome_iff_exists.mp hdup, (Except.error.inj he).symm⟩
  · simp only [if_neg hdup] at h
    exact absurd (Prod.mk.inj h).1 (by simp)

theorem orDropping_refused {τ : Type} {owns : List Handle} {r : Except Error τ × Graph ε}
    (h : orDropping owns r = (.error e, g')) :
    ∃ g₀, r = (.error e, g₀) ∧ g' = g₀.dropEach owns := by
  obtain ⟨e' | granted, g₀⟩ := r
  · obtain ⟨he, hg⟩ := Prod.mk.inj h
    exact ⟨g₀, by rw [Except.error.inj he], hg.symm⟩
  · exact absurd (Prod.mk.inj h).1 (by simp)

/-- A callback that is refused takes along what it keeps. -/
theorem subscribe_refused {α : Type} {node : Node} {topic : String} {capacity : Nat}
    {type : MessageType α} {receive : α → ε} {owns : List Handle}
    (h : g.subscribe node topic capacity type receive owns = (.error e, g')) :
    g' = dropEach { g with lastId := g.lastId + 1 } owns ∧
      g.Clash (Name.resolve node.name topic) type.name type.md5 e := by
  obtain ⟨g₀, hrefused, rfl⟩ := orDropping_refused h
  obtain ⟨rfl, hclash⟩ := addSubscriber_refused hrefused
  exact ⟨rfl, hclash⟩

/-- So does a handler. -/
theorem advertise_refused {ρ σ : Type} {node : Node} {service : String}
    {type : ServiceType ρ σ} {answer : ρ → Act (Except String σ)} {owns : List Handle}
    (h : g.advertise node service type answer owns = (.error e, g')) :
    g' = g.dropEach owns ∧ (∃ s, g.service? (Name.resolve node.name service) = some s) ∧
      e = Cause.duplicate (Name.resolve node.name service) := by
  obtain ⟨g₀, hrefused, rfl⟩ := orDropping_refused h
  obtain ⟨rfl, hgrounds⟩ := addService_refused hrefused
  exact ⟨rfl, hgrounds⟩

theorem send_refused {α : Type} {p : Publisher α} {message : α}
    (h : g.send p message = (.error e, g')) :
    g' = g ∧ ((∃ fault, p.type.pack message = .error fault ∧ e = Cause.io fault) ∨
      (∃ payload, p.type.pack message = .ok payload) ∧ g.isAlive p.node = false ∧
        e = Cause.closed p.topic) := by
  unfold send at h
  cases hpack : p.type.pack message with
  | error fault =>
    rw [hpack] at h
    obtain ⟨he, hg⟩ := Prod.mk.inj h
    exact ⟨hg.symm, .inl ⟨fault, rfl, (Except.error.inj he).symm⟩⟩
  | ok payload =>
    rw [hpack] at h
    by_cases halive : g.isAlive p.node = true
    · -- a live node may send, whether the topic is there or not
      simp only [if_pos halive] at h
      split at h <;> exact absurd (Prod.mk.inj h).1 (by simp)
    · simp only [if_neg halive] at h
      obtain ⟨he, hg⟩ := Prod.mk.inj h
      exact ⟨hg.symm, .inr ⟨⟨payload, rfl⟩, Bool.eq_false_iff.mpr halive,
        (Except.error.inj he).symm⟩⟩

/-- Why a call has not reached the handler of a service. -/
def Unreached {ρ σ : Type} (g : Graph ε) (name : String) (type : ServiceType ρ σ) (request : ρ)
    (e : Error) : Prop :=
  (g.service? name = none ∧ e = ⟨.communication name, [.message "no provider"]⟩) ∨
  (∃ s, g.service? name = some s ∧ s.md5 ≠ type.md5 ∧
    e = Cause.typeMismatch name s.typeName type.name) ∨
  ∃ fault, type.request.pack request = .error fault ∧ e = Cause.io fault

/-- A call that has reached a handler, and what it may fail with after that. -/
def Reached {ρ σ : Type} (g : Graph ε) (name : String) (type : ServiceType ρ σ) (request : ρ)
    (e : Error) : Prop :=
  (∃ handler, g.provider name type.name type.md5 = .ok handler) ∧
  (∃ payload, type.request.pack request = .ok payload) ∧
  ((∃ reason, e = Cause.serviceFailed name reason) ∨ ∃ fault, e = Cause.io fault)

/-- What the caller is told by whoever has come by the request. -/
theorem received_eq_error {ρ σ : Type} {name : String} {type : ServiceType ρ σ}
    {reply : Except Refusal Bytes} (h : received name type reply = .error e) :
    (∃ reason, e = Cause.serviceFailed name reason) ∨ ∃ fault, e = Cause.io fault := by
  unfold received at h
  split at h
  next refusal => exact .inl ⟨refusal.message, (Except.error.inj h).symm⟩
  next response =>
    split at h
    next => exact absurd h (by simp)
    next fault _ => exact .inr ⟨fault, (Except.error.inj h).symm⟩

theorem call_refused {ρ σ : Type} {node : Node} {service : String} {type : ServiceType ρ σ}
    {request : ρ} (h : Middleware.call g node service type request = some (.error e, g')) :
    g.Reached (Name.resolve node.name service) type request e ∨
      g' = g ∧ g.Unreached (Name.resolve node.name service) type request e := by
  replace h : Middleware.run g (g.dispatch node service type request) = some (.error e, g') := h
  unfold dispatch at h
  cases hprovider : g.provider (Name.resolve node.name service) type.name type.md5 with
  | error e' =>
    simp only [hprovider, Middleware.run_done] at h
    obtain ⟨he, hg⟩ := Prod.mk.inj (Option.some.inj h)
    obtain rfl : e' = e := Except.error.inj he
    refine .inr ⟨hg.symm, ?_⟩
    unfold provider at hprovider
    split at hprovider
    next hnone => exact .inl ⟨hnone, (Except.error.inj hprovider).symm⟩
    next s hs =>
      split at hprovider
      next => exact absurd hprovider (by simp)
      next hsum => exact .inr (.inl ⟨s, hs, hsum, (Except.error.inj hprovider).symm⟩)
  | ok handler =>
    simp only [hprovider] at h
    cases hpack : type.request.pack request with
    | error fault =>
      simp only [hpack, Middleware.run_done] at h
      obtain ⟨he, hg⟩ := Prod.mk.inj (Option.some.inj h)
      exact .inr ⟨hg.symm, .inr (.inr ⟨fault, hpack, (Except.error.inj he).symm⟩)⟩
    | ok payload =>
      simp only [hpack, Middleware.run_map] at h
      obtain ⟨⟨reply, g₁⟩, -, hreply⟩ := Option.map_eq_some_iff.mp h
      exact .inl ⟨⟨handler, hprovider⟩, ⟨payload, hpack⟩,
        received_eq_error (Prod.mk.inj hreply).1⟩

end Graph

end NodeGraph
