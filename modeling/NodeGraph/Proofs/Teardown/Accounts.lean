import Mathlib.Data.List.Count
import NodeGraph.Proofs.Teardown.Premises

/-!
# Every registration has its handle somewhere

Dropping a handle twice, or dropping what somebody else still works with, would take out more
than it should. Neither can happen, since a handle is never copied: it is given out once, when
something is registered, and from then on it changes hands.

> `Audit.Gives`: what an operation of the graph gives out, a handle or none.
>
> `Accounted`: every node and every member or service whose handle nobody has dropped has that
> handle in exactly one place: in somebody's hands, due to be dropped, under the lock, or kept
> by a handler.
>
> `Step.accounted`: one step preserves this, and so does every run. It is what a drop relies on
> when it takes what it drops for something that is there.
-/

namespace NodeGraph

variable {ε : Type}

namespace Audit

variable {a b : Audit ε}

/-- Somebody has been given a handle, or nobody has, and some services are on offer besides. -/
structure Gives (a b : Audit ε) (given : Option Handle) (offered : List Service) : Prop where
  fresh : ∀ x, given = some x → ¬ a.Droppable x
  droppable_iff : ∀ x, x.asksForLock = true → (b.Droppable x ↔ given = some x ∨ a.Droppable x)
  services : b.ledger.services = a.ledger.services ++ offered

theorem gives_none (hlive : b.ledger.live = a.ledger.live)
    (hhandles : b.ledger.handles = a.ledger.handles)
    (hdropped : b.ledger.dropped = a.ledger.dropped)
    (hservices : b.ledger.services = a.ledger.services) : Gives a b none [] := by
  refine ⟨fun x hx => (nomatch hx), fun x hasks => ?_, by rw [hservices, List.append_nil]⟩
  rw [or_iff_right (by simp)]
  cases x with
  | node n =>
    show n ∈ b.ledger.live ↔ n ∈ a.ledger.live
    rw [hlive]
  | logger l => exact absurd hasks Bool.false_ne_true
  | registration r =>
    show (r ∈ b.ledger.handles ∧ r.id ∉ b.ledger.dropped) ↔
      (r ∈ a.ledger.handles ∧ r.id ∉ a.ledger.dropped)
    rw [hhandles, hdropped]

theorem gives_node (hs : Sound a) {node : Node} (hid : node.id = a.graph.lastId + 1)
    (h : b.ledger = a.ledger.enter node) : Gives a b (some (.node node)) [] := by
  have hnew : node ∉ a.ledger.nodes := by
    intro hmem
    have := hs.numbered.bound _ (Ledger.node_id_mem_ids hmem)
    omega
  have hup : node.id ∉ a.ledger.down := by
    intro hdown
    have := hs.numbered.down _ hdown
    omega
  refine ⟨?_, fun x hasks => ?_, ?_⟩
  · rintro x ⟨⟩ hlive
    exact hnew (Ledger.mem_live.mp hlive).1
  · cases x with
    | node n =>
      show n ∈ b.ledger.live ↔ _ ∨ n ∈ a.ledger.live
      rw [h, a.ledger.live_enter hup, List.mem_append, List.mem_singleton, Option.some.injEq,
        Handle.node.injEq, Or.comm, eq_comm]
    | logger l => exact absurd hasks Bool.false_ne_true
    | registration r =>
      rw [or_iff_right (by simp)]
      show b.ledger.Holds r ↔ a.ledger.Holds r
      rw [h]
      rfl
  · rw [h, List.append_nil]
    rfl

theorem gives_registration (hs : Sound a) {r : Registration} {offered : List Service}
    (hid : r.id = a.graph.lastId + 1) (hlive : b.ledger.live = a.ledger.live)
    (hhandles : b.ledger.handles.Perm (r :: a.ledger.handles))
    (hdropped : b.ledger.dropped = a.ledger.dropped)
    (hservices : b.ledger.services = a.ledger.services ++ offered) :
    Gives a b (some (.registration r)) offered := by
  have hnew : r ∉ a.ledger.handles := by
    intro hmem
    have := hs.numbered.bound _ (Ledger.id_mem_ids hmem)
    omega
  have hheld : r.id ∉ a.ledger.dropped := by
    intro hgone
    have := hs.numbered.dropped _ hgone
    omega
  refine ⟨?_, fun x hasks => ?_, hservices⟩
  · rintro x ⟨⟩ hholds
    exact hnew hholds.1
  · cases x with
    | node n =>
      rw [or_iff_right (by simp)]
      show n ∈ b.ledger.live ↔ n ∈ a.ledger.live
      rw [hlive]
    | logger l => exact absurd hasks Bool.false_ne_true
    | registration r' =>
      show (r' ∈ b.ledger.handles ∧ r'.id ∉ b.ledger.dropped) ↔
        _ ∨ (r' ∈ a.ledger.handles ∧ r'.id ∉ a.ledger.dropped)
      rw [hhandles.mem_iff, hdropped, List.mem_cons, Option.some.injEq, Handle.registration.injEq]
      constructor
      · rintro ⟨rfl | hold, hkept⟩
        · exact .inl rfl
        · exact .inr ⟨hold, hkept⟩
      · rintro (rfl | ⟨hold, hkept⟩)
        · exact ⟨.inl rfl, hheld⟩
        · exact ⟨.inr hold, hkept⟩

theorem register_gives (hs : Sound a) (name : String) :
    Gives a (a.register name) ((a.graph.register name).1.toOption.map .node) [] := by
  unfold register Graph.register
  by_cases htaken : (a.graph.nodes.any (·.name = Name.resolve "/" name)) = true
  · simp only [if_pos htaken]
    exact gives_none rfl rfl rfl rfl
  · simp only [if_neg htaken]
    exact gives_node hs rfl rfl

theorem subscribe_gives (hs : Sound a) {α : Type} (node : Node) (topic : String) (capacity : Nat)
    (type : MessageType α) (callback : α → ε) :
    Gives a (a.subscribe node topic capacity type callback)
      ((a.graph.addSubscriber node topic capacity type callback).1.toOption.map .registration) [] := by
  unfold subscribe Graph.addSubscriber
  cases hbase : Graph.ensureTopic { a.graph with lastId := a.graph.lastId + 1 }
      (Name.resolve node.name topic) type.name type.md5 with
  | error e =>
    simp only [hbase]
    exact gives_none rfl rfl rfl rfl
  | ok g =>
    simp only [hbase]
    exact gives_registration hs rfl rfl (Ledger.handles_subscribe _ _) rfl
      (List.append_nil _).symm

theorem publish_gives (hs : Sound a) {α : Type} (node : Node) (topic : String)
    (type : MessageType α) :
    Gives a (a.publish node topic type)
      ((a.graph.publish node topic type).1.toOption.map (.registration ·.registration)) [] := by
  unfold publish Graph.publish
  cases hbase : Graph.ensureTopic { a.graph with lastId := a.graph.lastId + 1 }
      (Name.resolve node.name topic) type.name type.md5 with
  | error e =>
    simp only [hbase]
    exact gives_none rfl rfl rfl rfl
  | ok g =>
    simp only [hbase]
    exact gives_registration hs rfl rfl (Ledger.handles_publish _ _) rfl
      (List.append_nil _).symm

/-- Letters give nobody anything. -/
theorem posts_give (letters : List Letter) (hb : b.ledger = letters.foldl Ledger.post a.ledger) :
    Gives a b none [] := by
  have hsame : ∀ (letters : List Letter) (l : Ledger ε),
      (letters.foldl Ledger.post l).live = l.live ∧
      (letters.foldl Ledger.post l).handles = l.handles ∧
      (letters.foldl Ledger.post l).dropped = l.dropped ∧
      (letters.foldl Ledger.post l).services = l.services := by
    intro letters
    induction letters with
    | nil => exact fun l => ⟨rfl, rfl, rfl, rfl⟩
    | cons letter letters ih =>
      intro l
      obtain ⟨hlive, hhandles, hdropped, hservices⟩ := ih (l.post letter)
      exact ⟨hlive, hhandles.trans (l.handles_post letter), hdropped, hservices⟩
  obtain ⟨hlive, hhandles, hdropped, hservices⟩ := hsame letters a.ledger
  rw [← hb] at hlive hhandles hdropped hservices
  exact gives_none hlive hhandles hdropped hservices

theorem advertise_gives (hs : Sound a) {ρ σ : Type} (node : Node) (service : String)
    (type : ServiceType ρ σ) (answer : ρ → Act (Except String σ)) (owns : List Handle)
    (h : node ∈ a.ledger.live) :
    (∃ e, (a.graph.addService node service type answer owns).1 = .error e ∧
      Gives a (a.advertise node service type answer owns) none []) ∨
    ∃ r s, (a.graph.addService node service type answer owns).1 = .ok r ∧ s.handler.owns = owns ∧
      Gives a (a.advertise node service type answer owns) (some (.registration r)) [s] := by
  unfold advertise Graph.addService
  by_cases htaken : (a.graph.service? (Name.resolve node.name service)).isSome = true
  · simp only [if_pos htaken]
    exact .inl ⟨_, rfl, gives_none rfl rfl rfl rfl⟩
  · simp only [if_neg htaken]
    let c : Grant Offer :=
      { node, asked := service,
        handle := .service (Name.resolve node.name service) (a.graph.lastId + 1),
        item := ⟨type.name, type.md5, .ofTyped type answer owns⟩ }
    have hopen : a.ledger.isOpen c = true := hs.numbered.isOpen_of_next rfl h
    exact .inr ⟨c.handle, c.service, rfl, rfl, gives_registration hs rfl rfl
      (a.ledger.handles_offer c) rfl (a.ledger.services_offer hopen)⟩

/-- What has been dropped is not there to be dropped again, and nothing else has gone. -/
theorem droppable_dropHandle_iff (hs : Sound a) {handle other : Handle} (h : a.Droppable handle)
    (hasks : other.asksForLock = true) :
    (a.dropHandle handle).Droppable other ↔ a.Droppable other ∧ other ≠ handle := by
  refine ⟨fun hother => ?_, fun hboth => droppable_dropHandle hs h hboth.1 hboth.2⟩
  cases handle with
  | logger l =>
    refine ⟨hother, ?_⟩
    rintro rfl
    exact Bool.false_ne_true hasks
  | node n =>
    cases other with
    | logger l => exact absurd hasks Bool.false_ne_true
    | registration r => exact ⟨hother, Handle.noConfusion⟩
    | node m =>
      have hm : m ∈ (a.ledger.shutDown n.id).live := hother
      rw [Ledger.live_shutDown, List.mem_filter, decide_eq_true_iff] at hm
      exact ⟨hm.1, fun he => hm.2 (congrArg Node.id (Handle.node.inj he))⟩
  | registration r =>
    cases other with
    | logger l => exact absurd hasks Bool.false_ne_true
    | node m => exact ⟨hother, Handle.noConfusion⟩
    | registration r' =>
      obtain ⟨hmem, hkept⟩ := hother
      have hboth : r'.id ∉ a.ledger.dropped ∧ r'.id ≠ r.id := by
        rw [← not_or, ← List.mem_singleton, ← List.mem_append]
        exact hkept
      exact ⟨⟨hmem, hboth.1⟩, fun he => hboth.2 (congrArg Registration.id (Handle.registration.inj he))⟩

/-- The services that are left when a handle has been dropped. -/
theorem services_dropHandle (hs : Sound a) (hf : Fed a) {handle : Handle}
    (h : a.Droppable handle) :
    (a.dropHandle handle).graph.services = a.graph.services.filter (!·.isLost [handle]) := by
  rw [graph_dropHandle, Graph.drop_eq (tidy hs hf) handle ?_]
  · rfl
  · rintro n rfl
    rw [hs.exact.nodes]
    exact h

end Audit

namespace Premises

variable {p q : Premises ε}

/-- Every handle of something registered is in exactly one place, and no handler is kept from
going that no call holds on to. -/
structure Accounted (p : Premises ε) : Prop where
  reachable : p.audit.Reachable
  single : ∀ x, x.asksForLock = true → p.handles.count x ≤ 1
  held : ∀ x, x.asksForLock = true → (x ∈ p.handles ↔ p.audit.Droppable x)
  called : ∀ s ∈ p.strays, s.id ∈ p.calls

/-- The handles that some services keep. -/
def keptBy (services : List Service) : List Handle := services.flatMap (·.handler.owns)

theorem count_handles (p : Premises ε) (x : Handle) :
    p.handles.count x =
      p.hands.count x + p.due.count x + (p.lock.getD []).count x +
        ((keptBy p.graph.services).count x + (keptBy p.strays).count x) := by
  unfold handles kept keptBy
  rw [List.count_append, List.count_append, List.count_append, List.flatMap_append,
    List.count_append]

theorem Accounted.services_eq (h : Accounted p) (hreach : q.audit.Reachable) {given : Option Handle}
    {offered : List Service} (hgives : p.audit.Gives q.audit given offered) :
    q.graph.services = p.graph.services ++ offered := by
  rw [hreach.sound.exact.services, h.reachable.sound.exact.services, hgives.services]

/-- Whoever has been given a handle has it in one place. -/
theorem Accounted.gives (h : Accounted p) (hreach : q.audit.Reachable) {given : Option Handle}
    {offered : List Service} (hgives : p.audit.Gives q.audit given offered)
    (hcount : ∀ x, x.asksForLock = true →
      q.handles.count x = given.toList.count x + p.handles.count x)
    (hcalled : ∀ s ∈ q.strays, s.id ∈ q.calls) : Accounted q := by
  refine ⟨hreach, fun x hasks => ?_, fun x hasks => ?_, hcalled⟩
  · rw [hcount x hasks]
    by_cases hx : given = some x
    · -- a new handle was in no place before
      have hnone : p.handles.count x = 0 :=
        List.count_eq_zero.mpr fun hmem => hgives.fresh x hx ((h.held x hasks).mp hmem)
      rw [hnone, hx]
      simp
    · have hnone : given.toList.count x = 0 := by
        refine List.count_eq_zero.mpr fun hmem => hx ?_
        exact Option.mem_toList.mp hmem
      have := h.single x hasks
      omega
  · rw [hgives.droppable_iff x hasks, ← h.held x hasks, ← List.count_pos_iff, hcount x hasks,
      ← List.count_pos_iff, Nat.add_pos_iff_pos_or_pos, List.count_pos_iff, Option.mem_toList]

/-- What changes hands stays in one place. -/
theorem Accounted.moved (h : Accounted p) (haudit : q.audit = p.audit)
    (hcount : ∀ x, x.asksForLock = true → q.handles.count x = p.handles.count x)
    (hcalled : ∀ s ∈ q.strays, s.id ∈ q.calls) : Accounted q := by
  refine ⟨haudit ▸ h.reachable, fun x hasks => ?_, fun x hasks => ?_, hcalled⟩
  · rw [hcount x hasks]
    exact h.single x hasks
  · rw [haudit, ← h.held x hasks, ← List.count_pos_iff, hcount x hasks, List.count_pos_iff]

/-- What some services keep, in two parts. -/
theorem count_keptBy_filter (services : List Service) (part : Service → Bool) (x : Handle) :
    (keptBy services).count x =
      (keptBy (services.filter part)).count x + (keptBy (services.filter (!part ·))).count x := by
  unfold keptBy
  rw [← List.count_append, ← List.flatMap_append]
  exact ((List.filter_append_perm part services).flatMap_right _).symm.count_eq x

/-- Taking one out of many. -/
theorem count_erase_add {handles : List Handle} {handle : Handle} (h : handle ∈ handles)
    (x : Handle) : handles.count x = (handles.erase handle).count x + [handle].count x := by
  rw [(List.perm_cons_erase h).count_eq x, ← List.singleton_append, List.count_append,
    Nat.add_comm]

theorem count_logger {x : Handle} (h : x.asksForLock = true) (logger : Logger) :
    [Handle.logger logger].count x = 0 := by
  refine List.count_eq_zero.mpr fun hmem => ?_
  rw [List.mem_singleton.mp hmem] at h
  exact Bool.false_ne_true h

/-! ## Steps -/

namespace Accounted

theorem grant (h : Accounted p) {a : Audit ε} {given : Option Handle} (hstep : p.audit.Steps a)
    (hgives : p.audit.Gives a given []) : Accounted (p.grant a given) := by
  have hreach : (p.grant a given).audit.Reachable := h.reachable.trans hstep
  refine h.gives hreach hgives (fun x _ => ?_) h.called
  rw [count_handles, count_handles, h.services_eq hreach hgives, List.append_nil]
  unfold Premises.grant
  dsimp only
  rw [List.count_append]
  omega

/-- Nobody has been given anything. -/
theorem audited (h : Accounted p) {a : Audit ε} (hstep : p.audit.Steps a)
    (hgives : p.audit.Gives a none []) : Accounted { p with audit := a } := h.grant hstep hgives

theorem advertise (h : Accounted p) {ρ σ : Type} (node : Node) (service : String)
    (type : ServiceType ρ σ) (answer : ρ → Act (Except String σ)) {owns rest : List Handle}
    (hrest : p.hands.Perm (owns ++ rest)) (hlive : node ∈ p.audit.ledger.live) :
    Accounted (p.advertise node service type answer owns rest) := by
  have hreach : (p.audit.advertise node service type answer owns).Reachable :=
    h.reachable.tail (.operation (.advertise _ node service type answer owns hlive))
  have hparted : ∀ x, p.hands.count x = owns.count x + rest.count x := by
    intro x
    rw [hrest.count_eq x, List.count_append]
  unfold Premises.advertise
  rcases Audit.advertise_gives h.reachable.sound node service type answer owns hlive with
    ⟨e, hresult, hgives⟩ | ⟨r, s, hresult, howns, hgives⟩
  · simp only [hresult]
    refine h.gives hreach hgives (fun x _ => ?_) h.called
    rw [count_handles, count_handles, h.services_eq hreach hgives, List.append_nil, hparted x]
    dsimp only
    rw [List.count_append]
    simp only [Option.toList_none, List.count_nil]
    omega
  · simp only [hresult]
    refine h.gives hreach hgives (fun x _ => ?_) h.called
    rw [count_handles, count_handles, h.services_eq hreach hgives, hparted x]
    unfold keptBy
    rw [List.flatMap_append, List.flatMap_singleton, howns, List.count_append, List.count_cons,
      Option.toList_some, List.count_singleton]
    dsimp only
    omega

theorem finish (h : Accounted p) (id : Nat) : Accounted (p.finish id) := by
  have hother : ∀ s ∈ p.strays, s.id ≠ id → s.id ∈ p.calls.erase id :=
    fun s hs hne => (List.mem_erase_of_ne hne).mpr (h.called s hs)
  unfold Premises.finish
  by_cases hlast : id ∈ p.calls.erase id
  · rw [if_pos hlast]
    refine h.moved rfl (fun x _ => rfl) fun s hs => ?_
    by_cases hid : s.id = id
    · exact hid ▸ hlast
    · exact hother s hs hid
  · rw [if_neg hlast]
    refine h.moved rfl (fun x _ => ?_) fun s hs => ?_
    · rw [count_handles, count_handles, count_keptBy_filter p.strays (·.id = id) x]
      dsimp only [graph]
      simp only [decide_not]
      rw [List.count_append]
      unfold keptBy
      omega
    · obtain ⟨hmem, hne⟩ := List.mem_filter.mp hs
      exact hother s hmem (of_decide_eq_true hne)

theorem letGo (h : Accounted p) {handle : Handle} (hmem : handle ∈ p.hands) :
    Accounted (p.letGo handle) := by
  refine h.moved rfl (fun x _ => ?_) h.called
  rw [count_handles, count_handles, count_erase_add hmem x]
  unfold Premises.letGo
  dsimp only [graph]
  rw [← List.singleton_append, List.count_append]
  omega

theorem forget (h : Accounted p) {logger : Logger} (hmem : .logger logger ∈ p.due) :
    Accounted { p with due := p.due.erase (.logger logger) } := by
  refine h.moved rfl (fun x hasks => ?_) h.called
  rw [count_handles, count_handles, count_erase_add hmem x, count_logger hasks]
  rfl

theorem forgetWithin (h : Accounted p) {logger : Logger} {rest : List Handle}
    (hlock : p.lock = some (.logger logger :: rest)) :
    Accounted { p with lock := some rest } := by
  refine h.moved rfl (fun x hasks => ?_) h.called
  rw [count_handles, count_handles, hlock]
  dsimp only [Option.getD_some]
  rw [← List.singleton_append, List.count_append, count_logger hasks, Nat.zero_add]

theorem unlock (h : Accounted p) (hlock : p.lock = some []) : Accounted { p with lock := none } := by
  refine h.moved rfl (fun x _ => ?_) h.called
  rw [count_handles, count_handles, hlock]
  rfl

theorem droppable (h : Accounted p) {handle : Handle} (hasks : handle.asksForLock = true)
    (hmem : handle ∈ p.due) : p.audit.Droppable handle := by
  refine (h.held handle hasks).mp (List.count_pos_iff.mp ?_)
  have := List.count_pos_iff.mpr hmem
  rw [count_handles]
  omega

/-- The services that leave with a handle go to the calls that hold on to their handlers, and
what the others kept is to be dropped under the lock. Only the handle itself is gone. -/
theorem count_drop (h : Accounted p) {handle : Handle} (hfree : p.lock = none)
    (hasks : handle.asksForLock = true) (hmem : handle ∈ p.due) (x : Handle) :
    p.handles.count x = (p.drop handle).handles.count x + [handle].count x := by
  have hservices := Audit.services_dropHandle h.reachable.sound h.reachable.fed
    (h.droppable hasks hmem)
  have hkept : (keptBy (p.drop handle).graph.services).count x =
      (keptBy (p.graph.services.filter (!·.isLost [handle]))).count x :=
    congrArg (fun services => (keptBy services).count x) hservices
  have hstrays : (keptBy (p.drop handle).strays).count x = (keptBy p.strays).count x +
      (keptBy ((p.graph.leaving handle).filter (·.id ∈ p.calls))).count x := by
    unfold keptBy
    rw [← List.count_append, ← List.flatMap_append]
    rfl
  have hlock : ((p.drop handle).lock.getD []).count x =
      (keptBy ((p.graph.leaving handle).filter fun s => !decide (s.id ∈ p.calls))).count x := by
    unfold Premises.drop
    simp only [Option.getD_some, decide_not]
    rfl
  have hhands : (p.drop handle).hands = p.hands := rfl
  have hdue : (p.drop handle).due = p.due.erase handle := rfl
  -- a service stays or leaves, and one that leaves goes to a call or under the lock
  have hall : (keptBy p.graph.services).count x = (keptBy (p.graph.leaving handle)).count x + _ :=
    count_keptBy_filter p.graph.services (·.isLost [handle]) x
  have hleaving := count_keptBy_filter (p.graph.leaving handle) (·.id ∈ p.calls) x
  rw [count_handles, count_handles, hhands, hdue, hfree, hkept, hstrays, hlock, hall, hleaving,
    count_erase_add hmem x, Option.getD_none, List.count_nil]
  omega

theorem drop (h : Accounted p) {handle : Handle} (hfree : p.lock = none)
    (hasks : handle.asksForLock = true) (hmem : handle ∈ p.due) : Accounted (p.drop handle) := by
  have hdroppable := h.droppable hasks hmem
  refine ⟨h.reachable.trans (Audit.steps_dropHandle hdroppable), fun x hx => ?_, fun x hx => ?_,
    fun s hs => ?_⟩
  · have := h.count_drop hfree hasks hmem x
    have := h.single x hx
    omega
  · have hcount := h.count_drop hfree hasks hmem x
    have hsingle := h.single x hx
    change _ ↔ (p.audit.dropHandle handle).Droppable x
    rw [Audit.droppable_dropHandle_iff h.reachable.sound hdroppable hx, ← h.held x hx,
      ← List.count_pos_iff, ← List.count_pos_iff]
    by_cases he : x = handle
    · -- it was in one place, and is in none
      rw [he, List.count_singleton_self] at hcount
      rw [he] at hsingle ⊢
      simp only [ne_eq, not_true_eq_false, and_false, iff_false]
      omega
    · rw [List.count_eq_zero.mpr fun hmem => he (List.mem_singleton.mp hmem)] at hcount
      rw [hcount]
      simp only [ne_eq, he, not_false_eq_true, and_true, Nat.add_zero]
  · rcases List.mem_append.mp hs with hs | hs
    · exact h.called s hs
    · exact of_decide_eq_true (List.mem_filter.mp hs).2

end Accounted

/-- **Whatever anybody does next, every handle stays accounted for.** -/
theorem Step.accounted (h : Step p q) (hp : Accounted p) : Accounted q := by
  have hsound := hp.reachable.sound
  cases h with
  | register name _ =>
    exact hp.grant (.single (.operation (.register _ name))) (Audit.register_gives hsound name)
  | lend logger =>
    refine hp.moved rfl (fun x hasks => ?_) hp.called
    rw [count_handles, count_handles, ← List.singleton_append, List.count_append,
      count_logger hasks, Nat.zero_add]
  | subscribe node topic capacity type callback _ hlive =>
    exact hp.grant
      (.single (.operation (.subscribe _ node topic capacity type callback hlive)))
      (Audit.subscribe_gives hsound node topic capacity type callback)
  | publish node topic type _ hlive =>
    exact hp.grant (.single (.operation (.publish _ node topic type hlive)))
      (Audit.publish_gives hsound node topic type)
  | advertise node service type answer owns rest hrest _ hlive =>
    exact hp.advertise node service type answer hrest hlive
  | send c message hc held _ =>
    exact hp.audited (.single (.operation (.send _ c message hc held)))
      (Audit.posts_give _ rfl)
  | log logger entry _ =>
    exact hp.audited (.single (.operation (.log _ logger entry))) (Audit.posts_give _ rfl)
  | journal journal =>
    exact hp.audited (.single (.operation (.journal _ journal)))
      (Audit.gives_none rfl rfl rfl rfl)
  | turn feed hturn =>
    obtain ⟨hfeed, next, hnext⟩ := hturn
    exact hp.audited (.single (.turn feed (.advance _ hfeed next hnext)))
      (Audit.gives_none rfl (Ledger.handles_turn _ _) rfl rfl)
  | call name s _ _ =>
    exact hp.moved rfl (fun x _ => rfl) fun s' hs' => List.mem_cons_of_mem _ (hp.called s' hs')
  | finish id _ => exact hp.finish id
  | letGo handle hmem => exact hp.letGo hmem
  | forget logger hmem => exact hp.forget hmem
  | drop handle hfree hasks hmem => exact hp.drop hfree hasks hmem
  | forgetWithin logger rest hlock => exact hp.forgetWithin hlock
  | unlock hlock => exact hp.unlock hlock

/-- Nothing is registered yet, and nobody has a handle. -/
theorem accounted_start : Accounted ({} : Premises ε) where
  reachable := .refl
  single := fun x _ => Nat.zero_le 1
  held := by
    intro x hasks
    refine iff_of_false List.not_mem_nil fun hx => ?_
    cases x with
    | node n => exact List.not_mem_nil hx
    | logger l => exact Bool.false_ne_true hasks
    | registration r => exact List.not_mem_nil hx.1
  called := fun s hs => absurd hs List.not_mem_nil

theorem Steps.accounted (h : Steps p q) (hp : Accounted p) : Accounted q := by
  induction h with
  | refl => exact hp
  | tail _ hstep ih => exact hstep.accounted ih

theorem Reachable.accounted (h : Reachable p) : Accounted p := Steps.accounted h accounted_start

end Premises

end NodeGraph
