import Mathlib.Data.List.Perm.Basic
import Mathlib.Logic.Function.Basic
import NodeGraph.Client.Shared

/-!
# Clients that last

Of a client library nodes see only what it gives them. What becomes of a client is seen from
outside: under which name it is registered, what has been published for it, and which handles
are kept by the callbacks and handlers that it was given. An `Outlook` on a library is a view of
these three.

A library is `Lasting` in some outlook if clients are registered from their connection until
they are closed, have their log entries published as long as they are registered, and if nothing
else that is asked of the library changes any of that. Callbacks and handlers stay with their
registrations, and when one is withdrawn the library says which clients were let go of.

> `Tended`: clients are registered exactly as long as somebody owns them, where nodes, loggers
> and what is kept are counted.
>
> `Tended.letGo`: whoever lets go is one owner less, and the last one makes the client go.
-/

namespace NodeGraph

/-- An entry that has been logged under a name. -/
structure Report where
  name : String
  entry : Entry
deriving DecidableEq, Repr

/-- The node whose client a handle holds on to. -/
def Handle.owner? : Handle → Option Node
  | .node n => some n
  | .logger l => some ⟨l.node, l.name⟩
  | .registration _ => none

/-- The owners among some handles. -/
def owners (handles : List Handle) : List Node := handles.filterMap Handle.owner?

@[simp] theorem owners_append (handles handles' : List Handle) :
    owners (handles ++ handles') = owners handles ++ owners handles' :=
  List.filterMap_append

theorem owners_perm {handles handles' : List Handle} (h : handles.Perm handles') :
    (owners handles).Perm (owners handles') := h.filterMap _

theorem mem_owners {handles : List Handle} {node : Node} :
    node ∈ owners handles ↔ ∃ handle ∈ handles, handle.owner? = some node := List.mem_filterMap

/-! ## What is seen from outside -/

/-- A view of a client library from outside. -/
structure Outlook (β : Type) where
  /-- The name under which a client is registered. -/
  registered? : β → Nat → Option String
  /-- What has been published for those who watch, in order. -/
  published : β → List Report
  /-- The handles that callbacks and handlers keep. -/
  kept : β → List Handle

namespace Outlook

variable {β ε : Type}

/-- There is no difference to be seen. -/
structure Same (view : Outlook β) (b b' : β) : Prop where
  registered : view.registered? b' = view.registered? b
  published : view.published b' = view.published b
  kept : view.kept b' = view.kept b

theorem Same.refl (view : Outlook β) (b : β) : view.Same b b := ⟨rfl, rfl, rfl⟩

theorem Same.trans {view : Outlook β} {b b' b'' : β} (h : view.Same b b')
    (h' : view.Same b' b'') : view.Same b b'' :=
  ⟨h'.registered.trans h.registered, h'.published.trans h.published, h'.kept.trans h.kept⟩

/-- The only difference is what one client is registered under. -/
structure Turns (view : Outlook β) (b : β) (client : Nat) (name? : Option String) (b' : β) :
    Prop where
  registered : view.registered? b' = Function.update (view.registered? b) client name?
  published : view.published b' = view.published b
  kept : view.kept b' = view.kept b

/-- The only difference is what callbacks and handlers keep, if anything was granted. -/
structure Takes {τ : Type} (view : Outlook β) (b : β) (owns : List Handle)
    (r : Except ClientFault τ × β) : Prop where
  granted : r.1.isOk → view.registered? r.2 = view.registered? b ∧
    view.published r.2 = view.published b ∧ (view.kept r.2).Perm (owns ++ view.kept b)
  refused : r.1.isOk = false → view.Same b r.2

/-- What a client says is published under its name. Nobody else is heard. -/
def heard (view : Outlook β) (b : β) (client : Nat) (entry : Entry) : List Report :=
  ((view.registered? b client).map (⟨·, entry⟩)).toList

variable [ClientLibrary β ε]

/-- **Clients last until they are closed,** and everything else stays as it is. -/
structure Lasting (view : Outlook β) : Prop where
  /-- Whoever has connected is registered. -/
  connected : ∀ b client name full b', view.registered? b client = none →
    ClientLibrary.connect b client name = (.ok full, b') → view.Turns b client (some full) b'
  unconnected : ∀ b client name fault b',
    ClientLibrary.connect b client name = (.error fault, b') → view.Same b b'
  /-- Whoever is closed is registered no more. -/
  closed : ∀ b client, view.Turns b client none (ClientLibrary.close b client)
  /-- Whoever is registered is heard. -/
  logged : ∀ b client entry,
    view.published (ClientLibrary.log b client entry) =
        view.published b ++ view.heard b client entry ∧
      view.registered? (ClientLibrary.log b client entry) = view.registered? b ∧
      view.kept (ClientLibrary.log b client entry) = view.kept b
  asked : ∀ {ρ σ : Type} b client service (type : ServiceType ρ σ),
    view.Same b (ClientLibrary.client b client service type).2
  requested : ∀ {ρ σ : Type} b client service (type : ServiceType ρ σ) requests b',
    ClientLibrary.client b client service type = (.ok requests, b') →
    ∀ request b'', view.Same b'' (requests request b'').2
  published : ∀ {α : Type} b client topic capacity (type : MessageType α),
    view.Same b (ClientLibrary.publish b client topic capacity type).2
  sent : ∀ {α : Type} b (p : Publisher α) message, view.Same b (ClientLibrary.send b p message).2
  subscribed : ∀ {α : Type} b client topic capacity (type : MessageType α) receive owns,
    view.Takes b owns (ClientLibrary.subscribe b client topic capacity type receive owns)
  offered : ∀ {ρ σ : Type} b client service (type : ServiceType ρ σ) answer owns,
    view.Takes b owns (ClientLibrary.service b client service type answer owns)
  /-- What a registration kept goes with it, and the library tells. -/
  withdrawn : ∀ b registration, ∃ gone,
    (view.kept b).Perm (gone ++ view.kept (ClientLibrary.withdraw b registration).2) ∧
    (ClientLibrary.withdraw b registration).1.Perm ((owners gone).map (·.id)) ∧
    view.registered? (ClientLibrary.withdraw b registration).2 = view.registered? b ∧
    view.published (ClientLibrary.withdraw b registration).2 = view.published b

end Outlook

/-! ## Owners and their clients -/

variable {β ε : Type} [ClientLibrary β ε]

/-- Looking somebody up is done by the library. -/
theorem Shared.snd_dispatch {ρ σ : Type} (s : Shared β) (caller : Node) (service : String)
    (type : ServiceType ρ σ) (request : ρ) :
    (s.dispatch caller service type request).2 =
      { s with library := (s.dispatch caller service type request).2.library } := by
  unfold Shared.dispatch
  split
  · rfl
  · split <;> rfl

/-- It makes no difference to be seen. -/
theorem Shared.same_dispatch {ρ σ : Type} {view : Outlook β} (hlasting : view.Lasting)
    (s : Shared β) (caller : Node) (service : String) (type : ServiceType ρ σ) (request : ρ) :
    view.Same s.library (s.dispatch caller service type request).2.library := by
  have hasked := hlasting.asked s.library caller.id service type
  unfold Shared.dispatch
  cases hclient : ClientLibrary.client s.library caller.id service type with
  | mk result library =>
    rw [hclient] at hasked
    cases result with
    | error fault => exact hasked
    | ok requests =>
      have hrequested := hasked.trans
        (hlasting.requested _ _ _ _ requests library hclient request library)
      dsimp only
      cases hrequest : requests request library with
      | mk result library' =>
        rw [hrequest] at hrequested
        cases result with
        | error fault => exact hrequested
        | ok act => exact hrequested

/-- Clients have owners, and are registered exactly as long as they have any. -/
structure Tended (view : Outlook β) (s : Shared β) (nodes : List Node) : Prop where
  /-- Holders are counted by the numbers of the clients. -/
  holds : s.holds.Perm (nodes.map (·.id))
  registered : ∀ node, view.registered? s.library node.id = some node.name ↔ node ∈ nodes
  bound : ∀ node ∈ nodes, node.id ≤ s.lastId

namespace Tended

variable {view : Outlook β} {s s' : Shared β} {nodes nodes' : List Node} {node other : Node}

theorem perm (h : Tended view s nodes) (hperm : nodes.Perm nodes') : Tended view s nodes' where
  holds := h.holds.trans (hperm.map _)
  registered node := (h.registered node).trans hperm.mem_iff
  bound node hnode := h.bound node (hperm.mem_iff.mpr hnode)

/-- The journal and the queues are of no concern. -/
theorem of_registered (h : Tended view s nodes)
    (hregistered : view.registered? s'.library = view.registered? s.library)
    (hholds : s'.holds = s.holds) (hlast : s'.lastId = s.lastId) : Tended view s' nodes where
  holds := hholds ▸ h.holds
  registered node := hregistered ▸ h.registered node
  bound node hnode := hlast ▸ h.bound node hnode

/-- Owners of the same client know it by the same name. -/
theorem eq_of_id (h : Tended view s nodes) (hnode : node ∈ nodes) (hother : other ∈ nodes)
    (hid : node.id = other.id) : node = other := by
  have hname := (h.registered node).mpr hnode
  rw [hid, (h.registered other).mpr hother] at hname
  obtain ⟨id, name⟩ := node
  obtain ⟨id', name'⟩ := other
  exact congr (congrArg Node.mk hid) (Option.some.inj hname).symm

theorem registered_eq_none_iff (h : Tended view s nodes) (id : Nat) :
    view.registered? s.library id = none ↔ ∀ node ∈ nodes, node.id ≠ id := by
  constructor
  · intro hnone node hnode hid
    have hname := (h.registered node).mpr hnode
    rw [hid, hnone] at hname
    cases hname
  · intro hnobody
    cases hname : view.registered? s.library id with
    | none => rfl
    | some name => exact absurd rfl (hnobody ⟨id, name⟩ ((h.registered ⟨id, name⟩).mp hname))

/-- One owner more, of a client that has one. -/
theorem hold (h : Tended view s nodes) (hnode : node ∈ nodes) :
    Tended view (s.hold node.id) (node :: nodes) where
  holds := h.holds.cons _
  registered other := by
    refine (h.registered other).trans ⟨List.mem_cons_of_mem _, fun hother => ?_⟩
    rcases List.mem_cons.mp hother with rfl | hother
    · exact hnode
    · exact hother
  bound other hother := by
    rcases List.mem_cons.mp hother with rfl | hother
    · exact h.bound other hnode
    · exact h.bound other hother

/-- A client that has come is owned by its node alone. -/
theorem enter {full : String} {library : β} {journal : List Line} (h : Tended view s nodes)
    (hturns : view.Turns s.library (s.lastId + 1) (some full) library) :
    Tended view ⟨library, s.lastId + 1, (s.lastId + 1) :: s.holds, journal⟩
      (⟨s.lastId + 1, full⟩ :: nodes) where
  holds := h.holds.cons _
  registered := by
    intro node
    show view.registered? library node.id = some node.name ↔ _
    rw [hturns.registered, List.mem_cons]
    by_cases hid : node.id = s.lastId + 1
    · -- nobody else has that number
      have hnew : node ∉ nodes := fun hnode => by
        have := h.bound node hnode
        omega
      rw [hid, Function.update_self, or_iff_left hnew]
      obtain ⟨id, name⟩ := node
      obtain rfl : id = s.lastId + 1 := hid
      simp only [Option.some.injEq, Node.mk.injEq, true_and, eq_comm]
    · rw [Function.update_of_ne hid, h.registered node]
      refine (or_iff_right fun heq => hid ?_).symm
      rw [heq]
  bound node hnode := by
    rcases List.mem_cons.mp hnode with rfl | hnode
    · exact Nat.le_refl _
    · exact Nat.le_succ_of_le (h.bound node hnode)

/-- **Whoever lets go is one owner less,** and the last one makes the client go. -/
theorem letGo (hlasting : view.Lasting) (h : Tended view s (node :: nodes)) :
    Tended view (s.letGo node.id) nodes where
  holds := by
    have herase := h.holds.erase node.id
    rwa [List.map_cons, List.erase_cons_head] at herase
  registered := by
    intro other
    have hold := h.registered other
    have hcount : s.holds.count node.id = (nodes.map (·.id)).count node.id + 1 := by
      rw [h.holds.count_eq, List.map_cons, List.count_cons_self]
    show view.registered? (if s.holds.count node.id = 1 then _ else s.library) other.id = _ ↔ _
    by_cases hlast : s.holds.count node.id = 1
    · rw [if_pos hlast, (hlasting.closed s.library node.id).registered]
      have hnobody : ∀ n ∈ nodes, n.id ≠ node.id := by
        have hnone : node.id ∉ nodes.map (·.id) := List.count_eq_zero.mp (by omega)
        exact fun n hn hid => hnone (hid ▸ List.mem_map_of_mem hn)
      by_cases hid : other.id = node.id
      · rw [hid, Function.update_self]
        exact iff_of_false (fun hname => nomatch hname) fun hmem => hnobody other hmem hid
      · rw [Function.update_of_ne hid, hold, List.mem_cons]
        exact or_iff_right fun heq => hid (heq ▸ rfl)
    · rw [if_neg hlast, hold, List.mem_cons]
      refine or_iff_right_of_imp fun heq => ?_
      -- somebody else is there to own it
      have hsome : node.id ∈ nodes.map (·.id) := List.count_pos_iff.mp (by omega)
      obtain ⟨n, hn, hid⟩ := List.mem_map.mp hsome
      have hsame := h.eq_of_id (List.mem_cons_of_mem _ hn) List.mem_cons_self hid
      rw [heq, ← hsame]
      exact hn
  bound other hother := h.bound other (List.mem_cons_of_mem _ hother)

end Tended

end NodeGraph
