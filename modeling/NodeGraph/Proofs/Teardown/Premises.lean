import Mathlib.Logic.Relation
import NodeGraph.Proofs.Registry.Erasure

/-!
# Whose handles are whose while a graph is taken down

Handles are in somebody's hands, or kept by a handler that works for a service. A handler
lives as long as the registry or a call in flight holds on to it; calls take it from the
registry under the lock, and work without the lock. When the last of them lets go, what the
handler kept is dropped there and then. So it depends on who is last:

* a call is last if the service has been withdrawn meanwhile, or a refused service was never
  on offer. What the handler kept is `due`, to be dropped by whoever let go of it, and the lock
  has nothing to do with it.
* the registry is last if no call is in flight. It lets go of the handler while a drop holds
  the lock, and the drop does not let go of the lock before all that the handler kept has been
  dropped as well.

`Premises` are an audited graph with all of this. The lock is free, or held by a drop that has
some handles still to drop. A `Step` is what somebody does next. Nobody else gets to the
registry as long as the lock is held; delivery threads go on, calls come to their ends, and
handles change hands. A drop that has to drop a handle which asks for the lock has no step to
take, because it is the one that holds the lock.

`Reachable` premises are those that any number of steps in any order make out of an empty
graph that nobody has a handle for.
-/

namespace NodeGraph

variable {ε : Type}

/-- The services that go with a handle. -/
def Graph.leaving (g : Graph ε) (handle : Handle) : List Service :=
  g.services.filter (·.isLost [handle])

/-- A graph, and who holds on to what. -/
structure Premises (ε : Type) where
  audit : Audit ε := {}
  /-- The handles in somebody's hands. -/
  hands : List Handle := []
  /-- The handles that somebody has let go of and has to drop next. -/
  due : List Handle := []
  /-- The numbers of the services whose handlers calls hold on to, once for each call. -/
  calls : List Nat := []
  /-- The services that were withdrawn while calls held on to their handlers. -/
  strays : List Service := []
  /-- What the drop that holds the lock has still to drop, if there is one. -/
  lock : Option (List Handle) := none

namespace Premises

/-- The graph itself. -/
abbrev graph (p : Premises ε) : Graph ε := p.audit.graph

/-- The handles that handlers keep, of services on offer and of those that calls still hold
on to. -/
def kept (p : Premises ε) : List Handle := (p.graph.services ++ p.strays).flatMap (·.handler.owns)

/-- All handles that there are. -/
def handles (p : Premises ε) : List Handle := p.hands ++ p.due ++ p.lock.getD [] ++ p.kept

/-! ## What can be done -/

/-- Puts a handle into somebody's hands, if there is one. -/
def grant (p : Premises ε) (audit : Audit ε) (given : Option Handle) : Premises ε :=
  { p with audit, hands := given.toList ++ p.hands }

/-- Registers a node. -/
def register (p : Premises ε) (name : String) : Premises ε :=
  p.grant (p.audit.register name) ((p.graph.register name).1.toOption.map .node)

/-- Subscribes a node to a topic. -/
def subscribe {α : Type} (p : Premises ε) (node : Node) (topic : String) (capacity : Nat)
    (type : MessageType α) (callback : α → ε) : Premises ε :=
  p.grant (p.audit.subscribe node topic capacity type callback)
    ((p.graph.addSubscriber node topic capacity type callback).1.toOption.map .registration)

/-- Makes a node a publisher on a topic. -/
def publish {α : Type} (p : Premises ε) (node : Node) (topic : String) (type : MessageType α) :
    Premises ε :=
  p.grant (p.audit.publish node topic type)
    ((p.graph.publish node topic type).1.toOption.map (.registration ·.registration))

/-- Offers a service, whose handler takes the handles it owns out of the hands that held them
and leaves `rest`. A handler that is refused goes, and what it owns has to be dropped. -/
def advertise {ρ σ : Type} (p : Premises ε) (node : Node) (service : String)
    (type : ServiceType ρ σ) (answer : ρ → Act (Except String σ)) (owns rest : List Handle) :
    Premises ε :=
  match (p.graph.addService node service type answer owns).1 with
  | .ok registration =>
    { p with
      audit := p.audit.advertise node service type answer owns
      hands := .registration registration :: rest }
  | .error _ =>
    { p with
      audit := p.audit.advertise node service type answer owns
      hands := rest
      due := owns ++ p.due }

/-- A call comes to its end. If it was the last to hold on to a handler, what the handler kept
has to be dropped. -/
def finish (p : Premises ε) (id : Nat) : Premises ε :=
  if id ∈ p.calls.erase id then { p with calls := p.calls.erase id }
  else
    { p with
      calls := p.calls.erase id
      strays := p.strays.filter (·.id ≠ id)
      due := (p.strays.filter (·.id = id)).flatMap (·.handler.owns) ++ p.due }

/-- Lets go of a handle, which has to be dropped then. -/
def letGo (p : Premises ε) (handle : Handle) : Premises ε :=
  { p with hands := p.hands.erase handle, due := handle :: p.due }

/-- Takes the lock and drops a handle. Of the handlers that go with it, calls may still hold on
to some; what the others kept has to be dropped under the lock. -/
def drop (p : Premises ε) (handle : Handle) : Premises ε :=
  { p with
    audit := p.audit.dropHandle handle
    due := p.due.erase handle
    strays := p.strays ++ (p.graph.leaving handle).filter (·.id ∈ p.calls)
    lock := some (((p.graph.leaving handle).filter (·.id ∉ p.calls)).flatMap (·.handler.owns)) }

/-! ## Steps -/

/-- Something that somebody does. -/
inductive Step (p : Premises ε) : Premises ε → Prop where
  | register (name : String) (free : p.lock = none) : Step p (p.register name)
  | lend (logger : Logger) : Step p { p with hands := .logger logger :: p.hands }
  | subscribe {α : Type} (node : Node) (topic : String) (capacity : Nat) (type : MessageType α)
    (callback : α → ε) (free : p.lock = none) (h : node ∈ p.audit.ledger.live) :
    Step p (p.subscribe node topic capacity type callback)
  | publish {α : Type} (node : Node) (topic : String) (type : MessageType α)
    (free : p.lock = none) (h : node ∈ p.audit.ledger.live) : Step p (p.publish node topic type)
  | advertise {ρ σ : Type} (node : Node) (service : String) (type : ServiceType ρ σ)
    (answer : ρ → Act (Except String σ)) (owns rest : List Handle)
    (hrest : p.hands.Perm (owns ++ rest)) (free : p.lock = none)
    (h : node ∈ p.audit.ledger.live) : Step p (p.advertise node service type answer owns rest)
  | send (c : Grant Outlet) (message : c.item.α) (h : c ∈ p.audit.ledger.publications)
    (held : c.id ∉ p.audit.ledger.dropped) (free : p.lock = none) :
    Step p { p with audit := p.audit.send c.item.publisher message }
  | log (logger : Logger) (entry : Entry) (free : p.lock = none) :
    Step p { p with audit := p.audit.log logger entry }
  | journal (journal : List Line) :
    Step p { p with audit := ⟨{ p.graph with journal }, p.audit.ledger⟩ }
  | turn (feed : Feed ε) {a : Audit ε} (h : Audit.Turn feed p.audit a) :
    Step p { p with audit := a }
  /-- A call finds its provider, and holds on to the handler while it works. -/
  | call (name : String) (s : Service) (free : p.lock = none)
    (h : p.graph.service? name = some s) : Step p { p with calls := s.id :: p.calls }
  | finish (id : Nat) (h : id ∈ p.calls) : Step p (p.finish id)
  | letGo (handle : Handle) (h : handle ∈ p.hands) : Step p (p.letGo handle)
  /-- Loggers have nothing to take back. -/
  | forget (logger : Logger) (h : .logger logger ∈ p.due) :
    Step p { p with due := p.due.erase (.logger logger) }
  | drop (handle : Handle) (free : p.lock = none) (asks : handle.asksForLock = true)
    (h : handle ∈ p.due) : Step p (p.drop handle)
  /-- Under the lock, only what does not ask for it can be dropped. -/
  | forgetWithin (logger : Logger) (rest : List Handle)
    (h : p.lock = some (.logger logger :: rest)) : Step p { p with lock := some rest }
  | unlock (h : p.lock = some []) : Step p { p with lock := none }

/-- Any number of steps, one after the other. -/
abbrev Steps : Premises ε → Premises ε → Prop := Relation.ReflTransGen Step

/-- What steps make out of a graph that nobody has anything to do with. -/
def Reachable (p : Premises ε) : Prop := Steps {} p

/-- The drop that holds the lock asks for it. -/
def AsksAgain (p : Premises ε) : Prop :=
  ∃ handle rest, p.lock = some (handle :: rest) ∧ handle.asksForLock = true

end Premises

end NodeGraph
