import NodeGraph.Graph.Registry

/-!
# Dropping and the registry's lock

The registry is guarded by one lock, which is held for the whole of a drop.
What the drop removes goes away while the lock is held. For members of topics
that is of no consequence, but a service takes its handler along, and with the
handler go the handles it owns. Dropping a node or a registration asks for the
lock; asked for by whoever holds it already, it is never granted. Loggers keep
nothing that is registered, and go silently.
-/

namespace NodeGraph

/-- Whether dropping the handle asks for the registry's lock. -/
def Handle.asksForLock : Handle → Bool
  | .node _ => true
  | .logger _ => false
  | .registration _ => true

namespace Graph

variable {ε : Type}

/-- The handlers that go away while a handle is being dropped. -/
def discarded (g : Graph ε) : Handle → List Handler
  | .node node => (g.services.filter (·.node = node.id)).map (·.handler)
  | .registration (.service name id) =>
    (g.services.filter fun s => s.name = name && s.id = id).map (·.handler)
  | _ => []

/-- Whether dropping a handle asks for the lock again while holding it. -/
def asksAgain (g : Graph ε) (handle : Handle) : Bool :=
  (g.discarded handle).any (·.owns.any Handle.asksForLock)

/-- Drops a handle under the lock: the graph afterwards, or nothing if the drop
waits for itself and never comes to an end. -/
def dropLocked? (g : Graph ε) (handle : Handle) : Option (Graph ε) :=
  if g.asksAgain handle then none else some (g.drop handle)

end Graph

end NodeGraph
