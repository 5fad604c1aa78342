import NodeGraph.Graph.Registry
import NodeGraph.Graph.Traffic
import NodeGraph.Middleware.Basic

/-!
# The graph as a middleware

Nodes on a graph share one process, so no command line names them, and the
capacity of a publisher's queue does not matter: what is sent is queued at the
subscriptions.
-/

namespace NodeGraph.Graph

variable {ε : Type}

instance : Middleware (Graph ε) ε where
  arguments _ := []
  register := register
  logger g node := (⟨node.id, node.name⟩, g)
  log := log
  nodeNames := nodeNames
  dispatch g node service type request := (g.dispatch node service type request, g)
  subscribe := subscribe
  advertise := advertise
  publish g node topic _ type := g.publish node topic type
  send := send
  drop := drop
  feeds := feeds
  withFeeds g feeds := { g with feeds }
  journal := journal
  withJournal g journal := { g with journal }

end NodeGraph.Graph
