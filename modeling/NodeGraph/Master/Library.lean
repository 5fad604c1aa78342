import NodeGraph.Client.Library
import NodeGraph.Master.Registry
import NodeGraph.Master.Traffic

/-!
# A client library that keeps the master to itself

All clients of the library meet at a master that nobody else connects to. What is
sent is queued at the subscriptions, so the capacity of a publisher's queue does
not matter.
-/

namespace NodeGraph.Master

variable {ε : Type}

instance : ClientLibrary (Master ε) ε where
  arguments := arguments
  connect := connect
  close := close
  log := log
  nodeNames := nodeNames
  client := client
  subscribe := subscribe
  service := service
  publish m client topic _ type := m.publish client topic type
  send := send
  withdraw := withdraw
  feeds := feeds
  withFeeds m feeds := { m with feeds }

end NodeGraph.Master
