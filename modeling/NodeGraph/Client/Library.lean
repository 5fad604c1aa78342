import NodeGraph.Error
import NodeGraph.Middleware.Feed
import NodeGraph.Middleware.Handler

/-!
# Client libraries

Nodes that are registered with a master reach it through a client library. What
such a library does is its own affair. This file says what nodes ask of it, and
everything that is built on it is built for any of them.

A client is one connection to the master. It goes by the number that it is given
when it connects, and lasts until it is closed.
-/

namespace NodeGraph

/-- What a client for a service does with a request: it finds out who answers it
and how, or why nobody does. Once that has been carried out there is a response, or
the text of the provider's refusal, or something went wrong in between. -/
abbrev Requests (β ρ σ : Type) :=
  ρ → β → Except ClientFault (Act (Except ClientFault (Except String σ))) × β

/-- A client library with state `β`, whose subscribers turn messages into `ε`. -/
class ClientLibrary (β : Type) (ε : outParam Type) where
  /-- The command line that clients are named by. -/
  arguments : β → List String
  /-- Connects a client of that number under a name, and gives its full name. -/
  connect : β → Nat → String → Except ClientFault String × β
  /-- Ends the connection of a client. -/
  close : β → Nat → β
  /-- Logs an entry for a client. -/
  log : β → Nat → Entry → β
  /-- The names of all registered nodes in ascending order. -/
  nodeNames : β → List String
  /-- A client's way to a service. -/
  client {ρ σ : Type} : β → Nat → String → ServiceType ρ σ →
    Except ClientFault (Requests β ρ σ) × β
  /-- Subscribes to a topic with a queue of the given capacity. -/
  subscribe {α : Type} : β → Nat → String → Nat → MessageType α → (α → ε) → (owns : List Handle) →
    Except ClientFault Registration × β
  /-- Offers a service. -/
  service {ρ σ : Type} : β → Nat → String → ServiceType ρ σ → (ρ → Act (Except String σ)) →
    (owns : List Handle) → Except ClientFault Registration × β
  /-- Announces messages on a topic. -/
  publish {α : Type} : β → Nat → String → Nat → MessageType α →
    Except ClientFault (Publisher α) × β
  /-- Sends a message. -/
  send {α : Type} : β → Publisher α → α → Except ClientFault Unit × β
  /-- Takes a registration back, and lets go of callbacks and handlers. The numbers are
  those of the clients that they held on to, once for each handle. -/
  withdraw : β → Registration → List Nat × β
  /-- The feeds of all subscriptions. -/
  feeds : β → Feeds ε
  /-- The state with other feeds. -/
  withFeeds : β → Feeds ε → β

end NodeGraph
