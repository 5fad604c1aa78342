import NodeGraph.Message.Text
import NodeGraph.Middleware.Basic
import NodeGraph.Name.Options

/-!
# The listener

The listener subscribes to the talker's topic. Each text that arrives is put
into its inbox, and the inbox is worked off while the listener spins: one line
through its node for each text, in order.
-/

namespace NodeGraph

/-- What a subscriber makes of a message: some value of its own, or a text for
a listener's inbox. -/
inductive Arrival (μ : Type) where
  | value (m : μ)
  | chatter (text : Text)

/-- A node's subscription to what is being said. -/
structure Listener where
  /-- The name of the node. -/
  name : String
  logger : Logger
  subscription : Registration
deriving DecidableEq, Repr

namespace Listener

/-- The name that listeners go by. -/
def nodeName : String := "listener"

/-- The topic they listen to. -/
def topic : String := "chatter"

/-- How many messages may wait before they reach the inbox. -/
def queueSize : Nat := 100

/-- How a listener's node is registered: any number of them can run side by
side. -/
def options : NodeOptions := ({ name := nodeName } : NodeOptions).anonymous.verbose

/-- The line for a text. -/
def heard (name data : String) : String := s!"{name}: I heard {data}"

/-- The number of a listener is that of its subscription. -/
def id (l : Listener) : Nat := l.subscription.id

variable {β μ : Type} [Middleware β (Arrival μ)]

/-- Makes a node listen. -/
def subscribe (b : β) (node : Node) : Except Error Listener × β :=
  match Middleware.subscribe b node topic queueSize Text.type .chatter [] with
  | (.error e, b) => (.error e, b)
  | (.ok subscription, b) =>
    let (logger, b) := Middleware.logger b node
    (.ok ⟨node.name, logger, subscription⟩, b)

/-- Logs that a text has been heard. -/
def hear (b : β) (l : Listener) (text : Text) : β :=
  Middleware.log b l.logger (.info (heard l.name text.data))

/-- Stops listening. -/
def drop (b : β) (l : Listener) : β :=
  Middleware.drop (Middleware.drop b (.logger l.logger)) (.registration l.subscription)

end Listener

end NodeGraph
