import NodeGraph.Duration
import NodeGraph.Message.Text
import NodeGraph.Middleware.Basic
import NodeGraph.Name.Options

/-!
# The talker

The talker sends texts, each of which it logs through its node just before. It
can be told what to say, and it can spin: send one greeting after the other,
numbered from zero, until a signal trips. A greeting counts when it has been
sent, so one that could not be sent is tried again by the next spin.

While it spins the talker looks at its signal twice in each round, before the
greeting and while it waits for the next round. `Glimpse` is what it sees, and
`spin` runs along a list of glimpses.
-/

namespace NodeGraph

/-- A node's right to talk, and how many greetings it has sent. -/
structure Talker where
  publisher : Publisher Text
  logger : Logger
  count : Nat := 0

/-- What a spinning talker sees of its signal in one round. -/
structure Glimpse where
  /-- Whether the signal has tripped before the greeting. -/
  before : Bool
  /-- Whether it trips before the next round. -/
  after : Bool
deriving DecidableEq, Repr

/-- What a talker sees of a signal that trips while it logs its `n`-th line. -/
def Glimpse.untilLine : Nat → List Glimpse
  | 0 => [⟨true, true⟩]
  | n + 1 => List.replicate n ⟨false, false⟩ ++ [⟨false, true⟩]

namespace Talker

/-- The name that a talker goes by. -/
def nodeName : String := "talker"

/-- The topic it talks on. -/
def topic : String := "chatter"

/-- How many messages may wait to be sent. -/
def queueSize : Nat := 100

/-- Greetings per second. -/
def defaultRate : Float := 10.0

/-- How a talker's node is registered. -/
def options : NodeOptions := { name := nodeName }

/-- The greeting of a number. -/
def greeting (n : Nat) : String := s!"hello world {n}"

/-- The time from one greeting to the next. -/
def period (rate : Float) : Except Duration.Fault Duration := Duration.ofSeconds (1.0 / rate)

variable {β ε : Type} [Middleware β ε]

/-- Makes a node talk. -/
def advertise (b : β) (node : Node) : Except Error Talker × β :=
  match Middleware.publish b node topic queueSize Text.type with
  | (.error e, b) => (.error e, b)
  | (.ok publisher, b) =>
    let (logger, b) := Middleware.logger b node
    (.ok { publisher, logger }, b)

/-- Logs a text and sends it. -/
def say (b : β) (t : Talker) (data : String) : Except Error Unit × β :=
  Middleware.send (Middleware.log b t.logger (.info data)) t.publisher ⟨data⟩

/-- Sends greetings until the signal is seen to have tripped, and gives how many
have been sent in all, or the error that ended it. Nothing is given if the
glimpses come to an end first: the talker still spins. -/
def spin (b : β) (t : Talker) : List Glimpse → Option (Except Error Nat) × Talker × β
  | [] => (none, t, b)
  | glimpse :: glimpses =>
    if glimpse.before then (some (.ok t.count), t, b)
    else
      match say b t (greeting t.count) with
      | (.error e, b) => (some (.error e), t, b)
      | (.ok (), b) =>
        let t := { t with count := t.count + 1 }
        if glimpse.after then (some (.ok t.count), t, b) else spin b t glimpses

/-- Stops talking. -/
def drop (b : β) (t : Talker) : β :=
  Middleware.drop (Middleware.drop b (.registration t.publisher.registration)) (.logger t.logger)

end Talker

end NodeGraph
