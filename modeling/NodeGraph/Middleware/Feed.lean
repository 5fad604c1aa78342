import NodeGraph.Channel.Lossy
import NodeGraph.Wire.Codec

/-!
# Feeds

Each subscription has a feed: a lossy queue of payloads and a thread of its own
that takes them off one at a time and hands what it reads from them to the
subscriber. What the subscriber makes of a message is a value of type `ε`.

The thread takes atomic steps. `take?` removes the oldest payload from the
queue; from then on the feed holds it, and newer ones cannot push it out. What
becomes of a held payload is its `outcome?`: a value to hand over, or a fault
to report. `finish` is done with it. A feed ends when its subscription is gone
and everything that was queued has been dealt with; until then an unsubscribed
feed goes on with what it has.
-/

namespace NodeGraph

open Wire (Bytes)

/-- The queue and the delivery thread of a subscription. -/
structure Feed (ε : Type) where
  /-- The number of the subscription. -/
  id : Nat
  topic : String
  queue : Lossy Bytes
  /-- What the subscriber makes of a payload. -/
  receive : Bytes → Except Wire.Fault ε
  /-- The payload that the thread has taken and not yet dealt with. -/
  held : Option Bytes := none
  /-- Whether the thread has come to its end. -/
  ended : Bool := false

namespace Feed

variable {ε : Type}

/-- The payloads that wait. -/
def pending (f : Feed ε) : List Bytes := f.queue.items

/-- Adds a payload; older ones go if the queue is full. -/
def push (f : Feed ε) (payload : Bytes) : Feed ε := { f with queue := f.queue.send payload }

/-- Nothing will be added any more. -/
def close (f : Feed ε) : Feed ε := { f with queue := f.queue.dropSender }

/-- Takes the oldest payload, unless one is held. -/
def take? (f : Feed ε) : Option (Feed ε) :=
  match f.held with
  | some _ => none
  | none =>
    match f.queue.receive with
    | (.item payload, queue) => some { f with queue, held := some payload }
    | _ => none

/-- What becomes of the held payload. -/
def outcome? (f : Feed ε) : Option (Except Wire.Fault ε) := f.held.map f.receive

/-- Is done with the held payload. -/
def finish (f : Feed ε) : Feed ε := { f with held := none }

/-- Whether the thread has nothing left to do, now or later. -/
def isSpent (f : Feed ε) : Bool :=
  f.held.isNone && f.pending.isEmpty && f.queue.channel.isDisconnected

end Feed

/-- All feeds of a middleware, in the order of their numbers. -/
abbrev Feeds (ε : Type) := List (Feed ε)

namespace Feeds

variable {ε : Type}

/-- Changes the feed of a subscription. -/
def modify (fs : Feeds ε) (id : Nat) (change : Feed ε → Feed ε) : Feeds ε :=
  fs.map fun f => if f.id = id then change f else f

/-- Adds a payload to the feeds of some subscriptions. -/
def push (fs : Feeds ε) (ids : List Nat) (payload : Bytes) : Feeds ε :=
  fs.map fun f => if f.id ∈ ids then f.push payload else f

/-- Closes the feeds of some subscriptions. -/
def close (fs : Feeds ε) (ids : List Nat) : Feeds ε :=
  fs.map fun f => if f.id ∈ ids then f.close else f

end Feeds

end NodeGraph
