import NodeGraph.Channel.Basic

/-!
# Lossy channels

A lossy channel keeps the newest items: a sender never waits, and when the
queue is longer than its capacity the oldest items go. Capacity zero stands for
no limit.

The sender works on the queue in atomic steps, with which the receiving side
may interleave its own: it pushes the item, then measures the queue and, when
it is overfull, evicts one item and measures again. `Phase.step` is one such
step after the push; `send` is a push followed by all steps at once.
-/

namespace NodeGraph

/-- A channel whose sender evicts what exceeds the capacity. -/
structure Lossy (α : Type) where
  channel : Channel α := {}
  capacity : Nat
deriving DecidableEq, Repr

namespace Lossy

variable {α : Type}

/-- The items that wait, the oldest first. -/
def items (q : Lossy α) : List α := q.channel.items

/-- How many items wait. -/
def length (q : Lossy α) : Nat := q.channel.length

/-- Adds an item without regard to the capacity. -/
def push (q : Lossy α) (a : α) : Lossy α := { q with channel := q.channel.push a }

/-- Whether there is a capacity and the queue exceeds it. -/
def isOverfull (q : Lossy α) : Bool := q.capacity ≠ 0 && q.capacity < q.length

/-- Takes the oldest item. -/
def receive (q : Lossy α) : Received α × Lossy α :=
  let (r, c) := q.channel.receive
  (r, { q with channel := c })

/-- Takes all items. -/
def drain (q : Lossy α) : List α × Lossy α :=
  let (items, c) := q.channel.drain
  (items, { q with channel := c })

/-- One more sender. -/
def addSender (q : Lossy α) : Lossy α := { q with channel := q.channel.addSender }

/-- One sender less. -/
def dropSender (q : Lossy α) : Lossy α := { q with channel := q.channel.dropSender }

/-- Where a sender stands between two of its steps. -/
inductive Phase where
  /-- Not sending. -/
  | resting
  /-- About to measure the queue. -/
  | measuring
  /-- About to evict an item, having found the queue overfull. -/
  | evicting
deriving DecidableEq, Repr

/-- The sender's next step. An eviction that finds the queue empty ends the
sending; one that finds an item takes it, though the queue may have become
shorter since it was measured. -/
def Phase.step (q : Lossy α) : Phase → Phase × Lossy α
  | .resting => (.resting, q)
  | .measuring => (if q.isOverfull then .evicting else .resting, q)
  | .evicting =>
    match q.receive with
    | (.item _, q) => (.measuring, q)
    | (_, q) => (.resting, q)

/-- Evicts the oldest items until the rest fits the capacity. -/
def trim (capacity : Nat) : List α → List α
  | [] => []
  | a :: rest => if capacity < (a :: rest).length then trim capacity rest else a :: rest

/-- Sends an item with nobody else at the queue. -/
def send (q : Lossy α) (a : α) : Lossy α :=
  let q := q.push a
  if q.capacity = 0 then q
  else { q with channel := { q.channel with items := trim q.capacity q.channel.items } }

end Lossy

end NodeGraph
