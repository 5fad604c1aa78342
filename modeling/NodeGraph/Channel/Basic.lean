/-!
# Channels

A channel is a queue with any number of senders on one side. Receiving takes
the oldest item. On an empty queue it matters whether a sender is left: if so
there may be more to come, if not the channel is disconnected.
-/

namespace NodeGraph

/-- A queue of items and the number of senders that may still add to it. -/
structure Channel (α : Type) where
  items : List α := []
  senders : Nat := 1
deriving DecidableEq, Repr

/-- What receiving gives. -/
inductive Received (α : Type) where
  | item (a : α)
  | empty
  | disconnected
deriving DecidableEq, Repr

namespace Channel

variable {α : Type}

/-- How many items wait. -/
def length (c : Channel α) : Nat := c.items.length

/-- Adds an item at the end. -/
def push (c : Channel α) (a : α) : Channel α := { c with items := c.items ++ [a] }

/-- Whether all senders are gone. -/
def isDisconnected (c : Channel α) : Bool := c.senders = 0

/-- Takes the oldest item, whether or not a sender is left. -/
def receive (c : Channel α) : Received α × Channel α :=
  match c.items with
  | a :: rest => (.item a, { c with items := rest })
  | [] => (if c.isDisconnected then .disconnected else .empty, c)

/-- Takes all items in order. -/
def drain (c : Channel α) : List α × Channel α := (c.items, { c with items := [] })

/-- One more sender. -/
def addSender (c : Channel α) : Channel α := { c with senders := c.senders + 1 }

/-- One sender less. -/
def dropSender (c : Channel α) : Channel α := { c with senders := c.senders - 1 }

end Channel

end NodeGraph
