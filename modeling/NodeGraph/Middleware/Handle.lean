import NodeGraph.Message.Type
import NodeGraph.Message.Record

/-!
# Handles

Whoever registers something is given a handle, and dropping the handle takes
the registration back. Handles name what they stand for by a number that is
never given out twice, so a handle that has outlived its node cannot be
mistaken for a later one under the same name.
-/

namespace NodeGraph

/-- A registered node. -/
structure Node where
  id : Nat
  /-- The name it was registered under. -/
  name : String
deriving DecidableEq, Repr

/-- The right to log on behalf of a node. -/
structure Logger where
  node : Nat
  name : String
deriving DecidableEq, Repr

/-- Something that a node has registered. -/
inductive Registration where
  | subscriber (topic : String) (id : Nat)
  | publisher (topic : String) (id : Nat)
  | service (name : String) (id : Nat)
deriving DecidableEq, Repr

/-- The number of a registration. -/
def Registration.id : Registration → Nat
  | .subscriber _ id => id
  | .publisher _ id => id
  | .service _ id => id

/-- The right to send messages of one type on a topic. -/
structure Publisher (α : Type) where
  id : Nat
  /-- The node that sends. -/
  node : Nat
  topic : String
  type : MessageType α

/-- What a publisher has registered. -/
def Publisher.registration {α : Type} (p : Publisher α) : Registration :=
  .publisher p.topic p.id

/-- Anything that can be dropped. -/
inductive Handle where
  | node (node : Node)
  | logger (logger : Logger)
  | registration (registration : Registration)
deriving DecidableEq, Repr

/-- What is to be logged. -/
structure Entry where
  level : Level
  text : String
  site : Site
deriving DecidableEq, Repr

/-- A line of one of the components. -/
def Entry.info (text : String) : Entry := ⟨Level.info, text, Site.component⟩

end NodeGraph
