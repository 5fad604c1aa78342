import NodeGraph.Arguments

/-!
# What a node is to be called

A node asks for a name by its options. A `__name:=` argument overrides it; an
anonymous node gets a suffix of its own otherwise, made of the process and a
stamp. Stamps follow the clock in milliseconds, but each is larger than all
given out before, so that two anonymous names of a process never agree even if
the clock stands still or goes back.
-/

namespace NodeGraph

/-- Gives out stamps. -/
structure Stamper where
  /-- The process that the names belong to. -/
  pid : Nat
  /-- The last stamp given out. -/
  last : Nat := 0
deriving DecidableEq, Repr

namespace Stamper

/-- The stamp after `last` when the clock shows `now`. -/
def following (last now : Nat) : Nat := max (last + 1) now

/-- Stores the next stamp in one atomic step, and gives back the one stored
before. -/
def advance (s : Stamper) (now : Nat) : Nat × Stamper :=
  (s.last, { s with last := following s.last now })

/-- The suffix that makes a name anonymous. -/
def suffix (pid stamp : Nat) : String := s!"_{pid}_{stamp}"

/-- An anonymous name for `base`: the stamp is worked out again from the one
that `advance` found stored. -/
def anonymous (s : Stamper) (now : Nat) (base : String) : String × Stamper :=
  let (previous, s) := s.advance now
  (base ++ suffix s.pid (following previous now), s)

end Stamper

/-- How a node wants to be registered. -/
structure NodeOptions where
  /-- The name to go by. -/
  name : String
  /-- Whether the name gets a unique suffix. -/
  isAnonymous : Bool := false
  /-- Whether debug lines are wanted. -/
  isVerbose : Bool := false
deriving DecidableEq, Repr

namespace NodeOptions

/-- Asks for a unique suffix. -/
def anonymous (o : NodeOptions) : NodeOptions := { o with isAnonymous := true }

/-- Asks for debug lines. -/
def verbose (o : NodeOptions) : NodeOptions := { o with isVerbose := true }

/-- The name to register, for a program started with `arguments`. A stamp is
used up only if the name is made anonymous. -/
def resolveName (o : NodeOptions) (arguments : List String) (s : Stamper) (now : Nat) :
    String × Stamper :=
  match Arguments.valueOf? arguments "__name:=" with
  | some name => (name, s)
  | none => if o.isAnonymous then s.anonymous now o.name else (o.name, s)

end NodeOptions

end NodeGraph
