import NodeGraph.Journal

/-!
# Kill signals

A signal is tripped once and stays tripped. Killers trip it, and any number of
receivers look at it or wait for it. It trips when a killer says so and also
when the last killer is dropped, for then nobody could trip it any more. A
killer may be put in charge of the interrupt key; the process has room for one
such handler, keeps it for good, and the handler holds a killer of its own.

`Signal.step` carries out one action at a time. A wait that blocks is numbered,
and the answer to the action that trips the signal names all waits that return
by it.
-/

namespace NodeGraph

/-- A signal with everyone who holds a part of it. -/
structure Signal where
  /-- No killer has tripped it yet. -/
  armed : Bool := true
  /-- For each killer ever made, whether it is still held. -/
  killers : List Bool := [true]
  /-- Whether the interrupt handler is installed, holding a killer. -/
  handled : Bool := false
  /-- How many receivers there are. -/
  receivers : Nat := 1
  /-- For each wait ever begun, whether it still blocks. -/
  waits : List Bool := []
deriving DecidableEq, Repr

namespace Signal

/-- Whether somebody could still trip it. -/
def isHeld (s : Signal) : Bool := s.killers.any id || s.handled

/-- Whether it has tripped. -/
def isTripped (s : Signal) : Bool := !s.armed || !s.isHeld

/-- Trips it through a killer. Only the first killing of all counts. -/
def kill (s : Signal) : Bool × Signal := (s.armed, { s with armed := false })

/-- One more killer. -/
def cloneKiller (s : Signal) : Signal := { s with killers := s.killers ++ [true] }

/-- Drops a killer. -/
def dropKiller (s : Signal) (k : Nat) : Signal := { s with killers := s.killers.set k false }

/-- The numbers of the waits that block. -/
def blocked (s : Signal) : List Nat :=
  (List.range s.waits.length).filter fun i => s.waits.getD i false

/-- Lets the waits that blocked return. -/
def release (s : Signal) : Signal := { s with waits := s.waits.map fun _ => false }

/-- What can be done with a signal. -/
inductive Action where
  | kill
  | cloneKiller
  | dropKiller (k : Nat)
  | cloneReceiver
  | isKilled
  /-- Wait for a limited time, in which nothing else happens. -/
  | waitFor
  /-- Wait without a limit. -/
  | wait
  /-- Put a killer in charge of the interrupt key. -/
  | handleInterrupt
  /-- The interrupt key. -/
  | interrupt
deriving DecidableEq, Repr

/-- What an action gives. -/
inductive Answer where
  | flag (value : Bool)
  | index (value : Nat)
  | done
  /-- The process has a handler already. -/
  | refused
deriving DecidableEq, Repr

/-- The wording of a refused handler. -/
def refusal : String := "Ctrl-C error: Ctrl-C signal handler already registered"

/-- What the interrupt handler says when the signal has been tripped before. -/
def alreadyShuttingDown : Line := ⟨.info, "", "Node is already shutting down"⟩

/-- The immediate effect of an action: its answer, the signal after it, and the
lines it logs. -/
def act (s : Signal) : Action → Answer × Signal × List Line
  | .kill =>
    let (first, s) := s.kill
    (.flag first, s, [])
  | .cloneKiller => (.index s.killers.length, s.cloneKiller, [])
  | .dropKiller k => (.flag (s.killers.getD k false), s.dropKiller k, [])
  | .cloneReceiver => (.index s.receivers, { s with receivers := s.receivers + 1 }, [])
  | .isKilled => (.flag s.isTripped, s, [])
  | .waitFor => (.flag s.isTripped, s, [])
  | .wait => (.index s.waits.length, { s with waits := s.waits ++ [true] }, [])
  | .handleInterrupt =>
    if s.handled then (.refused, s, []) else (.done, { s with handled := true }, [])
  | .interrupt =>
    if s.handled then
      let (first, s) := s.kill
      (.done, s, if first then [] else [alreadyShuttingDown])
    else (.done, s, [])

/-- What an action brings about. -/
structure Outcome where
  answer : Answer
  /-- The waits that returned by it. -/
  returned : List Nat
  /-- The lines it logged. -/
  lines : List Line
deriving DecidableEq, Repr

/-- Carries out an action; all waits return as soon as the signal has tripped. -/
def step (s : Signal) (action : Action) : Outcome × Signal :=
  let (answer, s, lines) := s.act action
  if s.isTripped then (⟨answer, s.blocked, lines⟩, s.release) else (⟨answer, [], lines⟩, s)

end Signal

end NodeGraph
