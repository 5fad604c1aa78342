import NodeGraph.Program

/-!
# Command line

The first argument names the program, the others are its own. Each program runs
against a master of its own, so it meets no other nodes: a talker talks and a
listener waits until the process is interrupted.
-/

namespace NodeGraph.Main

/-- The master of a program, and who holds on to its clients. -/
abbrev Net := Shared (Master (Arrival Unit))

/-- Prints what has been printed to the terminal, and forgets it. -/
def flush (net : Net) : IO Net := do
  for line in net.library.terminal do
    IO.println line
  (← IO.getStdout).flush
  pure { net with library := { net.library with terminal := [] } }

/-- A number to tell this process from others. -/
def processNumber : IO Nat := do
  let bytes ← IO.getRandomBytes 4
  pure (Wire.Word.value bytes.toList)

/-- Ends a program that failed. -/
def fail (e : Error) : IO UInt32 := do
  let exit := Program.Exit.failure e
  IO.eprint exit.stderr
  pure (UInt32.ofNat exit.status)

/-- Waits until the process is interrupted. -/
partial def waitForever : IO UInt32 := do
  IO.sleep 1000
  waitForever

/-- Talks until the process is interrupted. -/
partial def talk (net : Net) (t : Talker) (pause : Duration) : IO UInt32 := do
  match t.spin net [⟨false, true⟩] with
  | (some (.error e), _, _) => fail e
  | (_, t, net) =>
    let net ← flush net
    IO.sleep (UInt32.ofNat (pause.nanoseconds / 1000000))
    talk net t pause

/-- Runs the program of a node. -/
def work (net : Net) (node : Node) :
    Program → Option Operands → IO UInt32
  | .requester, operands => do
    match Requester.requestSum net node (operands.getD ⟨0, 0⟩) with
    | none => waitForever
    | some (.error e, net) =>
      let _ ← flush net
      fail e
    | some (.ok _, net) =>
      let _ ← flush net
      IO.sleep (UInt32.ofNat (Requester.flushDelay.nanoseconds / 1000000))
      pure 0
  | .server, _ => do
    match AdditionServer.advertise net node with
    | (.error e, _) => fail e
    | (.ok _, net) =>
      let _ ← flush net
      waitForever
  | .talker, _ => do
    match Talker.advertise net node with
    | (.error e, _) => fail e
    | (.ok t, net) =>
      match Talker.period Talker.defaultRate with
      | .error _ => pure 1
      | .ok pause => talk net t pause
  | .listener, _ => do
    match Listener.subscribe net node with
    | (.error e, _) => fail e
    | (.ok _, _) => waitForever

end NodeGraph.Main

open NodeGraph in
/-- Starts the program that the first argument names. -/
def main (arguments : List String) : IO UInt32 := do
  match arguments.head?.bind Program.ofName? with
  | none =>
    IO.eprintln ("usage: " ++ " | ".intercalate (Program.all.map (·.name)))
    pure 2
  | some program =>
    let pid ← Main.processNumber
    let now ← IO.monoMsNow
    let net : Main.Net := { library := { arguments } }
    match program.start net { pid } now with
    | (.error e, _) => Main.fail e
    | (.ok (operands, node), net) => Main.work net node program operands
