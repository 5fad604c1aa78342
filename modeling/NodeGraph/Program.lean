import NodeGraph.Component.Listener
import NodeGraph.Component.Requester
import NodeGraph.Component.Server
import NodeGraph.Component.Talker
import NodeGraph.Client.Shared
import NodeGraph.Master.Library

/-!
# The programs

There is a program for each component. It names its node by its command line
and registers it with a master. A program that cannot start prints the chain of
errors and exits with status one: the requester looks at its operands before
anything else, and every program needs a legal name.
-/

namespace NodeGraph

/-- The programs. -/
inductive Program where
  | requester
  | server
  | talker
  | listener
deriving DecidableEq, Repr

namespace Program

/-- All programs. -/
def all : List Program := [.requester, .server, .talker, .listener]

/-- How a program's node is registered. -/
def options : Program → NodeOptions
  | .requester => Requester.options
  | .server => AdditionServer.options
  | .talker => Talker.options
  | .listener => Listener.options

/-- A program is called like the node it registers. -/
def name (p : Program) : String := p.options.name

/-- The program of a name. -/
def ofName? (name : String) : Option Program := all.find? (·.name = name)

/-- What the command line says about the work to be done: the requester's
operands. -/
def readOperands (p : Program) (arguments : List String) : Except Error (Option Operands) :=
  match p with
  | .requester => (Operands.ofArguments arguments).map some
  | _ => .ok none

variable {β ε : Type} [ClientLibrary β ε]

/-- Registers a program's node with its master. -/
def join (p : Program) (net : Shared β) (s : Stamper) (now : Nat) :
    Except Error Node × Shared β :=
  net.register (p.options.resolveName (ClientLibrary.arguments net.library) s now).1

/-- Starts a program: its operands, if it has any, and its node. -/
def start (p : Program) (net : Shared β) (s : Stamper) (now : Nat) :
    Except Error (Option Operands × Node) × Shared β :=
  match p.readOperands (ClientLibrary.arguments net.library) with
  | .error e => (.error e, net)
  | .ok operands =>
    match p.join net s now with
    | (.error e, net) => (.error e, net)
    | (.ok node, net) => (.ok (operands, node), net)

/-- How a program that could not start, or failed later, ends. -/
structure Exit where
  status : Nat
  stdout : String
  stderr : String
deriving DecidableEq, Repr

/-- The end of a program that failed. -/
def Exit.failure (e : Error) : Exit := ⟨1, "", e.report⟩

/-- The end of a program that cannot start with a command line, if it cannot. -/
def refusal? (p : Program) (arguments : List String) (s : Stamper) (now : Nat) : Option Exit :=
  match (p.start { library := ({ arguments } : Master Unit) } s now).1 with
  | .error e => some (.failure e)
  | .ok _ => none

end Program

end NodeGraph
