import NodeGraph.Arguments
import NodeGraph.Component.Equation
import NodeGraph.Duration
import NodeGraph.Middleware.Basic
import NodeGraph.Name.Options

/-!
# The requester

The requester takes two operands off its command line, asks the addition
service for their sum once, and logs the outcome through its node.
-/

namespace NodeGraph

/-- The operands of a request. -/
structure Operands where
  a : Int64
  b : Int64
deriving DecidableEq, Repr

namespace Operands

/-- The integer at a position of a command line without remappings. -/
def readAt (arguments : List String) (position : Nat) : Except Error Int64 :=
  match arguments[position]? with
  | none => .error (Cause.missingArgument position)
  | some text =>
    match Decimal.read text with
    | .ok n => .ok n
    | .error fault => .error (Cause.operand fault)

/-- The operands of a command line: its first two arguments that are no
remappings. The first one is read first, and whatever follows is ignored. -/
def ofArguments (arguments : List String) : Except Error Operands := do
  let arguments := Arguments.unused arguments
  let a ← readAt arguments 1
  let b ← readAt arguments 2
  pure ⟨a, b⟩

end Operands

namespace Requester

/-- The name that a requester goes by. -/
def nodeName : String := "add_two_ints_client"

/-- How a requester's node is registered. -/
def options : NodeOptions := { name := nodeName }

/-- How long a requester stays after its answer, for the line to get out. -/
def flushDelay : Duration := ⟨Duration.perSecond⟩

variable {β ε : Type} [Middleware β ε]

/-- Asks for a sum. Only an answer is logged. -/
def requestSum (b : β) (node : Node) (operands : Operands) :
    Option (Except Error Equation × β) := do
  let request : Addition.Request := ⟨operands.a, operands.b⟩
  match ← Middleware.call b node Addition.serviceName Addition.service request with
  | (.error e, b) => pure (.error e, b)
  | (.ok response, b) =>
    let equation : Equation := ⟨operands.a, operands.b, response.sum⟩
    pure (.ok equation, Middleware.logFor b node (.info equation.toText))

end Requester

end NodeGraph
