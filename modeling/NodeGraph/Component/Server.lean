import NodeGraph.Component.Equation
import NodeGraph.Middleware.Basic
import NodeGraph.Name.Options

/-!
# The addition server

The server offers addition for as long as it is kept. Every sum it gives is
logged through its node before the answer goes out; a sum that does not exist is
refused and not logged.
-/

namespace NodeGraph

/-- An addition service on offer. -/
structure AdditionServer where
  service : Registration
deriving DecidableEq, Repr

namespace AdditionServer

/-- The name that a server goes by. -/
def nodeName : String := "add_two_ints_server"

/-- How a server's node is registered. -/
def options : NodeOptions := ({ name := nodeName } : NodeOptions).verbose

/-- What the server says when it is ready. -/
def ready : String := "Ready to add two ints."

/-- How a request is answered. -/
def answer (logger : Logger) (request : Addition.Request) :
    Act (Except String Addition.Response) :=
  match Addition.add request.a request.b with
  | .error reason => .done (.error reason)
  | .ok sum =>
    let equation : Equation := ⟨request.a, request.b, sum⟩
    .log logger (.info equation.toText) (.done (.ok ⟨sum⟩))

variable {β ε : Type} [Middleware β ε]

/-- Offers addition on a node. The handler keeps a logger. If the service is
refused nothing is said. -/
def advertise (b : β) (node : Node) : Except Error AdditionServer × β :=
  let (logger, b) := Middleware.logger b node
  match Middleware.advertise b node Addition.serviceName Addition.service (answer logger)
      [.logger logger] with
  | (.error e, b) => (.error e, b)
  | (.ok service, b) => (.ok ⟨service⟩, Middleware.logFor b node (.info ready))

/-- Stops offering addition. -/
def drop (b : β) (s : AdditionServer) : β := Middleware.drop b (.registration s.service)

end AdditionServer

end NodeGraph
