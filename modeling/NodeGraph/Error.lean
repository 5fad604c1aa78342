import NodeGraph.Text.Decimal
import NodeGraph.Wire.Codec

/-!
# Errors

A `Cause` says what went wrong. An `Error` is a cause together with the causes
it was raised for, the nearest one first. The wording of each cause is fixed in
`Cause.message`; `Error.report` is the text that a program prints before it
gives up, one line for each link of the chain.
-/

namespace NodeGraph

/-- Why the path of a name is refused. -/
inductive PathFault where
  /-- A segment holds something else than letters, digits and underscores. -/
  | illegalCharacter (segment : String)
  /-- There is nothing between two slashes, or no name at all. -/
  | emptyName
  /-- The path has no segments. -/
  | noParent
deriving DecidableEq, Repr

/-- The wording of a refused path. -/
def PathFault.message : PathFault → String
  | .illegalCharacter segment =>
    s!"Illegal character in '{segment}' - limited to letters, numbers and underscores"
  | .emptyName => "Name in path is empty"
  | .noParent => "Path has no parent due to being root path"

/-- What a client of the master can run into. -/
inductive ClientFault where
  /-- A name breaks the rules for paths. -/
  | path (fault : PathFault)
  /-- The node offers the service already. -/
  | duplicateService
  /-- The node publishes another type on the topic already. -/
  | publisherType (new old : String)
  /-- The node is subscribed to the topic with another type already. -/
  | subscriberType (new old topic : String)
  /-- A message could not be written. -/
  | wire (fault : Wire.Fault)
  /-- Nobody answers where the master should be. -/
  | unreachable
  /-- Anything else, in its own words. -/
  | other (reason : String)
deriving DecidableEq, Repr

/-- The wording of a client's fault. -/
def ClientFault.message : ClientFault → String
  | .path fault => fault.message
  | .duplicateService => "Could not add duplicate service"
  | .publisherType new old => s!"Cannot publish '{new}' data on '{old}' publisher"
  | .subscriberType new old topic =>
    s!"Attempted to connect to {old} topic '{topic}' with message type {new}"
  | .wire fault => fault.message
  | .unreachable => "Failed to reach the master"
  | .other reason => reason

/-- What went wrong. -/
inductive Cause where
  /-- Free text. -/
  | message (text : String)
  /-- A value could not be written or read. -/
  | io (fault : Wire.Fault)
  /-- An operand is no integer. -/
  | operand (fault : Decimal.Fault)
  /-- The master's client complained. -/
  | client (fault : ClientFault)
  /-- The command line is too short. -/
  | missingArgument (position : Nat)
  /-- A service could not be reached. -/
  | communication (service : String)
  /-- A service answered that it failed. -/
  | serviceFailed (service reason : String)
  /-- Another node goes by that name. -/
  | nameTaken (name : String)
  /-- There is one of that name already. -/
  | duplicate (name : String)
  /-- The type differs from the one in use under that name. -/
  | typeMismatch (name expected actual : String)
  /-- The node that would have to send is gone. -/
  | closed (name : String)
deriving DecidableEq, Repr

namespace Cause

/-- The wording of a cause. -/
def display : Cause → String
  | .message text => text
  | .io fault => fault.message
  | .operand fault => fault.message
  | .client fault => fault.message
  | .missingArgument position => s!"Missing positional argument at position {position}"
  | .communication service => s!"Failed to communicate with service {service}"
  | .serviceFailed service reason => s!"Service {service} reported a failure: {reason}"
  | .nameTaken name => s!"Node name {name} is already registered"
  | .duplicate name => s!"Could not add duplicate {name}"
  | .typeMismatch name expected actual =>
    s!"Type mismatch on {name}: expected {expected}, got {actual}"
  | .closed name => s!"Connection to {name} is closed"

/-- What kind of thing went wrong, without particulars. -/
def description : Cause → String
  | .missingArgument _ => "Missing positional argument"
  | .communication _ => "Failed to communicate with service"
  | .serviceFailed _ _ => "Service reported a failure"
  | .nameTaken _ => "Node name is already registered"
  | .duplicate _ => "Could not add duplicate"
  | .typeMismatch _ _ _ => "Message type mismatch"
  | .closed _ => "Connection is closed"
  | cause => cause.display

end Cause

/-- A cause and what it was raised for. -/
structure Error where
  cause : Cause
  /-- The further links of the chain, the nearest one first. -/
  behind : List Cause := []
deriving DecidableEq, Repr

namespace Error

/-- Raises a new cause for an error. -/
def wrap (e : Error) (cause : Cause) : Error := ⟨cause, e.cause :: e.behind⟩

/-- The wording of an error is that of its outermost cause. -/
def message (e : Error) : String := e.cause.display

/-- The wordings of the further links. -/
def causes (e : Error) : List String := e.behind.map Cause.display

/-- What a program prints before it gives up. -/
def report (e : Error) : String :=
  e.causes.foldl (fun text cause => text ++ "Caused by: " ++ cause ++ "\n")
    ("Error: " ++ e.message ++ "\n")

end Error

/-- An error without anything behind it. -/
instance : Coe Cause Error := ⟨fun cause => { cause }⟩

end NodeGraph
