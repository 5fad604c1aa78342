import NodeGraph.Message.Record

/-!
# The process log

Besides what nodes publish, a process keeps a log of lines. Each line has a
severity and a target: the node it belongs to, or nothing for the graph's own
remarks.
-/

namespace NodeGraph

/-- How grave a line is. -/
inductive Severity where
  | error
  | warn
  | info
  | debug
deriving DecidableEq, Repr

/-- The severity under which a record of a level is logged: that of the
gravest usual level it reaches. -/
def Severity.ofLevel (level : Level) : Severity :=
  if Level.error ≤ level then .error
  else if Level.warn ≤ level then .warn
  else if Level.info ≤ level then .info
  else .debug

/-- A line of the process log. -/
structure Line where
  severity : Severity
  target : String
  text : String
deriving DecidableEq, Repr

namespace Line

/-- A remark of the graph itself, for whoever looks for faults. -/
def remark (text : String) : Line := ⟨.debug, "", text⟩

/-- A payload on a topic could not be read. -/
def undecodable (topic : String) (fault : Wire.Fault) : Line :=
  ⟨.error, "", s!"Failed to decode message on {topic}: {fault.message}"⟩

/-- A node has come. -/
def registered (name : String) : Line := remark s!"Registered node {name}"

/-- A node has gone. -/
def unregistered (name : String) : Line := remark s!"Unregistered node {name}"

/-- A text arrived for a listener that is no more. -/
def listenerGone : Line := remark "Listener is gone, dropping message"

/-- There is a process log already. -/
def alreadyInstalled : Line := remark "Logger was already initialized"

end Line

/-- Installs a process log that keeps lines from some severity on, debug lines
only if they are wanted. A log that is there already stays, with a remark. -/
def installLog (present : Option Severity) (verbose : Bool) : Severity × List Line :=
  match present with
  | some kept => (kept, [Line.alreadyInstalled])
  | none => (if verbose then .debug else .info, [])

end NodeGraph
