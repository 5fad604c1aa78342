import NodeGraph.Channel.Killable
import NodeGraph.Component.Listener
import NodeGraph.Component.Server
import NodeGraph.Component.Talker
import NodeGraph.Signal

/-!
# A running process

A world is a middleware together with all that goes on beside the calling
thread: the inboxes of its listeners, the loops that spin on them, the signals
that stop the loops, and what subscribers have received so far. Operations of
the calling thread are functions of this file; the steps of the other threads
are in `World.Step`.

A subscriber may hold up its own delivery thread, and reports of unreadable
payloads may be held up for all. `Holds` says who is held up at present.
-/

namespace NodeGraph

/-- Who holds up delivery threads. -/
structure Holds where
  /-- The subscriptions whose subscriber does not return. -/
  paused : List Nat := []
  /-- Whether reports of unreadable payloads do not return. -/
  reports : Bool := false
deriving DecidableEq, Repr

/-- A listener's inbox. -/
structure Inbox where
  listener : Listener
  texts : Channel Text := {}
deriving DecidableEq, Repr

/-- Where a spinning listener stands. -/
inductive Hearing where
  /-- Asks its inbox for a text. -/
  | asking (stage : Killable.Stage)
  /-- Has taken a text that it has not logged yet. -/
  | taken (text : Text)
deriving DecidableEq, Repr

/-- What a loop does until its signal trips. -/
inductive Job where
  /-- Hears what comes in, and counts it. -/
  | listen (listener : Listener) (hearing : Hearing) (heard : Nat)
  /-- Keeps a server. -/
  | serve (server : AdditionServer)
deriving DecidableEq, Repr

/-- A loop on a thread of its own. -/
structure Loop where
  id : Nat
  /-- The signal that stops it. -/
  signal : Nat
  job : Job
  /-- Whether nobody else holds on to what it spins on. -/
  isLast : Bool := false
deriving DecidableEq, Repr

/-- What a loop gives in the end. -/
inductive Ending where
  /-- A listener heard that many texts. -/
  | heard (count : Nat)
  /-- A server returned. -/
  | returned
deriving DecidableEq, Repr

/-- A middleware and everything that runs on it. -/
structure World (β μ : Type) where
  net : β
  stamper : Stamper
  /-- The inboxes of the listeners that are held. -/
  inboxes : List Inbox := []
  signals : List Signal := []
  loops : List Loop := []
  /-- How many loops have been started. -/
  started : Nat := 0
  holds : Holds := {}
  /-- What subscribers have made of their messages, each with the number of the
  subscription. -/
  received : List (Nat × μ) := []
  /-- The loops that have ended, and what they gave. -/
  endings : List (Nat × Ending) := []
  /-- The lines that other threads than the calling one have logged. -/
  aside : List Line := []

namespace World

variable {β μ : Type}

/-- Works on the middleware alone. -/
def onNet {τ : Type} (w : World β μ) (act : β → τ × β) : τ × World β μ :=
  let (result, net) := act w.net
  (result, { w with net })

/-- Changes the middleware alone. -/
def modifyNet (w : World β μ) (change : β → β) : World β μ := { w with net := change w.net }

/-! ## Signals -/

/-- A new signal with one killer, and its number. -/
def newSignal (w : World β μ) : Nat × World β μ :=
  (w.signals.length, { w with signals := w.signals ++ [{}] })

/-- Whether a signal has tripped. -/
def isTripped (w : World β μ) (signal : Nat) : Bool :=
  match w.signals[signal]? with
  | some s => s.isTripped
  | none => true

/-- Does something with a signal. -/
def signalAct (w : World β μ) (signal : Nat) (action : Signal.Action) :
    Signal.Answer × World β μ :=
  match w.signals[signal]? with
  | some s =>
    let (outcome, s) := s.step action
    (outcome.answer, { w with signals := w.signals.set signal s })
  | none => (.done, w)

/-! ## Holding up -/

/-- Holds up the subscriber of a subscription. -/
def pause (w : World β μ) (subscription : Nat) : World β μ :=
  { w with holds := { w.holds with paused := subscription :: w.holds.paused } }

/-- Lets the subscriber of a subscription go on. -/
def resume (w : World β μ) (subscription : Nat) : World β μ :=
  { w with holds := { w.holds with paused := w.holds.paused.filter (· ≠ subscription) } }

/-- Holds up reports of unreadable payloads, or lets them go on. -/
def holdReports (w : World β μ) (hold : Bool) : World β μ :=
  { w with holds := { w.holds with reports := hold } }

variable [Middleware β (Arrival μ)]

/-! ## Nodes and components -/

/-- Registers a node by its options. -/
def join (w : World β μ) (options : NodeOptions) (now : Nat) : Except Error Node × World β μ :=
  let (name, stamper) := options.resolveName (Middleware.arguments w.net) w.stamper now
  let (node, net) := Middleware.register w.net name
  (node, { w with net, stamper })

/-- Subscribes a node to a topic, with a callback that keeps no handles. -/
def subscribe {α : Type} (w : World β μ) (node : Node) (topic : String) (capacity : Nat)
    (type : MessageType α) (receive : α → μ) : Except Error Registration × World β μ :=
  w.onNet fun b =>
    Middleware.subscribe b node topic capacity type (fun a => .value (receive a)) []

/-- Makes a node listen. -/
def listen (w : World β μ) (node : Node) : Except Error Listener × World β μ :=
  match Listener.subscribe w.net node with
  | (.error e, net) => (.error e, { w with net })
  | (.ok listener, net) =>
    (.ok listener, { w with net, inboxes := w.inboxes ++ [{ listener }] })

/-- Starts a loop, and gives its number. -/
def startLoop (w : World β μ) (signal : Nat) (job : Job) : Nat × World β μ :=
  let loop : Loop := { id := w.started, signal, job }
  (loop.id, { w with started := w.started + 1, loops := w.loops ++ [loop] })

/-- Makes a listener spin until a signal trips. -/
def spinListener (w : World β μ) (listener : Listener) (signal : Nat) : Nat × World β μ :=
  w.startLoop signal (.listen listener (.asking .looking) 0)

/-- Makes a server spin until a signal trips. -/
def spinServer (w : World β μ) (server : AdditionServer) (signal : Nat) : Nat × World β μ :=
  w.startLoop signal (.serve server)

/-- The inbox of a listener. -/
def inbox? (w : World β μ) (listener : Listener) : Option Inbox :=
  w.inboxes.find? (·.listener.id = listener.id)

/-- Lets go of what a loop spins on. -/
def discard (w : World β μ) : Job → World β μ
  | .listen listener _ _ =>
    { w with
      net := listener.drop w.net
      inboxes := w.inboxes.filter (·.listener.id ≠ listener.id) }
  | .serve server => { w with net := server.drop w.net }

end World

/-- Whether two jobs spin on the same thing. -/
def Job.sharesWith : Job → Job → Bool
  | .listen l _ _, .listen m _ _ => l.id = m.id
  | .serve s, .serve t => s = t
  | _, _ => false

namespace World

variable {β μ : Type} [Middleware β (Arrival μ)]

/-- Drops a component. If loops still spin on it, the last of them lets go of
it instead. -/
def dropComponent (w : World β μ) (job : Job) : World β μ :=
  if w.loops.any (·.job.sharesWith job) then
    { w with
      loops := w.loops.map fun l => if l.job.sharesWith job then { l with isLast := true } else l }
  else w.discard job

/-- Drops a listener. -/
def dropListener (w : World β μ) (listener : Listener) : World β μ :=
  w.dropComponent (.listen listener (.asking .looking) 0)

/-- Drops a server. -/
def dropServer (w : World β μ) (server : AdditionServer) : World β μ :=
  w.dropComponent (.serve server)

end World

end NodeGraph
