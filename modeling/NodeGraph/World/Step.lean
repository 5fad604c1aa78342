import NodeGraph.World.Basic

/-!
# Steps of the other threads

Each feed has a delivery thread and each loop a thread of its own. A thread
takes one atomic step at a time: `deliver?` is the next step of a delivery
thread and `turns` are the choices that a loop has for its own. There is none
while the thread is held up or waits. Threads may take their steps in any order
and with any choice; `settle` takes them in one particular order, always with
the first choice, until none is left.
-/

namespace NodeGraph.World

variable {β μ : Type} [Middleware β (Arrival μ)]

/-! ## Delivery threads -/

/-- Changes a feed. -/
def modifyFeed (w : World β μ) (id : Nat) (change : Feed (Arrival μ) → Feed (Arrival μ)) :
    World β μ :=
  w.modifyNet fun b => Middleware.withFeeds b ((Middleware.feeds b).modify id change)

/-- Hands over what a subscriber makes of a message. A text for a listener that
is gone is only remarked upon. -/
def handOver (w : World β μ) (id : Nat) : Arrival μ → World β μ
  | .value m => { w with received := w.received ++ [(id, m)] }
  | .chatter text =>
    if w.inboxes.any (·.listener.id = id) then
      { w with
        inboxes := w.inboxes.map fun i =>
          if i.listener.id = id then { i with texts := i.texts.push text } else i }
    else w.modifyNet fun b => Middleware.note b .listenerGone

/-- Ends a delivery thread, and with it the only sender to a listener's inbox. -/
def endFeed (w : World β μ) (id : Nat) : World β μ :=
  let w := w.modifyFeed id fun f => { f with ended := true }
  { w with
    inboxes := w.inboxes.map fun i =>
      if i.listener.id = id then { i with texts := i.texts.dropSender } else i }

/-- What a delivery thread does with the payload it holds, unless it is held
up. -/
def dealWith? (w : World β μ) (feed : Feed (Arrival μ)) :
    Except Wire.Fault (Arrival μ) → Option (World β μ)
  | .ok arrival =>
    if feed.id ∈ w.holds.paused then none
    else some ((w.modifyFeed feed.id Feed.finish).handOver feed.id arrival)
  | .error fault =>
    if w.holds.reports then none
    else
      some ((w.modifyFeed feed.id Feed.finish).modifyNet fun b =>
        Middleware.note b (.undecodable feed.topic fault))

/-- The next step of a delivery thread. -/
def deliver? (w : World β μ) (feed : Feed (Arrival μ)) : Option (World β μ) :=
  if feed.ended then none
  else
    match feed.outcome? with
    | some outcome => w.dealWith? feed outcome
    | none =>
      match feed.take? with
      | some taken => some (w.modifyFeed feed.id fun _ => taken)
      | none => if feed.isSpent then some (w.endFeed feed.id) else none

/-! ## Loops -/

/-- Changes a loop's job. -/
def setJob (w : World β μ) (id : Nat) (job : Job) : World β μ :=
  { w with loops := w.loops.map fun l => if l.id = id then { l with job } else l }

/-- Ends a loop. If nobody else holds on to what it spun on, that goes too. -/
def endLoop (w : World β μ) (loop : Loop) (ending : Ending) : World β μ :=
  let w := { w with
    loops := w.loops.filter (·.id ≠ loop.id)
    endings := w.endings ++ [(loop.id, ending)] }
  if loop.isLast && !w.loops.any (·.job.sharesWith loop.job) then w.discard loop.job else w

/-- Takes a text off an inbox, leaving the others. -/
def setTexts (w : World β μ) (listener : Listener) (texts : Channel Text) : World β μ :=
  { w with
    inboxes := w.inboxes.map fun i =>
      if i.listener.id = listener.id then { i with texts } else i }

/-- What a loop that listens may do next: look at the signal, wait for a text,
log it, and start over. -/
def listenTurns (w : World β μ) (loop : Loop) (listener : Listener) (heard : Nat) :
    Hearing → List (World β μ)
  | .asking stage =>
    match w.inbox? listener with
    | none => []
    | some inbox =>
      (stage.moves inbox.texts (w.isTripped loop.signal)).map fun
        | (.inl stage, _) => w.setJob loop.id (.listen listener (.asking stage) heard)
        | (.inr (some text), rest) =>
          (w.setTexts listener rest).setJob loop.id (.listen listener (.taken text) heard)
        | (.inr none, _) => w.endLoop loop (.heard heard)
  | .taken text =>
    [(w.modifyNet fun b => listener.hear b text).setJob loop.id
      (.listen listener (.asking .looking) (heard + 1))]

/-- What a loop may do next. -/
def turns (w : World β μ) (loop : Loop) : List (World β μ) :=
  match loop.job with
  | .listen listener hearing heard => w.listenTurns loop listener heard hearing
  | .serve _ => if w.isTripped loop.signal then [w.endLoop loop .returned] else []

/-! ## Coming to rest -/

/-- The first step that any thread can take. -/
def step? (w : World β μ) : Option (World β μ) :=
  match (Middleware.feeds w.net).findSome? w.deliver? with
  | some w => some w
  | none => w.loops.findSome? fun loop => (w.turns loop).head?

/-- At most `n` steps. -/
def steps : Nat → World β μ → World β μ
  | 0, w => w
  | n + 1, w =>
    match w.step? with
    | some w => steps n w
    | none => w

/-- A bound on the steps that are left. Each payload is taken and dealt with;
if it is a text it is then waited for, logged and recorded in at most every
feed, where the record is taken and dealt with in turn. Each feed and each loop
also comes to its end. -/
def work (w : World β μ) : Nat :=
  let feeds := Middleware.feeds w.net
  let payloads := feeds.foldl (fun n f => n + f.pending.length + 1) 0
  let texts := w.inboxes.foldl (fun n i => n + i.texts.length + 1) w.loops.length
  (payloads + texts) * (2 * feeds.length + 6) + 4 * w.loops.length

/-- Lets all threads go on until every one of them waits or is held up. The
lines they log are set apart from those of the calling thread. -/
def settle (w : World β μ) : World β μ :=
  let own := Middleware.journal w.net
  let w := steps w.work (w.modifyNet fun b => Middleware.withJournal b [])
  { w with
    net := Middleware.withJournal w.net own
    aside := w.aside ++ Middleware.journal w.net }

end NodeGraph.World
