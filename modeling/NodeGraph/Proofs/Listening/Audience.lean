import NodeGraph.Proofs.Delivery.Watch

/-!
# Listeners in a running process

An `Audience` is a process that is watched, with all that its loops have logged for
listeners so far, each line with the loop and the listener. Nothing is said of the
lines but where they come from: they are what the process log has gained in a step of
the loop.

`Step` lists what may happen: anything on the graph, a step of a delivery thread, a
node that begins to listen, a listener that spins while nobody else spins on it, a step
of a loop, and anything that is done with a signal. Listeners are kept.

> `turned_of_turn`: a loop that listens waits, takes a text, says it or stops.
>
> `handed_of_deliver`: a delivery thread adds to the inbox of its subscription what it
> hands over, and takes its sender away when it ends.
-/

namespace NodeGraph

variable {μ : Type}

/-! ## Loops that listen -/

/-- The text that a loop has in hand. -/
def Job.hand : Job → List Text
  | .listen _ (.taken text) _ => [text]
  | _ => []

/-- The listener that a loop spins on, by its number. -/
def Loop.ear (l : Loop) : Option Nat :=
  match l.job with
  | .listen listener _ _ => some listener.id
  | .serve _ => none

/-- The line for a text. -/
def Listener.line (l : Listener) (text : Text) : Line :=
  ⟨.info, l.logger.name, heard l.name text.data⟩

/-- The text that a subscriber has been handed for an inbox. -/
def Arrival.text? : Arrival μ → Option Text
  | .value _ => none
  | .chatter text => some text

/-- An inbox after the delivery thread of a number has handed over some texts, or has
gone. -/
def Inbox.handed (i : Inbox) (id : Nat) (texts : List Text) (gone : Bool) : Inbox :=
  if i.listener.id = id then
    { i with texts :=
      ⟨i.texts.items ++ texts, if gone then i.texts.senders - 1 else i.texts.senders⟩ }
  else i

@[simp] theorem Inbox.handed_listener (i : Inbox) (id : Nat) (texts : List Text) (gone : Bool) :
    (i.handed id texts gone).listener = i.listener := by
  unfold handed
  split <;> rfl

theorem Inbox.handed_nil (i : Inbox) (id : Nat) : i.handed id [] false = i := by
  unfold handed
  split
  next => simp
  next => rfl

namespace World

variable {w : World (Graph (Arrival μ)) μ}

/-- A loop has come to its end. -/
def stopped (w : World (Graph (Arrival μ)) μ) (loop : Loop) (ending : Ending) :
    World (Graph (Arrival μ)) μ :=
  { w with
    loops := w.loops.filter (·.id ≠ loop.id)
    endings := w.endings ++ [(loop.id, ending)] }

/-- What a loop can do next that spins on the listener of an inbox and has heard `n`
texts. -/
inductive Turned (w : World (Graph (Arrival μ)) μ) (loop : Loop) (i : Inbox) (n : Nat) :
    Hearing → World (Graph (Arrival μ)) μ → Prop where
  /-- The signal has been looked at. -/
  | wait (hopen : w.isTripped loop.signal = false) : Turned w loop i n (.asking .looking)
    (w.setJob loop.id (.listen i.listener (.asking .waiting) n))
  | take (text : Text) (rest : List Text) (hitems : i.texts.items = text :: rest) :
    Turned w loop i n (.asking .waiting)
      ((w.setTexts i.listener { i.texts with items := rest }).setJob loop.id
        (.listen i.listener (.taken text) n))
  | say (text : Text) : Turned w loop i n (.taken text)
    ((w.modifyNet fun g => g.log i.listener.logger
      (.info (Listener.heard i.listener.name text.data))).setJob loop.id
        (.listen i.listener (.asking .looking) (n + 1)))
  | stop (stage : Killable.Stage) (hwhy : w.isTripped loop.signal = true ∨
      i.texts.items = [] ∧ i.texts.senders = 0) :
    Turned w loop i n (.asking stage) (w.stopped loop (.heard n))

theorem endLoop_eq {loop : Loop} (hshared : loop.isLast = false) (ending : Ending) :
    w.endLoop loop ending = w.stopped loop ending := by
  unfold endLoop
  simp only [hshared, Bool.false_and, Bool.false_eq_true, if_false]
  rfl

theorem turned_of_turn {w' : World (Graph (Arrival μ)) μ} {loop : Loop} {i : Inbox}
    {hearing : Hearing} {n : Nat} (hjob : loop.job = .listen i.listener hearing n)
    (hshared : loop.isLast = false) (hinbox : w.inbox? i.listener = some i)
    (h : w' ∈ w.turns loop) : Turned w loop i n hearing w' := by
  unfold turns at h
  rw [hjob] at h
  cases hearing with
  | taken text =>
    rw [List.mem_singleton.mp h]
    exact .say text
  | asking stage =>
    simp only [listenTurns, hinbox, List.mem_map] at h
    obtain ⟨⟨move, rest⟩, hmove, rfl⟩ := h
    cases stage with
    | looking =>
      have hmove := List.mem_singleton.mp hmove
      by_cases ht : w.isTripped loop.signal = true
      · rw [if_pos ht] at hmove
        obtain ⟨rfl, rfl⟩ := Prod.mk.inj hmove
        simp only [endLoop_eq hshared]
        exact .stop .looking (.inl ht)
      · rw [if_neg ht] at hmove
        obtain ⟨rfl, rfl⟩ := Prod.mk.inj hmove
        exact .wait (Bool.eq_false_iff.mpr ht)
    | waiting =>
      obtain ⟨⟨result, rest'⟩, hready, hmove⟩ := List.mem_map.mp hmove
      obtain ⟨rfl, rfl⟩ := Prod.mk.inj hmove
      rcases List.mem_append.mp hready with hdata | hkill
      · unfold Channel.receive at hdata
        cases hitems : i.texts.items with
        | cons text rest =>
          simp only [hitems, List.mem_singleton] at hdata
          obtain ⟨rfl, rfl⟩ := Prod.mk.inj hdata
          exact .take text rest hitems
        | nil =>
          simp only [hitems] at hdata
          by_cases hgone : i.texts.isDisconnected = true
          · simp only [hgone, if_true, List.mem_singleton] at hdata
            obtain ⟨rfl, rfl⟩ := Prod.mk.inj hdata
            simp only [endLoop_eq hshared]
            exact .stop .waiting (.inr ⟨hitems, of_decide_eq_true hgone⟩)
          · simp [hgone] at hdata
      · split at hkill
        next ht =>
          obtain ⟨rfl, rfl⟩ := Prod.mk.inj (List.mem_singleton.mp hkill)
          simp only [endLoop_eq hshared]
          exact .stop .waiting (.inl ht)
        next => cases hkill

/-- A loop can go on as long as there is something to log. -/
theorem turns_of_busy {loop : Loop} {i : Inbox} {hearing : Hearing} {n : Nat}
    (hjob : loop.job = .listen i.listener hearing n) (hinbox : w.inbox? i.listener = some i)
    (hbusy : i.texts.items ≠ [] ∨ loop.job.hand ≠ []) : w.turns loop ≠ [] := by
  unfold turns
  rw [hjob]
  cases hearing with
  | taken text => exact List.cons_ne_nil _ _
  | asking stage =>
    simp only [listenTurns, hinbox]
    cases stage with
    | looking => simp [Killable.Stage.moves]
    | waiting =>
      have hitems : i.texts.items ≠ [] := hbusy.resolve_right (by rw [hjob]; simp [Job.hand])
      obtain ⟨text, rest, hcons⟩ := List.exists_cons_of_ne_nil hitems
      simp [Killable.Stage.moves, Killable.ready, Channel.receive, hcons]

/-! ## Delivery threads -/

/-- What happens beside the graph when texts are handed over. -/
structure Handed (w w' : World (Graph (Arrival μ)) μ) (id : Nat) (texts : List Text)
    (gone : Bool) : Prop where
  loops : w'.loops = w.loops
  started : w'.started = w.started
  endings : w'.endings = w.endings
  inboxes : w'.inboxes = w.inboxes.map (·.handed id texts gone)

theorem Handed.nothing {w' : World (Graph (Arrival μ)) μ} (hloops : w'.loops = w.loops)
    (hstarted : w'.started = w.started) (hendings : w'.endings = w.endings)
    (hinboxes : w'.inboxes = w.inboxes) (id : Nat) : Handed w w' id [] false := by
  refine ⟨hloops, hstarted, hendings, ?_⟩
  rw [hinboxes, List.map_congr_left fun i _ => i.handed_nil id, List.map_id']

theorem handed_of_handOver (w : World (Graph (Arrival μ)) μ) (id : Nat) (arrival : Arrival μ) :
    Handed w (w.handOver id arrival) id arrival.text?.toList false := by
  cases arrival with
  | value m => refine .nothing ?_ ?_ ?_ ?_ id <;> rfl
  | chatter text =>
    simp only [handOver]
    split
    next =>
      refine ⟨rfl, rfl, rfl, List.map_congr_left fun i _ => ?_⟩
      unfold Inbox.handed
      split <;> rfl
    next hnone =>
      -- nobody listens, and so nobody is handed anything
      refine ⟨rfl, rfl, rfl, ?_⟩
      have hsame : ∀ i ∈ w.inboxes, i.handed id [text] false = i := by
        intro i hi
        refine if_neg fun hid => hnone ?_
        exact List.any_eq_true.mpr ⟨i, hi, decide_eq_true hid⟩
      show w.inboxes = _
      rw [Arrival.text?, Option.toList_some, List.map_congr_left hsame, List.map_id']

/-- What a delivery thread does beside the graph. -/
theorem handed_of_deliver {w' : World (Graph (Arrival μ)) μ} {feed : Feed (Arrival μ)}
    (h : w.deliver? feed = some w') :
    ∃ gone, Handed w w' feed.id (feed.handed.filterMap Arrival.text?) gone ∧
      (gone = true → feed.advance? = some { feed with ended := true }) := by
  unfold deliver? at h
  split at h
  next => exact absurd h (by simp)
  next hended =>
    unfold Feed.advance? Feed.handed
    rw [if_neg hended]
    cases hheld : feed.held with
    | some payload =>
      simp only [Feed.outcome?, hheld, Option.map_some] at h
      refine ⟨false, ?_, fun h => absurd h Bool.false_ne_true⟩
      cases hread : feed.receive payload with
      | ok arrival =>
        simp only [hread, dealWith?] at h
        split at h
        next => exact absurd h (by simp)
        next =>
          injection h with h
          have hhanded := handed_of_handOver (w.modifyFeed feed.id Feed.finish) feed.id arrival
          rw [h] at hhanded
          have htexts : (((some payload).bind fun p => (feed.receive p).toOption).toList).filterMap
              Arrival.text? = arrival.text?.toList := by
            rw [Option.bind_some, hread]
            cases arrival <;> rfl
          rw [htexts]
          exact ⟨hhanded.loops, hhanded.started, hhanded.endings, hhanded.inboxes⟩
      | error fault =>
        simp only [hread, dealWith?] at h
        split at h
        next => exact absurd h (by simp)
        next =>
          injection h with h
          rw [Option.bind_some, hread, ← h]
          refine .nothing ?_ ?_ ?_ ?_ feed.id <;> rfl
    | none =>
      simp only [Feed.outcome?, hheld, Option.map_none] at h
      cases htake : feed.take? with
      | some taken =>
        simp only [htake] at h
        injection h with h
        rw [← h]
        refine ⟨false, .nothing ?_ ?_ ?_ ?_ feed.id, fun h => absurd h Bool.false_ne_true⟩ <;> rfl
      | none =>
        simp only [htake] at h ⊢
        split at h
        next hspent =>
          injection h with h
          rw [← h]
          refine ⟨true, ⟨rfl, rfl, rfl, List.map_congr_left fun i _ => ?_⟩, fun _ => ?_⟩
          · unfold Inbox.handed
            split
            next => simp [Channel.dropSender]
            next => rfl
          · rw [if_pos hspent]
        next => exact absurd h (by simp)

end World

/-! ## Audiences -/

/-- A line that a loop has logged for a listener. -/
structure Spoken where
  loop : Nat
  listener : Nat
  line : Line

/-- A process that is watched, with what has been logged for listeners. -/
structure Audience (μ : Type) extends Watch μ where
  logged : List Spoken := []

namespace Audience

/-- What a loop has logged in a step that took the process log from `before` to `after`. -/
def spokenBy (loop : Loop) (before after : List Line) : List Spoken :=
  match loop.job with
  | .listen listener _ _ =>
    (after.drop before.length).map fun line => ⟨loop.id, listener.id, line⟩
  | .serve _ => []

/-- What a loop is about to put on the topic of records. -/
def letters (v : Audience μ) (loop : Loop) : List Letter :=
  match loop.job with
  | .listen listener (.taken text) _ =>
    v.world.net.logLetters listener.logger (.info (Listener.heard listener.name text.data))
  | _ => []

/-- The audience after a loop has taken its next step, to the world `w`. -/
def proceed (v : Audience μ) (loop : Loop) (w : World (Graph (Arrival μ)) μ) : Audience μ where
  world := w
  ledger := (v.letters loop).foldl Ledger.post v.ledger
  logged := v.logged ++ spokenBy loop v.world.net.journal w.net.journal

/-- One step of an audience. -/
inductive Step : Audience μ → Audience μ → Prop where
  /-- Somebody uses the graph. -/
  | operation (v : Audience μ) {b : Audit (Arrival μ)} (h : Audit.Operation v.audit b) :
    Step v { v with toWatch := v.use b }
  /-- A delivery thread takes its next step. -/
  | deliver (v : Audience μ) (feed : Feed (Arrival μ)) (hfeed : feed ∈ v.world.net.feeds)
    {w : World (Graph (Arrival μ)) μ} (h : v.world.deliver? feed = some w) :
    Step v { v with world := w, ledger := v.ledger.turn feed }
  /-- A node begins to listen, or is refused. -/
  | listen (v : Audience μ) (node : Node) (h : node ∈ v.ledger.live) :
    Step v { v with
      world := (v.world.listen node).2
      ledger := (v.audit.subscribe node Listener.topic Listener.queueSize Text.type
        .chatter).ledger }
  /-- A listener spins that nobody spins on. -/
  | spin (v : Audience μ) (i : Inbox) (signal : Nat) (hi : i ∈ v.world.inboxes)
    (hfree : ∀ l ∈ v.world.loops, l.ear ≠ some i.listener.id) :
    Step v { v with world := (v.world.spinListener i.listener signal).2 }
  /-- A loop takes its next step, whichever it chooses. -/
  | turn (v : Audience μ) (loop : Loop) (hloop : loop ∈ v.world.loops)
    (w : World (Graph (Arrival μ)) μ) (h : w ∈ v.world.turns loop) : Step v (v.proceed loop w)
  | newSignal (v : Audience μ) : Step v { v with world := v.world.newSignal.2 }
  | signalAct (v : Audience μ) (signal : Nat) (action : Signal.Action) :
    Step v { v with world := (v.world.signalAct signal action).2 }
  | hold (v : Audience μ) (holds : Holds) : Step v { v with world := { v.world with holds } }

/-- Any number of steps, one after the other. -/
abbrev Steps : Audience μ → Audience μ → Prop := Relation.ReflTransGen Step

/-- An audience before anything has happened. -/
structure Start (v : Audience μ) : Prop where
  watch : v.toWatch.Start
  inboxes : v.world.inboxes = []
  loops : v.world.loops = []
  endings : v.world.endings = []
  logged : v.logged = []

/-- What any number of steps make out of an audience at its start. -/
def Reachable (v : Audience μ) : Prop := ∃ u, Start u ∧ Steps u v

end Audience

end NodeGraph
