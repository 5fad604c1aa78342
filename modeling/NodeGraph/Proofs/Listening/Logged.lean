import NodeGraph.Proofs.Listening.Flow
import NodeGraph.Proofs.Registry.Shutdown

/-!
# Listeners log all they hear, and once

However nodes, delivery threads, loops and signals take their turns:

> `Hears`: what has been logged for a listener, then the text in hand, then the texts
> that wait are what its subscription was handed over, and a loop whose signal has not
> tripped goes on to the oldest of them, whatever others do.
>
> `Later`: the oldest text is the next one that is logged, and a loop that stops with its
> signal untripped has logged all that there was, with all that was queued if nothing
> could be queued any more.
>
> `texts_logged`: every listener of a reachable audience hears, and does so later; and
> every loop that has stopped gives the number of the lines it has logged.

`Hears` is read off `Attends`, and `Later` off the `Flow` between the two moments. What
was still queued is not in a flow: it goes through the delivery thread, which takes and
hands over everything before it ends (`heard_of_ended`).
-/

namespace NodeGraph

open Wire (Bytes)

variable {ε μ : Type}

/-- The line that a node logs for a text. -/
def Node.line (node : Node) (text : Text) : Line :=
  ⟨.info, node.name, Listener.heard node.name text.data⟩

/-- The texts that can be read from payloads. -/
def Text.readAll (payloads : List Bytes) : List Text :=
  payloads.filterMap fun payload => (Text.type.unpack payload).toOption

/-- How many turns a loop that listens is away from its next line, if there is a text
for it. -/
def Job.left : Job → Nat
  | .listen _ (.asking .looking) _ => 3
  | .listen _ (.asking .waiting) _ => 2
  | .listen _ (.taken _) _ => 1
  | .serve _ => 0

/-! ## Subscriptions that have closed -/

theorem Intake.readAll_append (s : Intake ε) (before after : List Bytes) :
    s.readAll (before ++ after) = s.readAll before ++ s.readAll after := List.filterMap_append

theorem Intake.readAll_congr {s s' : Intake ε} (h : s.read = s'.read) : s.readAll = s'.readAll := by
  unfold readAll
  rw [h]

namespace Audit

variable {a b : Audit ε}

/-- A subscription that has closed, with all that was taken off its queue or waits. -/
def Winding (id : Nat) (payloads : List Bytes) (a : Audit ε) : Prop :=
  ∃ c f, Closed a c f ∧ c.id = id ∧ c.item.taken ++ f.pending = payloads

/-- Nothing is queued any more, and nothing is evicted. -/
theorem winding_beat {id : Nat} {payloads : List Bytes} (hb : Beat a b) (hs : Sound a)
    (hf : Fed a) (h : Winding id payloads a) : Winding id payloads b := by
  obtain ⟨c, f, hclosed, hid, hall⟩ := h
  obtain ⟨c', f', hclosed', hid', hitem⟩ := closed_beat hb hs hf hclosed
  refine ⟨c', f', hclosed', hid'.trans hid, ?_⟩
  rcases hitem with ⟨hitem, hpending, -⟩ | ⟨hitem, hnext⟩
  · rw [hitem, hpending]
    exact hall
  · rw [hitem, ← hall]
    unfold Intake.advance
    rcases (Feed.advance?_cases hnext).2 with ⟨payload, hheld, rfl⟩ |
      ⟨payload, rest, hheld, hpending, rfl⟩ | ⟨hheld, hpending, -, rfl⟩
    · rw [hheld]
      rfl
    · rw [hheld, hpending]
      exact List.append_assoc ..
    · rw [hheld]
      show c.item.taken ++ f.pending.take 1 ++ f.pending = _
      rw [hpending]
      simp

/-- A subscription that has closed is handed over all that is held and waits before its
thread ends. -/
theorem heard_of_ended (ha : Reachable a) (hsteps : Steps a b) {c : Grant (Intake ε)} {f : Feed ε}
    (hc : Closed a c f) (hended : b.Ended c.id) :
    (c.id, c.item.heard ++ c.item.readAll (f.held.toList ++ f.pending)) ∈ b.ledger.hearings := by
  obtain ⟨hfed, d, f', hclosed, hid, hall⟩ := Steps.preserve_sound
    (P := fun a => Fed a ∧ Winding c.id (c.item.taken ++ f.pending) a) hsteps ha.sound
    (fun hb hs h => ⟨fed_beat hb hs h.1, winding_beat hb hs h.1 h.2⟩) ⟨ha.fed, c, f, hc, rfl, rfl⟩
  have hb : Reachable b := ha.trans hsteps
  -- the subscription is the one that has always been there
  have hread : d.item.readAll = c.item.readAll := by
    obtain ⟨e, he, hce⟩ := Steps.preserve
      (P := fun a => ∃ e ∈ a.ledger.subscriptions, Continues c e) hsteps continues_beat
      ⟨c, hc.grant, rfl, rfl, rfl, rfl⟩
    have hed : e = d := hb.sound.numbered.subscription_inj he hclosed.grant
      ((congrArg Registration.id hce.handle).trans hid.symm)
    exact Intake.readAll_congr (hed ▸ hce.read)
  -- its thread has ended, and so there is nothing left
  obtain ⟨f'', hf'', hid'', hend⟩ := hended
  have hsame : f'' = f' := hfed.feed_inj hb.sound hf'' hclosed.feed
    (hid''.trans (hid.symm.trans hclosed.id.symm))
  rw [hsame] at hend
  have hserves := hfed.serves d hclosed.grant f' hclosed.feed hclosed.id
  obtain ⟨-, hpending, hheld⟩ := hserves.ended hend
  obtain ⟨done', htaken', hheard'⟩ := hserves.heard
  obtain ⟨done, htaken, hheard⟩ := (ha.fed.serves c hc.grant f hc.feed hc.id).heard
  rw [hheld] at htaken'
  have hdone : done' = done ++ (f.held.toList ++ f.pending) := by
    calc done' = d.item.taken ++ f'.pending := by
          rw [htaken', hpending]
          simp
      _ = c.item.taken ++ f.pending := hall
      _ = done ++ (f.held.toList ++ f.pending) := by
          rw [htaken, List.append_assoc]
  have hmem := Ledger.exists_hearing hclosed.grant
  rw [hid, hheard', hread, hdone, Intake.readAll_append, ← hheard] at hmem
  exact hmem

/-- A subscription has been handed one thing. -/
theorem hearing_inj (ha : Reachable a) {id : Nat} {heard heard' : List ε}
    (h : (id, heard) ∈ a.ledger.hearings) (h' : (id, heard') ∈ a.ledger.hearings) :
    heard = heard' := by
  obtain ⟨c, hc, heq⟩ := List.mem_map.mp h
  obtain ⟨d, hd, heq'⟩ := List.mem_map.mp h'
  obtain ⟨hcid, rfl⟩ := Prod.mk.inj heq
  obtain ⟨hdid, rfl⟩ := Prod.mk.inj heq'
  rw [ha.sound.numbered.subscription_inj hc hd (hcid.trans hdid.symm)]

end Audit

namespace Audience

variable {v w : Audience μ} {i j : Inbox}

/-! ## One moment -/

/-- A loop can go on, and each of its turns logs a line for a listener or brings it nearer. -/
def Nears (v : Audience μ) (loop : Loop) (listener : Nat) (line : Line) : Prop :=
  v.world.turns loop ≠ [] ∧ ∀ z ∈ v.world.turns loop,
    (v.proceed loop z).linesOf listener = v.linesOf listener ++ [line] ∨
      (v.proceed loop z).linesOf listener = v.linesOf listener ∧
        ∃ l ∈ z.loops, l.id = loop.id ∧ l.signal = loop.signal ∧ l.ear = loop.ear ∧
          l.job.left < loop.job.left

/-- A listener with its subscription, at one moment. -/
structure Hears (v : Audience μ) (i : Inbox) (c : Grant (Intake (Arrival μ))) : Prop
    extends Belongs v i c where
  /-- What has been logged, then what is in hand, then what waits was handed over. -/
  conserved : ∃ texts : List Text, v.linesOf i.listener.id = texts.map c.node.line ∧
    c.item.heard = (texts ++ v.handOf i.listener.id ++ i.texts.items).map Arrival.chatter
  hand : (v.handOf i.listener.id).length ≤ 1
  silent : c.item.heard = [] → v.linesOf i.listener.id = []
  /-- As long as there is a text, a loop whose signal has not tripped gets to the oldest. -/
  goes : ∀ loop ∈ v.world.loops, loop.ear = some i.listener.id →
    v.world.isTripped loop.signal = false → ∀ text rest,
      v.handOf i.listener.id ++ i.texts.items = text :: rest →
        Nears v loop i.listener.id (c.node.line text)
  /-- What anybody else does leaves the loop where it is. -/
  steady : ∀ loop ∈ v.world.loops, ∀ w, Step v w →
    (∃ z ∈ v.world.turns loop, w = v.proceed loop z) ∨ loop ∈ w.world.loops

/-- A loop on a listener has the listener's own inbox. -/
theorem Orderly.own (h : Orderly v) (hi : i ∈ v.world.inboxes) {loop : Loop}
    (hloop : loop ∈ v.world.loops) (hear : loop.ear = some i.listener.id) :
    loop.isLast = false ∧ ∃ hearing, loop.job = .listen i.listener hearing (v.countOf loop.id) := by
  obtain ⟨hshared, listener, hlistener, hearing, hjob⟩ := h.listens loop hloop
  obtain ⟨j, hj, rfl⟩ := List.mem_map.mp hlistener
  unfold Loop.ear at hear
  rw [hjob] at hear
  rw [h.inbox_inj hj hi (Option.some.inj hear)] at hjob
  exact ⟨hshared, hearing, hjob⟩

theorem Orderly.hand_length (h : Orderly v) (k : Nat) : (v.handOf k).length ≤ 1 := by
  by_cases hone : ∃ l ∈ v.world.loops, l.ear = some k
  · obtain ⟨l, hl, hear⟩ := hone
    unfold handOf
    rw [Loop.hands_of_mem h.ears hl hear]
    unfold Job.hand
    split <;> simp
  · have hnone : v.handOf k = [] :=
      Loop.hands_eq_nil fun l hl hear => hone ⟨l, hl, hear⟩
    rw [hnone]
    exact Nat.zero_le _

/-- A loop with the signal untripped has the oldest text in hand, or takes it. -/
theorem nears_oldest (h : Orderly v) (hi : i ∈ v.world.inboxes) {loop : Loop}
    (hloop : loop ∈ v.world.loops) (hear : loop.ear = some i.listener.id)
    (hopen : v.world.isTripped loop.signal = false) {text : Text} {rest : List Text}
    (htext : v.handOf i.listener.id ++ i.texts.items = text :: rest) :
    Nears v loop i.listener.id (i.listener.line text) := by
  obtain ⟨hshared, hearing, hjob⟩ := h.own hi hloop hear
  have hinbox := h.inbox?_eq hi
  have hhand : v.handOf i.listener.id = loop.job.hand := Loop.hands_of_mem h.ears hloop hear
  rw [hhand] at htext
  refine ⟨World.turns_of_busy hjob hinbox ?_, fun z hz => ?_⟩
  · by_contra hidle
    rw [not_or, not_not, not_not] at hidle
    rw [hidle.1, hidle.2] at htext
    cases htext
  · have hturned := World.turned_of_turn hjob hshared hinbox hz
    have hlines := linesOf_proceed hjob hturned i.listener.id
    rw [if_pos rfl] at hlines
    -- whatever becomes of the loop's job, the loop is found among the others
    have hmem : ∀ job, ({ loop with job } : Loop) ∈ v.world.loops.map (Loop.assign loop.id job) :=
      fun job => Loop.assign_self job loop ▸ List.mem_map_of_mem hloop
    rw [hjob] at htext hlines ⊢
    rw [hear]
    cases hturned with
    | wait =>
      exact .inr ⟨hlines.trans (List.append_nil _), _, hmem _, rfl, rfl, rfl,
        Nat.lt_succ_self 2⟩
    | take text' rest' hitems =>
      exact .inr ⟨hlines.trans (List.append_nil _), _, hmem _, rfl, rfl, rfl,
        Nat.lt_succ_self 1⟩
    | say text' =>
      obtain ⟨rfl, -⟩ := List.cons.inj htext
      exact .inl hlines
    | stop stage hwhy =>
      -- neither reason to stop is there
      rcases hwhy with htripped | ⟨hnone, -⟩
      · rw [hopen] at htripped
        cases htripped
      · rw [hnone] at htext
        cases htext

/-- A loop is changed by its own turns only. -/
theorem Orderly.steady (h : Orderly v) {loop : Loop} (hloop : loop ∈ v.world.loops)
    (hstep : Step v w) :
    (∃ z ∈ v.world.turns loop, w = v.proceed loop z) ∨ loop ∈ w.world.loops := by
  cases hstep with
  | operation => exact .inr hloop
  | deliver feed hfeed hw =>
    obtain ⟨gone, hhanded, -⟩ := World.handed_of_deliver hw
    exact .inr (hhanded.loops ▸ hloop)
  | listen node _ =>
    refine .inr ?_
    rcases v.listen_cases node with ⟨hworld, -⟩ | ⟨hworld, -⟩ <;> rw [hworld] <;> exact hloop
  | spin => exact .inr (List.mem_append_left _ hloop)
  | turn other hother z hz =>
    by_cases hid : other.id = loop.id
    · have hsame := List.inj_on_of_nodup_map h.ids hother hloop hid
      subst hsame
      exact .inl ⟨z, hz, rfl⟩
    · -- the other loop's job is changed, or the other loop is taken away
      obtain ⟨i, -, hearing, -, hturned⟩ := h.turned hother hz
      have hassign : ∀ job, loop ∈ v.world.loops.map (Loop.assign other.id job) := fun job =>
        Loop.assign_of_ne (fun he => hid he.symm) job ▸ List.mem_map_of_mem hloop
      refine .inr ?_
      cases hturned with
      | wait => exact hassign _
      | take => exact hassign _
      | say => exact hassign _
      | stop => exact List.mem_filter.mpr ⟨hloop, decide_eq_true fun he => hid he.symm⟩
  | newSignal => exact .inr hloop
  | signalAct signal action =>
    refine .inr ?_
    unfold World.signalAct
    split <;> exact hloop
  | hold => exact .inr hloop

/-- The listener's lines are its node's. -/
theorem Belongs.line {c : Grant (Intake (Arrival μ))} (h : Belongs v i c) :
    i.listener.line = c.node.line := by
  funext text
  unfold Listener.line Node.line
  rw [h.name, h.logger]

theorem Sound.hears (h : Sound v) (hi : i ∈ v.world.inboxes) : ∃ c, Hears v i c := by
  obtain ⟨⟨c, hc⟩, ⟨texts, hlines, hheard⟩, -⟩ := h.attends i hi
  rw [hc.line] at hlines
  have hall := Audit.hearing_inj h.audit (hc.id_eq ▸ Ledger.exists_hearing hc.granted) hheard
  refine ⟨c, hc, ⟨texts, hlines, hall⟩, h.orderly.hand_length _, fun hnone => ?_,
    fun loop hloop hear hopen text rest htext => ?_,
    fun loop hloop w hstep => h.orderly.steady hloop hstep⟩
  · rw [hall, List.map_eq_nil_iff, List.append_eq_nil_iff, List.append_eq_nil_iff] at hnone
    rw [hlines, hnone.1.1]
    rfl
  · rw [← hc.line]
    exact nears_oldest h.orderly hi hloop hear hopen htext

/-! ## Two moments -/

/-- What has become of a listener by a later moment. Before, the feed of its subscription
was `f`. -/
structure Later (v w : Audience μ) (i : Inbox) (c : Grant (Intake (Arrival μ)))
    (f : Feed (Arrival μ)) : Prop where
  kept : ∃ j ∈ w.world.inboxes, j.listener = i.listener
  /-- The oldest text is the next one that is logged. -/
  next : ∀ text rest, v.handOf i.listener.id ++ i.texts.items = text :: rest →
    w.linesOf i.listener.id = v.linesOf i.listener.id ∨
      ∃ more, w.linesOf i.listener.id = v.linesOf i.listener.id ++ c.node.line text :: more
  /-- Who stops without a signal has logged every text, and if the subscription had closed
  everything that was queued. -/
  stops : ∀ loop ∈ w.world.loops, loop.ear = some i.listener.id →
    w.world.isTripped loop.signal = false →
      ∀ z ∈ w.world.turns loop, ∀ n, (loop.id, .heard n) ∈ z.endings →
        ∃ texts, w.linesOf i.listener.id = v.linesOf i.listener.id ++
            (v.handOf i.listener.id ++ i.texts.items ++ texts).map c.node.line ∧
          (v.ledger.isOpen c = false → texts = Text.readAll (f.held.toList ++ f.pending))

/-- A loop that stops with its signal untripped has nothing in hand, its inbox is empty
and the thread has ended. -/
theorem Sound.stops (h : Sound w) (hj : j ∈ w.world.inboxes) {loop : Loop}
    (hloop : loop ∈ w.world.loops) (hear : loop.ear = some j.listener.id)
    (hopen : w.world.isTripped loop.signal = false) {z : World (Graph (Arrival μ)) μ}
    (hz : z ∈ w.world.turns loop) {n : Nat} (hends : (loop.id, .heard n) ∈ z.endings) :
    w.handOf j.listener.id = [] ∧ j.texts.items = [] ∧ w.audit.Ended j.listener.id := by
  obtain ⟨hshared, hearing, hjob⟩ := h.orderly.own hj hloop hear
  have hhand : w.handOf j.listener.id = loop.job.hand :=
    Loop.hands_of_mem h.orderly.ears hloop hear
  -- the loop is still there, so it has not ended before
  have hgoing : (loop.id, .heard n) ∉ w.world.endings := fun hbefore =>
    (h.orderly.endings _ _ hbefore).2.1 loop hloop rfl
  rw [hhand, hjob]
  cases World.turned_of_turn hjob hshared (h.orderly.inbox?_eq hj) hz with
  | wait => exact absurd hends hgoing
  | take => exact absurd hends hgoing
  | say => exact absurd hends hgoing
  | stop stage hwhy =>
    rcases hwhy with htripped | ⟨hnone, hgone⟩
    · rw [hopen] at htripped
      cases htripped
    · exact ⟨rfl, hnone, (h.attends j hj).gone hgone⟩

theorem chatter_injective : Function.Injective (Arrival.chatter : Text → Arrival μ) :=
  fun _ _ h => Arrival.chatter.inj h

/-- The listener's subscription is handed over the texts that can be read. -/
theorem Belongs.readAll {c : Grant (Intake (Arrival μ))} (h : Belongs v i c)
    (payloads : List Bytes) :
    c.item.readAll payloads = (Text.readAll payloads).map Arrival.chatter := by
  unfold Intake.readAll Text.readAll
  rw [List.map_filterMap]
  refine List.filterMap_congr fun payload _ => ?_
  rw [h.read]
  cases Text.type.unpack payload <;> rfl

theorem Sound.later (h : Sound v) (hi : i ∈ v.world.inboxes) {c : Grant (Intake (Arrival μ))}
    (hc : Belongs v i c) {f : Feed (Arrival μ)} (hf : f ∈ v.world.net.feeds) (hid : f.id = c.id)
    (hsteps : Steps v w) : Later v w i c f := by
  obtain ⟨hw, haudit, hflows⟩ := h.steps hsteps
  obtain ⟨j, hj, hlistener, said, new, hlines, hheard, htexts⟩ := hflows i hi
  rw [hc.line] at hlines
  refine ⟨⟨j, hj, hlistener⟩, fun text rest htext => ?_,
    fun loop hloop hear hopen z hz n hends => ⟨new, ?_, fun hclosed => ?_⟩⟩
  · rw [htext] at htexts
    cases said with
    | nil => exact .inl (hlines.trans (List.append_nil _))
    | cons first others =>
      obtain ⟨rfl, -⟩ := List.cons.inj htexts
      exact .inr ⟨_, hlines⟩
  · rw [← hlistener] at hear
    obtain ⟨hhand, hitems, -⟩ := hw.stops hj hloop hear hopen hz hends
    rw [hlistener] at hhand
    rw [hhand, hitems, List.append_nil, List.append_nil] at htexts
    rw [hlines, htexts]
  · rw [← hlistener] at hear
    obtain ⟨-, -, hended⟩ := hw.stops hj hloop hear hopen hz hends
    rw [hlistener, ← hc.id_eq] at hended
    have hall := Audit.heard_of_ended h.audit haudit ⟨hc.granted, hf, hid, hclosed⟩ hended
    have hnew := hheard _ (hc.id_eq ▸ Ledger.exists_hearing hc.granted)
    rw [← hc.id_eq] at hnew
    have hsame := List.append_cancel_left (Audit.hearing_inj hw.audit hnew hall)
    exact chatter_injective.list_map (hsame.trans (hc.readAll _))

/-- **Listeners log every text they hear, and once.** -/
theorem texts_logged (h : Reachable v) :
    (∀ id n, (id, .heard n) ∈ v.world.endings → n = v.countOf id) ∧
    ∀ i ∈ v.world.inboxes, ∃ c, ∃ f ∈ v.world.net.feeds, f.id = c.id ∧ Hears v i c ∧
      ∀ w, Steps v w → Later v w i c f := by
  refine ⟨fun id n hends => (h.sound.orderly.endings id n hends).2.2, fun i hi => ?_⟩
  obtain ⟨c, hears⟩ := h.sound.hears hi
  obtain ⟨f, hf, hid, -⟩ := h.sound.audit.fed.exists_feed hears.granted
  exact ⟨c, f, hf, hid, hears, fun w => h.sound.later hi hears.toBelongs hf hid⟩

/-! ## A run -/

/-- Lets the delivery thread of a subscription take its next step, if it has one. -/
def thread (v : Audience μ) (id : Nat) : Audience μ :=
  match v.world.net.feeds.find? (·.id = id) with
  | none => v
  | some feed =>
    match v.world.deliver? feed with
    | none => v
    | some w => { v with world := w, ledger := v.ledger.turn feed }

/-- Lets a loop take its next step, the first that it may choose. -/
def go (v : Audience μ) (id : Nat) : Audience μ :=
  match v.world.loops.find? (·.id = id) with
  | none => v
  | some loop =>
    match v.world.turns loop with
    | [] => v
    | w :: _ => v.proceed loop w

theorem steps_thread (v : Audience μ) (id : Nat) : Steps v (v.thread id) := by
  unfold thread
  split
  next => exact .refl
  next feed hfeed =>
    split
    next => exact .refl
    next w hw => exact .single (.deliver v feed (List.mem_of_find?_eq_some hfeed) hw)

theorem steps_go (v : Audience μ) (id : Nat) : Steps v (v.go id) := by
  unfold go
  split
  next => exact .refl
  next loop hloop =>
    split
    next => exact .refl
    next w others hturns =>
      exact .single (.turn v loop (List.mem_of_find?_eq_some hloop) w (hturns ▸ .head _))

/-- The only listener of the run. -/
def lone : Listener := ⟨"/a", ⟨1, "/a"⟩, .subscriber "/chatter" 2⟩

/-- Two texts have come in and a third is queued when a loop on the listener begins to
spin. -/
def opening : Audience String :=
  let v : Audience String := { world := { net := {}, stamper := ⟨0, 0⟩ } }
  let v := { v with toWatch := v.use (v.audit.register "a") }
  let v := { v with
    world := (v.world.listen ⟨1, "/a"⟩).2
    ledger := (v.audit.subscribe ⟨1, "/a"⟩ Listener.topic Listener.queueSize Text.type
      .chatter).ledger }
  let v := { v with toWatch := v.use (v.audit.publish ⟨1, "/a"⟩ "chatter" Text.type) }
  let v := { v with toWatch := v.use (v.audit.send ⟨3, 1, "/chatter", Text.type⟩ ⟨"x"⟩) }
  let v := { v with toWatch := v.use (v.audit.send ⟨3, 1, "/chatter", Text.type⟩ ⟨"y"⟩) }
  let v := { v with toWatch := v.use (v.audit.send ⟨3, 1, "/chatter", Text.type⟩ ⟨"z"⟩) }
  let v := (((v.thread 2).thread 2).thread 2).thread 2
  { v with world := (v.world.newSignal.2.spinListener lone 0).2 }

/-- The loop logs the first text and is stopped, and the node is shut down. -/
def interrupted : Audience String :=
  let v := ((opening.go 0).go 0).go 0
  let v := { v with world := (v.world.signalAct 0 .kill).2 }
  let v := v.go 0
  { v with toWatch := v.use (v.audit.shutDown ⟨1, "/a"⟩) }

/-- Another loop spins on the listener, until it is about to stop. -/
def resumed : Audience String :=
  let v := ((interrupted.thread 2).thread 2).thread 2
  let v := { v with world := (v.world.newSignal.2.spinListener lone 1).2 }
  ((((((v.go 1).go 1).go 1).go 1).go 1).go 1).go 1

theorem Reachable.tail {u : Audience μ} (h : Reachable u) (hstep : Step u v) : Reachable v := by
  obtain ⟨t, ht, hsteps⟩ := h
  exact ⟨t, ht, hsteps.tail hstep⟩

theorem Reachable.steps {u : Audience μ} (h : Reachable u) (hsteps : Steps u v) : Reachable v := by
  obtain ⟨t, ht, hbefore⟩ := h
  exact ⟨t, ht, hbefore.trans hsteps⟩

theorem opening_reachable : opening.Reachable := by
  unfold opening
  refine ((((((((((((Reachable.tail ⟨_, ⟨⟨rfl, rfl, rfl⟩, rfl, rfl, rfl, rfl⟩, .refl⟩
    (.operation _ (.register _ "a"))).tail
    (.listen _ ⟨1, "/a"⟩ ?_)).tail
    (.operation _ (.publish _ ⟨1, "/a"⟩ "chatter" Text.type ?_))).tail
    (.operation _ (.send _ ⟨⟨1, "/a"⟩, "chatter", .publisher "/chatter" 3,
      ⟨⟨3, 1, "/chatter", Text.type⟩⟩⟩ ⟨"x"⟩ ?_ ?_))).tail
    (.operation _ (.send _ ⟨⟨1, "/a"⟩, "chatter", .publisher "/chatter" 3,
      ⟨⟨3, 1, "/chatter", Text.type⟩⟩⟩ ⟨"y"⟩ ?_ ?_))).tail
    (.operation _ (.send _ ⟨⟨1, "/a"⟩, "chatter", .publisher "/chatter" 3,
      ⟨⟨3, 1, "/chatter", Text.type⟩⟩⟩ ⟨"z"⟩ ?_ ?_))).steps
    (steps_thread _ 2)).steps (steps_thread _ 2)).steps (steps_thread _ 2)).steps
    (steps_thread _ 2)).tail (.newSignal _)).tail
    (.spin _ ⟨lone, ⟨[⟨"x"⟩, ⟨"y"⟩], 1⟩⟩ 0 ?_ ?_))
  · decide
  · decide
  · exact .head _
  · decide
  · exact .head _
  · decide
  · exact .head _
  · decide
  · decide +kernel
  · decide +kernel

theorem interrupted_reachable : interrupted.Reachable := by
  unfold interrupted
  refine (((((opening_reachable.steps (steps_go _ 0)).steps (steps_go _ 0)).steps
    (steps_go _ 0)).tail (.signalAct _ 0 .kill)).steps (steps_go _ 0)).tail
    (.operation _ (.shutDown _ ⟨1, "/a"⟩ ?_))
  decide +kernel

theorem resumed_steps : Steps interrupted resumed := by
  unfold resumed
  refine ((((((((Relation.ReflTransGen.tail (Relation.ReflTransGen.tail (((steps_thread _ 2).trans
    (steps_thread _ 2)).trans (steps_thread _ 2)) (.newSignal _))
    (.spin _ ⟨lone, ⟨[⟨"y"⟩, ⟨"z"⟩], 0⟩⟩ 1 ?_ ?_)).trans
    (steps_go _ 1)).trans (steps_go _ 1)).trans (steps_go _ 1)).trans (steps_go _ 1)).trans
    (steps_go _ 1)).trans (steps_go _ 1)).trans (steps_go _ 1))
  · decide +kernel
  · decide +kernel

/-- The text that was left in the inbox is the next one that is logged, and the one that
was still queued comes after it. -/
theorem texts_logged_resumed :
    interrupted.Reachable ∧ interrupted.countOf 0 = 1 ∧
    (∃ i ∈ interrupted.world.inboxes, ∃ c, ∃ f ∈ interrupted.world.net.feeds, f.id = c.id ∧
      Hears interrupted i c ∧ Later interrupted resumed i c f) ∧
    interrupted.linesOf 2 = [⟨.info, "/a", "/a: I heard x"⟩] ∧
    resumed.linesOf 2 = [⟨.info, "/a", "/a: I heard x"⟩, ⟨.info, "/a", "/a: I heard y"⟩,
      ⟨.info, "/a", "/a: I heard z"⟩] := by
  obtain ⟨hcounts, hlisteners⟩ := texts_logged interrupted_reachable
  have hmem : (⟨lone, ⟨[⟨"y"⟩], 1⟩⟩ : Inbox) ∈ interrupted.world.inboxes := by decide +kernel
  obtain ⟨c, f, hf, hid, hears, hlater⟩ := hlisteners _ hmem
  exact ⟨interrupted_reachable, (hcounts 0 1 (by decide +kernel)).symm,
    ⟨_, hmem, c, f, hf, hid, hears, hlater resumed resumed_steps⟩,
    by decide +kernel, by decide +kernel⟩

end Audience

end NodeGraph
