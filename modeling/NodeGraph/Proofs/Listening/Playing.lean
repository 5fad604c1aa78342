import NodeGraph.Proofs.Listening.Relay

/-!
# A scene plays on

Which steps a scene may take is a matter of its `Step`. Here it is shown that this stops
nobody who has something to do.

> `steps_passes`: the thread of any subscription may take its next step.
>
> `step_turn`: so may the loop of every listener, whichever turn it chooses.
>
> `step_log`, `step_send`: the talker may say any text that fits. It is not refused (`say_ok`), so
> a talker that spins says greeting after greeting (`spin_eq`), and its code goes through these
> two acts (`voices`).
>
> `step_elsewhere`: and every other node may log.
>
> `steps_cues`: so whoever is told to do what, in whatever order, the scene plays on.

All that is asked is room for one payload more where something is said. Nobody of the
cast leaves in any of these, since none of them crosses anything out in the ledger
(`InPlace.congr`).
-/

namespace NodeGraph

open Wire (Countable)

variable {μ : Type}

namespace Graph

variable {g : Graph (Arrival μ)}

/-- Whoever logs puts one letter at most on the topic of records. -/
theorem length_logLetters (logger : Logger) (entry : Entry) :
    (g.logLetters logger entry).length ≤ 1 := by
  unfold logLetters
  split
  · exact Nat.zero_le _
  · split
    · exact Nat.le_refl _
    · exact Nat.zero_le _

theorem length_sendLetters {α : Type} (p : Publisher α) (message : α) :
    (g.sendLetters p message).length ≤ 1 := by
  unfold sendLetters
  split
  · exact Nat.zero_le _
  · split
    · exact Nat.le_refl _
    · exact Nat.zero_le _

end Graph

namespace Scene

/-- The thread of a subscription has taken its next step, if it has one. -/
def passes (s : Scene μ) (id : Nat) : Scene μ := { s with toAudience := s.toAudience.thread id }

/-- The loop of a listener has taken its next step, the first that it may choose. -/
def hears (s : Scene μ) (p : Seat) : Scene μ := { s with toAudience := s.toAudience.go p.loop }

/-- Something has been done with a signal. -/
def signals (s : Scene μ) (signal : Nat) (action : Signal.Action) : Scene μ :=
  { s with world := (s.world.signalAct signal action).2 }

/-- Some node has logged a text. -/
def elsewhere (s : Scene μ) (node : Node) (text : String) : Scene μ :=
  { s with toWatch := s.use (s.audit.log ⟨node.id, node.name⟩ (.info text)) }

end Scene

namespace Cast

variable {k : Cast μ} {s t : Scene μ} {u v : Audience μ} {p : Seat}

/-- Whether every queue that takes part has room for one payload more. -/
def Roomy (k : Cast μ) (s : Scene μ) : Prop :=
  ∀ id ∈ k.queues, ∀ f ∈ s.world.net.feeds, f.id = id → f.HasRoom 1

instance (k : Cast μ) (s : Scene μ) : Decidable (k.Roomy s) :=
  inferInstanceAs (Decidable (∀ id ∈ k.queues, ∀ f ∈ s.world.net.feeds, f.id = id → f.HasRoom 1))

/-- Everybody stays in place as long as subscriptions are kept and loops keep their ears. -/
theorem InPlace.congr (h : k.InPlace u) {subscriptions : List (Grant (Intake (Arrival μ)))}
    (hledger : v.ledger = { u.ledger with subscriptions })
    (hsubscriptions : ∀ d ∈ subscriptions, ∃ c ∈ u.ledger.subscriptions,
      d.id = c.id ∧ d.node = c.node)
    (hloops : ∀ l ∈ v.world.loops, ∃ m ∈ u.world.loops, m.id = l.id ∧ m.ear = l.ear) :
    k.InPlace v := by
  refine ⟨?_, ?_, ?_, ?_, ?_, fun p hp l hl hear => ?_⟩
  · rw [hledger]
    exact h.alive
  · rw [hledger]
    intro d hd hid
    obtain ⟨c, hc, hcid, hnode⟩ := hsubscriptions d hd
    have hopen := Ledger.isOpen_iff.mp (h.subscribed c hc (hcid ▸ hid))
    rw [← hcid, ← hnode] at hopen
    exact Ledger.isOpen_iff.mpr hopen
  · rw [hledger]
    exact h.publishing
  · rw [hledger]
    exact h.alone
  · rw [hledger]
    exact h.unforged
  · obtain ⟨m, hm, hid, hmear⟩ := hloops l hl
    exact hid.symm.trans (h.spinning p hp m hm (hmear.trans hear))

theorem InPlace.posts (h : k.InPlace u) {letters : List Letter}
    (hledger : v.ledger = letters.foldl Ledger.post u.ledger)
    (hloops : ∀ l ∈ v.world.loops, ∃ m ∈ u.world.loops, m.id = l.id ∧ m.ear = l.ear) :
    k.InPlace v := by
  refine h.congr (hledger.trans (Ledger.posts_eq letters u.ledger)) (fun d hd => ?_) hloops
  obtain ⟨c, hc, rfl⟩ := List.mem_map.mp hd
  exact ⟨c, hc, rfl, rfl⟩

/-- One letter fits into queues that have room for one payload. -/
theorem Follows.room (h : k.Follows s) (hroom : k.Roomy s) {t : Scene μ} {letters : List Letter}
    (ht : t.ledger = letters.foldl Ledger.post s.ledger) (hone : letters.length ≤ 1) :
    ∀ id ∈ k.queues, ∀ f ∈ s.world.net.feeds, f.id = id →
      f.HasRoom (s.parcels t id).length := by
  intro id hid f hf hfid
  have hmem : f.id ∈ s.ledger.subscriptions.map Grant.id :=
    h.sound.audit.fed.ids ▸ List.mem_map_of_mem hf
  obtain ⟨c, hc, hcid⟩ := List.mem_map.mp hmem
  have hopen := h.place.subscribed c hc (hcid.trans hfid ▸ hid)
  refine (hroom id hid f hf hfid).mono (Nat.le_trans ?_ hone)
  rw [← hfid, ← hcid, Scene.parcels_posts h.sound.audit.sound hc hopen ht, List.length_map]
  exact List.length_filter_le _ _

/-- Whatever sends nothing and logs nothing may happen if the cast stays in place. -/
theorem Follows.step_aside (h : k.Follows s) (hstep : Audience.Step s.toAudience v)
    (hplace : k.InPlace v) (hwindows : ∀ id, v.ledger.windowOf id = s.ledger.windowOf id)
    (hlogged : v.logged = s.logged) : k.Step s { s with toAudience := v } := by
  refine ⟨.aside s v (.quiet v hstep hwindows hlogged), hplace, fun id _ f hf _ => ?_⟩
  rw [Scene.parcels_eq_nil (hwindows id)]
  exact h.sound.audit.hasRoom hf

theorem Follows.steps_passes (h : k.Follows s) (id : Nat) : k.Steps s (s.passes id) := by
  unfold Scene.passes Audience.thread
  split
  next => exact .refl
  next feed hfeed =>
    split
    next => exact .refl
    next w hw =>
      obtain ⟨gone, hhanded, -⟩ := World.handed_of_deliver hw
      refine .single (h.step_aside (.deliver _ feed (List.mem_of_find?_eq_some hfeed) hw) ?_
        (fun id => Ledger.windowOf_turn s.ledger feed id) rfl)
      refine h.place.congr rfl (fun d hd => ?_) fun l hl => ⟨l, hhanded.loops ▸ hl, rfl, rfl⟩
      obtain ⟨c, hc, rfl⟩ := List.mem_map.mp hd
      exact ⟨c, hc, rfl, rfl⟩

/-- Anything may be done with a signal. -/
theorem Follows.step_signals (h : k.Follows s) (signal : Nat) (action : Signal.Action) :
    k.Step s (s.signals signal action) := by
  have hloops : (s.world.signalAct signal action).2.loops = s.world.loops := by
    unfold World.signalAct
    split <;> rfl
  refine h.step_aside (.signalAct _ signal action) ?_ (fun _ => rfl) rfl
  exact h.place.congr rfl (fun c hc => ⟨c, hc, rfl, rfl⟩) fun l hl => ⟨l, hloops ▸ hl, rfl, rfl⟩

theorem Follows.step_turn (h : k.Follows s) (hroom : k.Roomy s) (hp : p ∈ k.seats) {loop : Loop}
    (hloop : loop ∈ s.world.loops) (hown : loop.id = p.loop)
    {w : World (Graph (Arrival μ)) μ} (hw : w ∈ s.world.turns loop) :
    k.Step s { s with toAudience := s.proceed loop w } := by
  obtain ⟨i, -, hearing, hjob, hturned⟩ := h.sound.orderly.turned hloop hw
  have hone : (s.letters loop).length ≤ 1 := by
    unfold Audience.letters
    rw [hjob]
    cases hearing with
    | asking => exact Nat.zero_le _
    | taken => exact Graph.length_logLetters ..
  exact ⟨.turn s p hp loop hloop hown w hw,
    h.place.posts rfl fun _ => Audience.exists_ear_of_turned h.sound.orderly hloop hjob hturned,
    h.room hroom rfl hone⟩

theorem Follows.steps_hears (h : k.Follows s) (hroom : k.Roomy s) (hp : p ∈ k.seats) :
    k.Steps s (s.hears p) := by
  unfold Scene.hears Audience.go
  split
  next => exact .refl
  next loop hloop =>
    have hown := List.find?_some hloop
    rw [decide_eq_true_iff] at hown
    split
    next => exact .refl
    next w others hturns =>
      exact .single (h.step_turn hroom hp (List.mem_of_find?_eq_some hloop) hown
        (hturns ▸ .head _))

/-- The talker may say whatever fits once it has sent what it has said before. -/
theorem Follows.step_log (h : k.Follows s) (hroom : k.Roomy s) {text : String}
    (hidle : s.midway = none) (hfits : k.Fits text) : k.Step s (k.logs s text) :=
  ⟨.log s text hidle hfits, h.place.posts rfl fun l hl => ⟨l, hl, rfl, rfl⟩,
    h.room hroom rfl (Graph.length_logLetters ..)⟩

theorem Follows.step_send (h : k.Follows s) (hroom : k.Roomy s) {text : String}
    (hlogged : s.midway = some text) : k.Step s (k.sends s text) :=
  ⟨.send s text hlogged, h.place.posts rfl fun l hl => ⟨l, hl, rfl, rfl⟩,
    h.room hroom rfl (Graph.length_sendLetters ..)⟩

/-- A talker in place is never refused. -/
theorem Follows.say_ok (h : k.Follows s) (count : Nat) (text : String) :
    ((k.voice count).say s.world.net text).1 = .ok () := by
  obtain ⟨-, halive, -⟩ := h.publisher
  have hlive : s.world.net.isAlive k.talker.id = true := h.sound.audit.sound.isAlive_iff.mpr
    ⟨k.talker, h.place.alive _ (talker_mem_nodes k), rfl⟩
  have hlog : s.world.net.log k.logger (.info text) = s.world.net.said k.talker text :=
    Graph.log_info hlive text
  -- what it has logged leaves the nodes as they are
  have halive' : (s.world.net.said k.talker text).isAlive k.publisher.node = true := halive
  show ((s.world.net.log k.logger (.info text)).send k.publisher ⟨text⟩).1 = .ok ()
  unfold Graph.send
  rw [hlog, h.talker.pack]
  simp only
  rw [if_pos halive']
  split <;> rfl

/-- So a talker that spins goes through the two acts in each round, with the greeting of its
number, and counts the greeting. -/
theorem Follows.spin_eq (h : k.Follows s) (n : Nat) (after : Bool) :
    (k.voice n).spin s.world.net [⟨false, after⟩] =
      (if after then some (.ok (n + 1)) else none, k.voice (n + 1),
        (k.sends (k.logs s (Talker.greeting n)) (Talker.greeting n)).world.net) := by
  exact Talker.spin_round (t := k.voice n) (h.say_ok n _) after

/-- Whatever the talker says or spins, its code goes through the two acts. -/
theorem Follows.voices (h : k.Follows s) : k.Voices s :=
  ⟨fun count text => Prod.ext (h.say_ok count text) rfl, h.spin_eq⟩

/-- Every other node may log what it likes, up or not. -/
theorem Follows.step_elsewhere (h : k.Follows s) (hroom : k.Roomy s) {node : Node}
    (hnode : node ∈ s.ledger.nodes) (hother : node ∉ k.nodes) (hcount : Countable node.name)
    (text : String) : k.Step s (s.elsewhere node text) :=
  ⟨.aside s _ (.log node hnode hother hcount (.info text)),
    h.place.posts rfl fun l hl => ⟨l, hl, rfl, rfl⟩, h.room hroom rfl (Graph.length_logLetters ..)⟩

/-! ## Cues -/

/-- What somebody may be told to do next. -/
inductive Cue where
  /-- The talker says a text. -/
  | say (text : String)
  /-- The thread of a subscription goes on. -/
  | pass (id : Nat)
  /-- The loop of the listener at a place in the cast goes on. -/
  | hear (place : Nat)
  /-- A node that is not of the cast logs a text. -/
  | murmur (node : Node) (text : String)
  /-- Something is done with a signal. -/
  | signal (number : Nat) (action : Signal.Action)

/-- The scene after a cue. One that cannot be followed yet is left out. -/
def plays (k : Cast μ) (s : Scene μ) : Cue → Scene μ
  | .say text =>
    if s.midway = none ∧ k.Fits text ∧ k.Roomy s ∧ k.Roomy (k.logs s text) then
      k.sends (k.logs s text) text
    else s
  | .pass id => s.passes id
  | .hear place =>
    match k.seats[place]? with
    | some p => if k.Roomy s then s.hears p else s
    | none => s
  | .murmur node text =>
    if k.Roomy s ∧ node ∈ s.ledger.nodes ∧ node ∉ k.nodes ∧ Countable node.name then
      s.elsewhere node text
    else s
  | .signal number action => s.signals number action

theorem Follows.steps_plays (h : k.Follows s) (cue : Cue) : k.Steps s (k.plays s cue) := by
  cases cue with
  | say text =>
    simp only [plays]
    split
    next hready =>
      obtain ⟨hidle, hfits, hroom, hroom'⟩ := hready
      have hlog := h.step_log hroom hidle hfits
      exact .tail (.single hlog) ((follows_step h hlog).step_send hroom' rfl)
    next => exact .refl
  | pass id => exact h.steps_passes id
  | hear place =>
    simp only [plays]
    split
    next p hp =>
      split
      next hroom => exact h.steps_hears hroom (List.mem_of_getElem? hp)
      next => exact .refl
    next => exact .refl
  | murmur node text =>
    simp only [plays]
    split
    next hready =>
      obtain ⟨hroom, hnode, hother, hcount⟩ := hready
      exact .single (h.step_elsewhere hroom hnode hother hcount text)
    next => exact .refl
  | signal number action => exact .single (h.step_signals number action)

/-- Whatever the cues are, a scene that has begun plays on along them. -/
theorem Follows.steps_cues (h : k.Follows s) (cues : List Cue) :
    k.Steps s (cues.foldl k.plays s) := by
  induction cues generalizing s with
  | nil => exact .refl
  | cons cue cues ih =>
    have hfirst := h.steps_plays cue
    exact Relation.ReflTransGen.trans hfirst (ih (follows_steps h hfirst))

end Cast

end NodeGraph
