import NodeGraph.Proofs.Listening.Audience

/-!
# Loops keep count

> `Orderly`: loops have numbers of their own, each spins on a listener that nobody else
> spins on, and has counted what it has logged; and so had every loop that has ended.

Loops are changed in three ways: one is started, one goes on, one stops. The lemmas of
the first part say what these do to a list of loops, and to the text that the loop of
a listener has in hand (`hands`).
-/

namespace NodeGraph

variable {μ : Type}

/-! ## Lists of loops -/

namespace Loop

variable {loops : List Loop} {l m : Loop} {k : Nat}

/-- What the loops that spin on a listener have in hand. -/
def hands (loops : List Loop) (k : Nat) : List Text :=
  loops.flatMap fun l => if l.ear = some k then l.job.hand else []

/-- Gives the loop of a number another job. -/
def assign (id : Nat) (job : Job) (l : Loop) : Loop := if l.id = id then { l with job } else l

@[simp] theorem assign_id (id : Nat) (job : Job) (l : Loop) : (l.assign id job).id = l.id := by
  unfold assign
  split <;> rfl

@[simp] theorem assign_isLast (id : Nat) (job : Job) (l : Loop) :
    (l.assign id job).isLast = l.isLast := by
  unfold assign
  split <;> rfl

theorem assign_self (job : Job) (l : Loop) : l.assign l.id job = { l with job } := if_pos rfl

theorem assign_of_ne {id : Nat} (h : l.id ≠ id) (job : Job) : l.assign id job = l := if_neg h

theorem hands_eq_nil (h : ∀ l ∈ loops, l.ear ≠ some k) : hands loops k = [] := by
  unfold hands
  rw [List.flatMap_eq_nil_iff]
  intro l hl
  exact if_neg (h l hl)

/-- The only loop of a listener has in hand whatever is in hand. -/
theorem hands_of_mem (hears : (loops.map ear).Nodup) (hl : l ∈ loops) (hear : l.ear = some k) :
    hands loops k = l.job.hand := by
  obtain ⟨before, after, rfl⟩ := List.append_of_mem hl
  rw [List.map_append, List.map_cons, List.nodup_middle, List.nodup_cons, hear,
    ← List.map_append] at hears
  have hothers : ∀ m ∈ before ++ after, m.ear ≠ some k := by
    intro m hm he
    exact hears.1 (he ▸ List.mem_map_of_mem hm)
  unfold hands
  rw [List.flatMap_append, List.flatMap_cons, if_pos hear]
  have hbefore : hands before k = [] := hands_eq_nil fun m hm =>
    hothers m (List.mem_append_left _ hm)
  have hafter : hands after k = [] := hands_eq_nil fun m hm =>
    hothers m (List.mem_append_right _ hm)
  unfold hands at hbefore hafter
  rw [hbefore, hafter, List.nil_append, List.append_nil]

/-- A job on the same listener leaves everybody's ears where they are. -/
theorem ears_assign (hids : (loops.map id).Nodup) (hl : l ∈ loops) {job : Job}
    (hear : ({ l with job } : Loop).ear = l.ear) :
    (loops.map (assign l.id job)).map ear = loops.map ear := by
  rw [List.map_map]
  apply List.map_congr_left
  intro m hm
  show (m.assign l.id job).ear = m.ear
  by_cases hid : m.id = l.id
  · rw [List.inj_on_of_nodup_map hids hm hl hid, assign_self, hear]
  · rw [assign_of_ne hid]

theorem hands_assign (hids : (loops.map id).Nodup) (hears : (loops.map ear).Nodup)
    (hl : l ∈ loops) {job : Job} {e : Nat} (hear : l.ear = some e)
    (hjob : ({ l with job } : Loop).ear = some e) :
    hands (loops.map (assign l.id job)) k = if k = e then job.hand else hands loops k := by
  split
  next hk =>
    subst hk
    have hears' := hears
    rw [← ears_assign hids hl (hjob.trans hear.symm)] at hears'
    have hmem : ({ l with job } : Loop) ∈ loops.map (assign l.id job) :=
      assign_self job l ▸ List.mem_map_of_mem hl
    exact hands_of_mem hears' hmem hjob
  next hk =>
    -- neither the old job nor the new one is on this listener
    unfold hands
    rw [List.flatMap_map]
    refine List.flatMap_congr fun m hm => ?_
    by_cases hid : m.id = l.id
    · have hne : some e ≠ some k := fun he => hk (Option.some.inj he).symm
      rw [List.inj_on_of_nodup_map hids hm hl hid, assign_self, hjob, hear, if_neg hne, if_neg hne]
    · rw [assign_of_ne hid]

/-- A loop that has nothing in hand takes nothing away when it stops. -/
theorem hands_filter (hids : (loops.map id).Nodup) (hl : l ∈ loops) (hhand : l.job.hand = []) :
    hands (loops.filter (·.id ≠ l.id)) k = hands loops k := by
  have hkept : ∀ ls : List Loop, (∀ m ∈ ls, m ∈ loops) →
      hands (ls.filter (·.id ≠ l.id)) k = hands ls k := by
    intro ls hsub
    induction ls with
    | nil => rfl
    | cons m ls ih =>
      have hls := ih fun x hx => hsub x (List.mem_cons_of_mem _ hx)
      by_cases hid : m.id = l.id
      · have hm := List.inj_on_of_nodup_map hids (hsub m (List.mem_cons_self ..)) hl hid
        rw [List.filter_cons_of_neg (by simpa using hid), hls, hm]
        unfold hands
        rw [List.flatMap_cons, hhand, ite_self, List.nil_append]
      · rw [List.filter_cons_of_pos (by simpa using hid)]
        unfold hands at hls ⊢
        rw [List.flatMap_cons, List.flatMap_cons, hls]
  exact hkept loops fun _ h => h

end Loop

/-! ## Audiences -/

namespace Audience

/-- All listeners, in the order of their inboxes. -/
def listeners (v : Audience μ) : List Listener := v.world.inboxes.map Inbox.listener

/-- How many lines a loop has logged. -/
def countOf (v : Audience μ) (loop : Nat) : Nat := (v.logged.filter (·.loop = loop)).length

/-- What has been logged for a listener. -/
def linesOf (v : Audience μ) (listener : Nat) : List Line :=
  (v.logged.filter (·.listener = listener)).map Spoken.line

/-- What the loop of a listener has in hand. -/
def handOf (v : Audience μ) (listener : Nat) : List Text := Loop.hands v.world.loops listener

/-- Loops keep to themselves, and keep count. -/
structure Orderly (v : Audience μ) : Prop where
  ids : (v.world.loops.map Loop.id).Nodup
  ears : (v.world.loops.map Loop.ear).Nodup
  listeners : (v.listeners.map Listener.id).Nodup
  started : ∀ l ∈ v.world.loops, l.id < v.world.started
  listens : ∀ l ∈ v.world.loops, l.isLast = false ∧ ∃ listener ∈ v.listeners, ∃ hearing,
    l.job = .listen listener hearing (v.countOf l.id)
  endings : ∀ id n, (id, .heard n) ∈ v.world.endings →
    id < v.world.started ∧ (∀ l ∈ v.world.loops, l.id ≠ id) ∧ n = v.countOf id
  spoken : ∀ s ∈ v.logged, s.loop < v.world.started ∧ ∃ listener ∈ v.listeners,
    listener.id = s.listener

variable {u v : Audience μ}

/-- Nothing happens to any loop. -/
theorem Orderly.congr (h : Orderly u) (hloops : v.world.loops = u.world.loops)
    (hstarted : v.world.started = u.world.started) (hendings : v.world.endings = u.world.endings)
    (hlogged : v.logged = u.logged) (hmore : ∀ l ∈ u.listeners, l ∈ v.listeners)
    (hnodup : (v.listeners.map Listener.id).Nodup) : Orderly v := by
  have hcount : ∀ id, v.countOf id = u.countOf id := fun id => by unfold countOf; rw [hlogged]
  refine ⟨hloops ▸ h.ids, hloops ▸ h.ears, hnodup, ?_, ?_, ?_, ?_⟩
  · rw [hloops, hstarted]
    exact h.started
  · intro l hl
    rw [hloops] at hl
    obtain ⟨hshared, listener, hlistener, hearing, hjob⟩ := h.listens l hl
    rw [hcount]
    exact ⟨hshared, listener, hmore listener hlistener, hearing, hjob⟩
  · intro id n he
    rw [hendings] at he
    rw [hloops, hstarted, hcount]
    exact h.endings id n he
  · intro s hs
    rw [hlogged] at hs
    obtain ⟨hlt, listener, hlistener, hid⟩ := h.spoken s hs
    rw [hstarted]
    exact ⟨hlt, listener, hmore listener hlistener, hid⟩

/-- A loop is started on a listener that nobody spins on. -/
theorem Orderly.spin (h : Orderly v) {i : Inbox} (hi : i ∈ v.world.inboxes)
    (hfree : ∀ l ∈ v.world.loops, l.ear ≠ some i.listener.id) (signal : Nat) :
    Orderly { v with world := (v.world.spinListener i.listener signal).2 } := by
  have hsilent : v.countOf v.world.started = 0 := by
    unfold countOf
    rw [List.length_eq_zero_iff, List.filter_eq_nil_iff]
    intro s hs hloop
    have hlt := (h.spoken s hs).1
    have hloop := of_decide_eq_true hloop
    omega
  refine ⟨?_, ?_, h.listeners, ?_, ?_, ?_, ?_⟩
  · show ((v.world.loops ++ [_]).map Loop.id).Nodup
    rw [List.map_append, List.nodup_append]
    refine ⟨h.ids, List.nodup_singleton _, fun a ha b hb hab => ?_⟩
    obtain ⟨l, hl, rfl⟩ := List.mem_map.mp ha
    have hlt := h.started l hl
    rw [hab, List.mem_singleton.mp hb] at hlt
    exact Nat.lt_irrefl _ hlt
  · show ((v.world.loops ++ [_]).map Loop.ear).Nodup
    rw [List.map_append, List.nodup_append]
    refine ⟨h.ears, List.nodup_singleton _, fun a ha b hb hab => ?_⟩
    obtain ⟨l, hl, rfl⟩ := List.mem_map.mp ha
    exact hfree l hl (hab.trans (List.mem_singleton.mp hb))
  · intro l hl
    rcases List.mem_append.mp hl with hold | hnew
    · exact Nat.lt_succ_of_lt (h.started l hold)
    · rw [List.mem_singleton.mp hnew]
      exact Nat.lt_succ_self _
  · intro l hl
    rcases List.mem_append.mp hl with hold | hnew
    · exact h.listens l hold
    · rw [List.mem_singleton.mp hnew]
      refine ⟨rfl, i.listener, List.mem_map_of_mem hi, .asking .looking, ?_⟩
      show Job.listen _ _ 0 = .listen _ _ (v.countOf v.world.started)
      rw [hsilent]
  · intro id n he
    obtain ⟨hlt, hnone, hn⟩ := h.endings id n he
    refine ⟨Nat.lt_succ_of_lt hlt, fun l hl => ?_, hn⟩
    rcases List.mem_append.mp hl with hold | hnew
    · exact hnone l hold
    · rw [List.mem_singleton.mp hnew]
      exact Nat.ne_of_gt hlt
  · intro s hs
    obtain ⟨hlt, hlistener⟩ := h.spoken s hs
    exact ⟨Nat.lt_succ_of_lt hlt, hlistener⟩

/-- A loop goes on, having said something or nothing. -/
theorem Orderly.assign (h : Orderly u) {l : Loop} (hl : l ∈ u.world.loops) {listener : Listener}
    {hearing hearing' : Hearing} {n : Nat} (hjob : l.job = .listen listener hearing n)
    {said : List Spoken} (hsaid : ∀ s ∈ said, s.loop = l.id ∧ s.listener = listener.id)
    (hloops : v.world.loops = u.world.loops.map
      (Loop.assign l.id (.listen listener hearing' (u.countOf l.id + said.length))))
    (hstarted : v.world.started = u.world.started) (hendings : v.world.endings = u.world.endings)
    (hlogged : v.logged = u.logged ++ said) (hlisteners : v.listeners = u.listeners) :
    Orderly v := by
  have hown : v.countOf l.id = u.countOf l.id + said.length := by
    have hall : said.filter (·.loop = l.id) = said :=
      List.filter_eq_self.mpr fun s hs => decide_eq_true (hsaid s hs).1
    unfold countOf
    rw [hlogged, List.filter_append, List.length_append, hall]
  have hothers : ∀ id, id ≠ l.id → v.countOf id = u.countOf id := by
    intro id hid
    have hnone : said.filter (·.loop = id) = [] := by
      rw [List.filter_eq_nil_iff]
      intro s hs hloop
      exact hid ((of_decide_eq_true hloop).symm.trans (hsaid s hs).1)
    unfold countOf
    rw [hlogged, List.filter_append, hnone, List.append_nil]
  have hmem : listener ∈ u.listeners := by
    obtain ⟨-, listener', hlistener', hearing', hjob'⟩ := h.listens l hl
    rw [hjob] at hjob'
    injection hjob' with heq
    exact heq ▸ hlistener'
  have hear : ({ l with job := .listen listener hearing' (u.countOf l.id + said.length) } :
      Loop).ear = l.ear := by
    unfold Loop.ear
    rw [hjob]
  refine ⟨?_, ?_, hlisteners ▸ h.listeners, ?_, ?_, ?_, ?_⟩
  · have hids : Loop.id ∘ Loop.assign l.id
        (.listen listener hearing' (u.countOf l.id + said.length)) = Loop.id :=
      funext fun m => Loop.assign_id ..
    rw [hloops, List.map_map, hids]
    exact h.ids
  · rw [hloops, Loop.ears_assign h.ids hl hear]
    exact h.ears
  · rw [hloops, hstarted]
    intro m' hm'
    obtain ⟨m, hm, rfl⟩ := List.mem_map.mp hm'
    rw [Loop.assign_id]
    exact h.started m hm
  · rw [hloops, hlisteners]
    intro m' hm'
    obtain ⟨m, hm, rfl⟩ := List.mem_map.mp hm'
    obtain ⟨hshared, hlistens⟩ := h.listens m hm
    refine ⟨(Loop.assign_isLast ..).trans hshared, ?_⟩
    by_cases hid : m.id = l.id
    · rw [List.inj_on_of_nodup_map h.ids hm hl hid, Loop.assign_self]
      exact ⟨listener, hmem, hearing', by rw [hown]⟩
    · rw [Loop.assign_of_ne hid, hothers _ hid]
      exact hlistens
  · rw [hloops, hstarted, hendings]
    intro id n he
    obtain ⟨hlt, hnone, hn⟩ := h.endings id n he
    refine ⟨hlt, fun m' hm' => ?_, ?_⟩
    · obtain ⟨m, hm, rfl⟩ := List.mem_map.mp hm'
      rw [Loop.assign_id]
      exact hnone m hm
    · rw [hothers id (hnone l hl).symm]
      exact hn
  · rw [hlogged, hstarted, hlisteners]
    intro s hs
    rcases List.mem_append.mp hs with hold | hnew
    · exact h.spoken s hold
    · obtain ⟨hloop, hlistener⟩ := hsaid s hnew
      rw [hloop, hlistener]
      exact ⟨h.started l hl, listener, hmem, rfl⟩

/-- A loop stops, and gives what it has counted. -/
theorem Orderly.stop (h : Orderly u) {l : Loop} (hl : l ∈ u.world.loops)
    (hloops : v.world.loops = u.world.loops.filter (·.id ≠ l.id))
    (hstarted : v.world.started = u.world.started)
    (hendings : v.world.endings = u.world.endings ++ [(l.id, .heard (u.countOf l.id))])
    (hlogged : v.logged = u.logged) (hlisteners : v.listeners = u.listeners) : Orderly v := by
  have hcount : ∀ id, v.countOf id = u.countOf id := fun id => by unfold countOf; rw [hlogged]
  have hsub : ∀ m ∈ v.world.loops, m ∈ u.world.loops ∧ m.id ≠ l.id := by
    intro m hm
    rw [hloops] at hm
    obtain ⟨hm, hid⟩ := List.mem_filter.mp hm
    exact ⟨hm, of_decide_eq_true hid⟩
  refine ⟨?_, ?_, hlisteners ▸ h.listeners, ?_, ?_, ?_, ?_⟩
  · rw [hloops]
    exact h.ids.sublist (List.filter_sublist.map _)
  · rw [hloops]
    exact h.ears.sublist (List.filter_sublist.map _)
  · intro m hm
    rw [hstarted]
    exact h.started m (hsub m hm).1
  · intro m hm
    rw [hcount, hlisteners]
    exact h.listens m (hsub m hm).1
  · intro id n he
    rw [hendings] at he
    rw [hstarted, hcount]
    rcases List.mem_append.mp he with hold | hnew
    · obtain ⟨hlt, hnone, hn⟩ := h.endings id n hold
      exact ⟨hlt, fun m hm => hnone m (hsub m hm).1, hn⟩
    · obtain ⟨hid, hn⟩ := Prod.mk.inj (List.mem_singleton.mp hnew)
      injection hn with hn
      subst hid
      exact ⟨h.started l hl, fun m hm => (hsub m hm).2, hn⟩
  · intro s hs
    rw [hlogged] at hs
    rw [hstarted, hlisteners]
    exact h.spoken s hs

/-! ## Steps of loops -/

/-- A listener finds its own inbox. -/
theorem Orderly.inbox?_eq (h : Orderly v) {i : Inbox} (hi : i ∈ v.world.inboxes) :
    v.world.inbox? i.listener = some i := by
  have hnodup : (v.world.inboxes.map fun i => i.listener.id).Nodup := by
    have hlisteners := h.listeners
    unfold Audience.listeners at hlisteners
    rw [List.map_map] at hlisteners
    exact hlisteners
  unfold World.inbox?
  cases hfound : v.world.inboxes.find? (·.listener.id = i.listener.id) with
  | none => exact absurd (decide_eq_true rfl) (List.find?_eq_none.mp hfound i hi)
  | some j =>
    have hid : j.listener.id = i.listener.id := by simpa using List.find?_some hfound
    rw [List.inj_on_of_nodup_map hnodup (List.mem_of_find?_eq_some hfound) hi hid]

/-- Whatever a loop does next is one of four things. -/
theorem Orderly.turned (h : Orderly v) {loop : Loop} (hloop : loop ∈ v.world.loops)
    {w : World (Graph (Arrival μ)) μ} (hw : w ∈ v.world.turns loop) :
    ∃ i ∈ v.world.inboxes, ∃ hearing,
      loop.job = .listen i.listener hearing (v.countOf loop.id) ∧
        World.Turned v.world loop i (v.countOf loop.id) hearing w := by
  obtain ⟨hshared, listener, hlistener, hearing, hjob⟩ := h.listens loop hloop
  obtain ⟨i, hi, rfl⟩ := List.mem_map.mp hlistener
  exact ⟨i, hi, hearing, hjob, World.turned_of_turn hjob hshared (h.inbox?_eq hi) hw⟩

/-- What a node logs is a line of the process log, whether or not anybody watches. -/
theorem journal_log (g : Graph (Arrival μ)) (logger : Logger) (text : String) :
    (g.log logger (.info text)).journal = g.journal ++ [⟨.info, logger.name, text⟩] := by
  unfold Graph.log
  show ((g.note _).broadcast _ _ _ _).journal = _
  unfold Graph.broadcast
  split
  · split
    · split <;> rfl
    · rfl
  · rfl

/-- A loop logs the line for what it has in hand. -/
theorem spokenBy_turned {loop : Loop} {i : Inbox} {hearing : Hearing} {n : Nat}
    {w : World (Graph (Arrival μ)) μ} (hjob : loop.job = .listen i.listener hearing n)
    (h : World.Turned v.world loop i n hearing w) :
    spokenBy loop v.world.net.journal w.net.journal =
      loop.job.hand.map fun text => ⟨loop.id, i.listener.id, i.listener.line text⟩ := by
  unfold spokenBy
  rw [hjob]
  cases h with
  | say text =>
    show (List.drop _ (v.world.net.log _ _).journal).map _ = _
    rw [journal_log, List.drop_left]
    rfl
  | wait => exact congrArg (List.map _) List.drop_length
  | take => exact congrArg (List.map _) List.drop_length
  | stop => exact congrArg (List.map _) List.drop_length

/-- Whatever a loop does is at most one entry that is logged. -/
theorem steps_turned {loop : Loop} {i : Inbox} {hearing : Hearing} {n : Nat}
    {w : World (Graph (Arrival μ)) μ} (hjob : loop.job = .listen i.listener hearing n)
    (h : World.Turned v.world loop i n hearing w) :
    Audit.Steps v.audit (v.proceed loop w).audit := by
  unfold proceed letters
  rw [hjob]
  cases h with
  | say text =>
    exact .single (.operation (.log v.audit i.listener.logger
      (.info (Listener.heard i.listener.name text.data))))
  | wait => exact .refl
  | take => exact .refl
  | stop => exact .refl

theorem Orderly.turn (h : Orderly v) {loop : Loop} (hloop : loop ∈ v.world.loops)
    {w : World (Graph (Arrival μ)) μ} (hw : w ∈ v.world.turns loop) :
    Orderly (v.proceed loop w) := by
  obtain ⟨i, hi, hearing, hjob, hturned⟩ := h.turned hloop hw
  unfold proceed
  rw [spokenBy_turned hjob hturned]
  have hsaid : ∀ s ∈ loop.job.hand.map fun text =>
      (⟨loop.id, i.listener.id, i.listener.line text⟩ : Spoken),
      s.loop = loop.id ∧ s.listener = i.listener.id := by
    intro s hs
    obtain ⟨text, -, rfl⟩ := List.mem_map.mp hs
    exact ⟨rfl, rfl⟩
  have hlisteners : ∀ texts : Channel Text, (v.world.setTexts i.listener texts).inboxes.map
      Inbox.listener = v.listeners := by
    intro texts
    show (v.world.inboxes.map _).map Inbox.listener = v.world.inboxes.map Inbox.listener
    rw [List.map_map]
    apply List.map_congr_left
    intro j _
    show (if j.listener.id = i.listener.id then { j with texts } else j).listener = j.listener
    split <;> rfl
  cases hturned with
  | wait hopen =>
    rw [hjob] at hsaid ⊢
    exact h.assign hloop hjob hsaid rfl rfl rfl rfl rfl
  | take text rest hitems =>
    rw [hjob] at hsaid ⊢
    exact h.assign hloop hjob hsaid rfl rfl rfl rfl (hlisteners _)
  | say text =>
    rw [hjob] at hsaid ⊢
    exact h.assign hloop hjob hsaid rfl rfl rfl rfl rfl
  | stop stage hwhy =>
    rw [hjob]
    exact h.stop hloop rfl rfl rfl (List.append_nil _) rfl

/-! ## Nodes that begin to listen -/

/-- The inbox of a node that begins to listen under a number. -/
def freshInbox (node : Node) (id : Nat) : Inbox where
  listener := ⟨node.name, ⟨node.id, node.name⟩,
    .subscriber (Name.resolve node.name Listener.topic) id⟩

/-- The subscription of a node that begins to listen under a number. -/
def freshGrant (node : Node) (id : Nat) : Grant (Intake (Arrival μ)) where
  node
  asked := Listener.topic
  handle := .subscriber (Name.resolve node.name Listener.topic) id
  item := { type := Text.type, capacity := Listener.queueSize, callback := .chatter }

/-- A node begins to listen under the next number, or is refused. -/
theorem listen_cases (v : Audience μ) (node : Node) :
    let b := v.audit.subscribe node Listener.topic Listener.queueSize Text.type .chatter
    (v.world.listen node).2 = { v.world with net := b.graph } ∧ b.ledger = v.ledger ∨
    (v.world.listen node).2 = { v.world with
        net := b.graph
        inboxes := v.world.inboxes ++ [freshInbox node (v.world.net.lastId + 1)] } ∧
      b.ledger = v.ledger.subscribe (freshGrant node (v.world.net.lastId + 1)) := by
  have hsubscribe : Middleware.subscribe v.world.net node Listener.topic Listener.queueSize
      Text.type Arrival.chatter [] = v.world.net.addSubscriber node Listener.topic
        Listener.queueSize Text.type Arrival.chatter := Graph.orDropping_nil _
  unfold World.listen Listener.subscribe Audit.subscribe
  rw [hsubscribe]
  unfold Graph.addSubscriber
  cases hbase : Graph.ensureTopic { v.world.net with lastId := v.world.net.lastId + 1 }
      (Name.resolve node.name Listener.topic) Text.type.name Text.type.md5 with
  | error e =>
    refine .inl ?_
    simp only [Watch.audit, hbase, and_self]
  | ok g =>
    refine .inr ?_
    simp only [Watch.audit, hbase]
    exact ⟨rfl, rfl⟩

theorem Orderly.listen (h : Orderly v) (hbound : ∀ l ∈ v.listeners, l.id ≤ v.world.net.lastId)
    (node : Node) (ledger : Ledger (Arrival μ)) :
    Orderly { v with world := (v.world.listen node).2, ledger } := by
  rcases v.listen_cases node with ⟨hworld, -⟩ | ⟨hworld, -⟩
  · rw [hworld]
    exact h.congr rfl rfl rfl rfl (fun _ hl => hl) h.listeners
  · rw [hworld]
    have hlisteners : (v.world.inboxes ++ [freshInbox node (v.world.net.lastId + 1)]).map
        Inbox.listener = v.listeners ++ [(freshInbox node (v.world.net.lastId + 1)).listener] :=
      List.map_append
    refine h.congr rfl rfl rfl rfl (fun l hl => ?_) ?_
    · show l ∈ (v.world.inboxes ++ [_]).map Inbox.listener
      rw [hlisteners]
      exact List.mem_append_left _ hl
    · show (((v.world.inboxes ++ [_]).map Inbox.listener).map Listener.id).Nodup
      rw [hlisteners, List.map_append, List.nodup_append]
      refine ⟨h.listeners, List.nodup_singleton _, fun a ha b hb hab => ?_⟩
      obtain ⟨l, hl, rfl⟩ := List.mem_map.mp ha
      have hle := hbound l hl
      rw [hab, List.mem_singleton.mp hb] at hle
      exact Nat.not_succ_le_self _ hle

/-- Nobody stops or begins to listen when texts are handed over. -/
theorem listeners_handed {w : World (Graph (Arrival μ)) μ} {id : Nat} {texts : List Text}
    {gone : Bool} (h : World.Handed v.world w id texts gone) :
    w.inboxes.map Inbox.listener = v.listeners := by
  rw [h.inboxes, List.map_map]
  exact List.map_congr_left fun i _ => Inbox.handed_listener ..

theorem Orderly.step (h : Orderly u) (hbound : ∀ l ∈ u.listeners, l.id ≤ u.world.net.lastId)
    (hstep : Step u v) : Orderly v := by
  cases hstep with
  | operation hb => exact h.congr rfl rfl rfl rfl (fun _ hl => hl) h.listeners
  | deliver feed hfeed hw =>
    obtain ⟨gone, hhanded, -⟩ := World.handed_of_deliver hw
    have hlisteners := listeners_handed hhanded
    refine h.congr hhanded.loops hhanded.started hhanded.endings rfl ?_ ?_
    · unfold Audience.listeners at hlisteners ⊢
      rw [hlisteners]
      exact fun _ hl => hl
    · unfold Audience.listeners at hlisteners ⊢
      rw [hlisteners]
      exact h.listeners
  | listen node _ => exact h.listen hbound node _
  | spin i signal hi hfree => exact h.spin hi hfree signal
  | turn loop hloop w hw => exact h.turn hloop hw
  | newSignal => exact h.congr rfl rfl rfl rfl (fun _ hl => hl) h.listeners
  | signalAct signal action =>
    unfold World.signalAct
    split
    · exact h.congr rfl rfl rfl rfl (fun _ hl => hl) h.listeners
    · exact h
  | hold holds => exact h.congr rfl rfl rfl rfl (fun _ hl => hl) h.listeners

end Audience

end NodeGraph
