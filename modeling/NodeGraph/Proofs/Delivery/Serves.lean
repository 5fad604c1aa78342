import NodeGraph.Proofs.Audit.Beat
import NodeGraph.Proofs.Delivery.Retain

/-!
# A feed and its subscription

A subscription leaves the topic when its handle or its node goes, but its feed
stays until the thread has dealt with all that was queued. So a feed is not
compared with the registry but with the ledger, which forgets nobody.

> `Serves`: the queue of a feed has kept what went out on the topic while the
> subscription stood (`Kept`), what was handed over is what could be read of what
> was taken, and the thread comes to its end only when nothing is left.

Four things happen to a feed: it is made, pushed to, closed, and its thread goes
on with it. Each keeps `Serves`, with the same thing done to the grant.
`advance?_cases` says once what a thread can do next.
-/

namespace NodeGraph

open Wire (Bytes)

variable {ε : Type}

/-- The payloads that went out while the subscription stood. -/
def Intake.payloads (s : Intake ε) : List Bytes := s.window.map Letter.payload

/-- The values that the subscriber should be handed for some payloads: what
cannot be read is passed over. -/
def Intake.readAll (s : Intake ε) (payloads : List Bytes) : List ε :=
  payloads.filterMap fun payload => (s.read payload).toOption

theorem Intake.readAll_concat (s : Intake ε) (payloads : List Bytes) (payload : Bytes) :
    s.readAll (payloads ++ [payload]) =
      s.readAll payloads ++ (s.read payload).toOption.toList := by
  unfold readAll
  rw [List.filterMap_append]
  cases h : s.read payload with
  | ok value => simp [h, Except.toOption]
  | error fault => simp [h, Except.toOption]

/-- The feed of a grant, which stands or does not. -/
structure Serves (stands : Bool) (c : Grant (Intake ε)) (f : Feed ε) : Prop where
  topic : f.topic = c.target
  capacity : f.queue.capacity = c.item.capacity
  receive : f.receive = c.item.read
  senders : f.queue.channel.senders = if stands then 1 else 0
  kept : ∃ places, Kept c.item.capacity c.item.payloads c.item.taken f.pending places
  /-- The last payload taken may still be held, all before it are done with. -/
  heard : ∃ done, c.item.taken = done ++ f.held.toList ∧ c.item.heard = c.item.readAll done
  ended : f.ended = true → stands = false ∧ f.pending = [] ∧ f.held = none

/-! ## The next step of a thread -/

/-- What a thread can do next: deal with what it holds, take the oldest payload,
or end. -/
theorem Feed.advance?_cases {f next : Feed ε} (h : f.advance? = some next) :
    f.ended = false ∧
    ((∃ payload, f.held = some payload ∧ next = f.finish) ∨
      (∃ payload rest, f.held = none ∧ f.pending = payload :: rest ∧
        next = { f with
          queue := { f.queue with channel := { f.queue.channel with items := rest } }
          held := some payload }) ∨
      (f.held = none ∧ f.pending = [] ∧ f.queue.channel.senders = 0 ∧
        next = { f with ended := true })) := by
  unfold Feed.advance? at h
  split at h
  next => exact absurd h (by simp)
  next hended =>
    refine ⟨Bool.eq_false_iff.mpr hended, ?_⟩
    cases hheld : f.held with
    | some payload =>
      rw [hheld] at h
      injection h with h
      exact .inl ⟨payload, rfl, h.symm⟩
    | none =>
      rw [hheld] at h
      refine .inr ?_
      -- only a thread that holds nothing looks at its queue
      cases hitems : f.queue.channel.items with
      | cons payload rest =>
        have htake : f.take? = some
            { f with
              queue := { f.queue with channel := { f.queue.channel with items := rest } }
              held := some payload } := by
          simp only [Feed.take?, hheld, Lossy.receive, Channel.receive, hitems]
        simp only [htake] at h
        injection h with h
        exact .inl ⟨payload, rest, rfl, hitems, h.symm⟩
      | nil =>
        have htake : f.take? = none := by
          unfold Feed.take? Lossy.receive Channel.receive
          rw [hheld, hitems]
          by_cases hd : f.queue.channel.isDisconnected = true <;> simp [hd]
        simp only [htake] at h
        split at h
        next hspent =>
          injection h with h
          unfold Feed.isSpent Channel.isDisconnected at hspent
          rw [Bool.and_eq_true, decide_eq_true_iff] at hspent
          exact .inr ⟨rfl, hitems, hspent.2, h.symm⟩
        next => exact absurd h (by simp)

theorem Feed.id_of_advance? {f next : Feed ε} (h : f.advance? = some next) : next.id = f.id := by
  rcases Feed.advance?_cases h with ⟨-, ⟨_, -, rfl⟩ | ⟨_, _, -, -, rfl⟩ | ⟨-, -, -, rfl⟩⟩
  all_goals rfl

/-- A thread takes payloads off the front of the queue and adds none. -/
theorem Feed.pending_of_advance? {f next : Feed ε} (h : f.advance? = some next) :
    next.pending <:+ f.pending := by
  rcases Feed.advance?_cases h with ⟨-, ⟨_, -, rfl⟩ | ⟨p, rest, -, hp, rfl⟩ | ⟨-, -, -, rfl⟩⟩
  · exact List.suffix_refl _
  · rw [hp]
    exact List.suffix_cons p rest
  · exact List.suffix_refl _

/-- A thread with something left to deal with always has a next step. -/
theorem Feed.advance?_isSome {f : Feed ε} (hended : f.ended = false)
    (h : f.held ≠ none ∨ f.pending ≠ []) : f.advance?.isSome = true := by
  unfold Feed.advance?
  rw [if_neg (Bool.eq_false_iff.mp hended)]
  cases hheld : f.held with
  | some payload => rfl
  | none =>
    have hpending : f.queue.channel.items ≠ [] := h.resolve_left fun hne => hne hheld
    cases hitems : f.queue.channel.items with
    | nil => exact absurd hitems hpending
    | cons payload rest =>
      simp [Feed.take?, hheld, Lossy.receive, Channel.receive, hitems]

/-! ## What happens to one feed -/

namespace Serves

variable {stands : Bool} {c : Grant (Intake ε)} {f : Feed ε}

/-- A subscription begins with nothing. -/
theorem start (hnew : c.item.window = [] ∧ c.item.taken = [] ∧ c.item.heard = []) :
    Serves true c c.feed := by
  obtain ⟨hwindow, htaken, hheard⟩ := hnew
  refine ⟨rfl, rfl, rfl, rfl, ⟨[], ?_⟩, ⟨[], ?_, ?_⟩, ?_⟩
  · rw [Intake.payloads, hwindow, htaken]
    exact Kept.start c.item.capacity
  · rw [htaken]
    rfl
  · rw [hheard]
    rfl
  · intro hended
    exact absurd hended Bool.false_ne_true

/-- A letter reaches a subscription that stands. -/
theorem push (h : Serves true c f) (letter : Letter) :
    Serves true (c.update (·.witness letter)) (f.push letter.payload) := by
  obtain ⟨places, hkept⟩ := h.kept
  rw [← h.capacity] at hkept
  refine ⟨h.topic, ?_, h.receive, ?_, ⟨places, ?_⟩, h.heard, ?_⟩
  · show (f.queue.send letter.payload).capacity = _
    rw [Lossy.capacity_send]
    exact h.capacity
  · show (f.queue.send letter.payload).channel.senders = _
    rw [Lossy.senders_send]
    exact h.senders
  · have hsent := hkept.send letter.payload
    rw [h.capacity] at hsent
    show Kept c.item.capacity ((c.item.window ++ [letter]).map Letter.payload) _ _ _
    rw [List.map_append]
    exact hsent
  · -- a thread whose sender is there has not come to its end
    intro hended
    exact absurd (h.ended hended).1 (by simp)

/-- A subscription that goes, or has gone, leaves its feed with all it has. -/
theorem close (h : Serves stands c f) : Serves false c f.close := by
  refine ⟨h.topic, h.capacity, h.receive, ?_, h.kept, h.heard, ?_⟩
  · -- whoever has gone before has no sender to give away
    show f.queue.channel.senders - 1 = 0
    rw [h.senders]
    cases stands <;> rfl
  · intro hended
    exact ⟨rfl, (h.ended hended).2⟩

/-- A thread goes on with its feed. -/
theorem advance {next : Feed ε} (h : Serves stands c f) (hnext : f.advance? = some next) :
    Serves stands (c.update (·.advance f)) next := by
  obtain ⟨done, htaken, hheard⟩ := h.heard
  obtain ⟨places, hkept⟩ := h.kept
  rcases Feed.advance?_cases hnext with ⟨hended, ⟨payload, hheld, rfl⟩ |
    ⟨payload, rest, hheld, hpending, rfl⟩ | ⟨hheld, hpending, hsenders, rfl⟩⟩
  · -- the held payload is done with, and heard if it can be read
    have hgrant : c.update (·.advance f) =
        { c with item :=
          { c.item with heard := c.item.heard ++ (f.receive payload).toOption.toList } } := by
      unfold Grant.update Intake.advance
      rw [hheld]
    rw [hgrant]
    refine ⟨h.topic, h.capacity, h.receive, h.senders, ⟨places, hkept⟩,
      ⟨c.item.taken, (List.append_nil _).symm, ?_⟩, ?_⟩
    · show c.item.heard ++ _ = c.item.readAll c.item.taken
      rw [htaken, hheld, hheard, h.receive]
      exact (Intake.readAll_concat c.item done payload).symm
    · intro hend
      exact absurd (hended.symm.trans hend) Bool.false_ne_true
  · -- the oldest of those that wait is taken, and nothing is held before it
    have hgrant : c.update (·.advance f) =
        { c with item := { c.item with taken := c.item.taken ++ [payload] } } := by
      unfold Grant.update Intake.advance
      rw [hheld, hpending]
      rfl
    rw [hgrant]
    rw [hpending] at hkept
    refine ⟨h.topic, h.capacity, h.receive, h.senders, ⟨_, hkept.take⟩, ⟨done, ?_, hheard⟩, ?_⟩
    · show c.item.taken ++ [payload] = done ++ [payload]
      rw [htaken, hheld]
      show (done ++ []) ++ [payload] = _
      rw [List.append_nil]
    · intro hend
      exact absurd (hended.symm.trans hend) Bool.false_ne_true
  · -- the thread ends, which it does only without a sender
    have hgrant : c.update (·.advance f) = c := by
      unfold Grant.update Intake.advance
      simp only [hheld, hpending, List.take_nil, List.append_nil]
    rw [hgrant]
    refine ⟨h.topic, h.capacity, h.receive, h.senders, ⟨places, hkept⟩, ⟨done, htaken, hheard⟩, ?_⟩
    intro _
    refine ⟨?_, hpending, hheld⟩
    rw [h.senders] at hsenders
    cases stands
    · rfl
    · exact absurd hsenders Nat.one_ne_zero

end Serves

end NodeGraph
