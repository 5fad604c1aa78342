import NodeGraph.Proofs.Delivery.Watch

/-!
# The delivery guarantee

> `delivery`: at every moment of every run, each subscription ever granted has a
> feed that has `Delivered` what it owes, and no drop of any handle takes
> anything off any feed.

`Delivered` speaks of the letters that went out on the topic while the
subscription stood (`Intake.payloads`), of those that its thread has taken and of
those that wait. All of it is `Kept` and `Told`, put together.
-/

namespace NodeGraph

variable {μ : Type}

namespace Watch

/-- What a subscription may rely on. -/
structure Delivered (v : Watch μ) (c : Grant (Intake (Arrival μ))) (f : Feed (Arrival μ)) :
    Prop where
  /-- What was taken and then what waits is found in what went out, each payload
  at a place of its own and in order. A payload without a place was followed by
  as many newer ones as the queue holds. -/
  order : ∃ places : List Nat, places.Pairwise (· < ·) ∧
    places.map (c.item.payloads[·]?) = (c.item.taken ++ f.pending).map some ∧
    ∀ i < c.item.payloads.length, i ∉ places →
      i + c.item.capacity < c.item.payloads.length
  newest : f.pending <:+ c.item.payloads
  bounded : 0 < c.item.capacity → f.pending.length ≤ c.item.capacity
  unlimited : c.item.capacity = 0 → c.item.taken ++ f.pending = c.item.payloads
  /-- All that was taken has been read and handed over if it could be, in order,
  but for the payload that is still held. -/
  heard : ∃ done, c.item.taken = done ++ f.held.toList ∧ c.item.heard = c.item.readAll done
  received : v.receivedBy c.id = c.item.heard.filterMap Arrival.value?
  /-- The thread comes to its end only after the subscription is gone. -/
  ended : f.ended = true → v.ledger.isOpen c = false ∧ f.pending = [] ∧ f.held = none
  /-- Nothing stops the thread before that, but being held up. -/
  going : f.held ≠ none ∨ f.pending ≠ [] → c.id ∉ v.world.holds.paused →
    v.world.holds.reports = false → (v.world.deliver? f).isSome = true

variable {v : Watch μ}

/-- A feed that serves its grant has delivered. -/
theorem Delivered.of_serves {c : Grant (Intake (Arrival μ))} {f : Feed (Arrival μ)}
    (hid : f.id = c.id) (h : Serves (v.ledger.isOpen c) c f)
    (htold : v.receivedBy c.id = c.item.heard.filterMap Arrival.value?) : Delivered v c f := by
  obtain ⟨places, hkept⟩ := h.kept
  refine ⟨⟨_, hkept.increasing_all, hkept.found_all, fun i hi hnot => hkept.lost_all hi hnot⟩,
    hkept.suffix, hkept.short, hkept.whole, h.heard, htold, h.ended, ?_⟩
  intro hbusy hpaused hreports
  have hended : f.ended = false := by
    rw [Bool.eq_false_iff]
    intro hended
    obtain ⟨-, hpending, hheld⟩ := h.ended hended
    exact hbusy.elim (fun hne => hne hheld) fun hne => hne hpending
  exact World.deliver?_isSome hended (hid ▸ hpaused) hreports hbusy

/-- What a drop leaves of a feed: everything but the hope for more. -/
theorem feeds_kept (g : Graph (Arrival μ)) (handle : Handle) :
    ((g.drop handle).feeds.map fun f => (f.id, f.pending, f.held, f.ended)) =
      g.feeds.map fun f => (f.id, f.pending, f.held, f.ended) := by
  rw [feeds_drop]
  unfold Feeds.close
  rw [List.map_map]
  apply List.map_congr_left
  intro f _
  simp only [Function.comp_apply]
  split <;> rfl

/-- **The delivery guarantee.** However operations of any nodes and steps of the
delivery threads follow upon each other, every subscription that was ever granted
has a feed of its own which has delivered; and no handle that is dropped, be it
the subscription's or its node's, takes away what waits or what is held. -/
theorem delivery (h : v.Reachable) :
    (∀ c ∈ v.ledger.subscriptions, ∃ f ∈ v.world.net.feeds, f.id = c.id ∧ Delivered v c f) ∧
    ∀ handle, ((v.world.net.drop handle).feeds.map fun f => (f.id, f.pending, f.held, f.ended)) =
      v.world.net.feeds.map fun f => (f.id, f.pending, f.held, f.ended) := by
  obtain ⟨haudit, htold⟩ := h.sound
  refine ⟨?_, feeds_kept v.world.net⟩
  intro c hc
  obtain ⟨f, hf, hid, hserves⟩ := haudit.fed.exists_feed hc
  exact ⟨f, hf, hid, Delivered.of_serves hid hserves
    (htold.received _ (Ledger.exists_hearing hc))⟩

/-- Lets the delivery thread of a subscription take its next step, if it has
one. -/
def turn (v : Watch μ) (id : Nat) : Watch μ :=
  match v.world.net.feeds.find? (·.id = id) with
  | none => v
  | some feed =>
    match v.world.deliver? feed with
    | none => v
    | some w => ⟨w, v.ledger.turn feed⟩

theorem reachable_turn (h : v.Reachable) (id : Nat) : (v.turn id).Reachable := by
  unfold turn
  split
  next => exact h
  next feed hfeed =>
    split
    next => exact h
    next w hw =>
      obtain ⟨u, hu, hsteps⟩ := h
      exact ⟨u, hu, hsteps.tail (.deliver v feed (List.mem_of_find?_eq_some hfeed) hw)⟩

theorem reachable_use (h : v.Reachable) {b : Audit (Arrival μ)}
    (hb : Audit.Operation v.audit b) : (v.use b).Reachable := by
  obtain ⟨u, hu, hsteps⟩ := h
  exact ⟨u, hu, hsteps.tail (.operation v hb)⟩

/-- Two texts are sent to a queue that holds one, and the subscription is dropped
before its thread comes to take what is left. -/
def overrun : Watch String :=
  let node : Node := ⟨1, "/a"⟩
  let publisher : Publisher Text := ⟨3, 1, "/t", Text.type⟩
  let v : Watch String := ⟨{ net := {}, stamper := ⟨0, 0⟩ }, {}⟩
  let v := v.use (v.audit.register "a")
  let v := v.use (v.audit.subscribe node "t" 1 Text.type fun text => .value text.data)
  let v := v.use (v.audit.publish node "t" Text.type)
  let v := v.use (v.audit.send publisher ⟨"x"⟩)
  let v := v.use (v.audit.send publisher ⟨"y"⟩)
  let v := v.use (v.audit.drop (.subscriber "/t" 2))
  (v.turn 2).turn 2

theorem overrun_reachable : overrun.Reachable := by
  unfold overrun
  refine reachable_turn (reachable_turn (reachable_use (reachable_use (reachable_use
    (reachable_use (reachable_use (reachable_use ⟨_, ⟨rfl, rfl, rfl⟩, .refl⟩
      (.register _ "a"))
      (.subscribe _ ⟨1, "/a"⟩ "t" 1 Text.type _ ?_))
      (.publish _ ⟨1, "/a"⟩ "t" Text.type ?_))
      (.send _ ⟨⟨1, "/a"⟩, "t", .publisher "/t" 3, ⟨⟨3, 1, "/t", Text.type⟩⟩⟩ ⟨"x"⟩ ?_ ?_))
      (.send _ ⟨⟨1, "/a"⟩, "t", .publisher "/t" 3, ⟨⟨3, 1, "/t", Text.type⟩⟩⟩ ⟨"y"⟩ ?_ ?_))
      (.drop _ (.subscriber "/t" 2) ?_)) 2) 2
  · decide
  · decide
  · exact .head _
  · decide
  · exact .head _
  · decide
  · exact ⟨by decide, by decide⟩

/-- The newer text arrives all the same. -/
theorem overrun_delivered :
    overrun.Reachable ∧ (∃ c ∈ overrun.ledger.subscriptions,
      ∃ f ∈ overrun.world.net.feeds, f.id = c.id ∧ Delivered overrun c f) ∧
    overrun.receivedBy 2 = ["y"] := by
  have h := (delivery overrun_reachable).1
  have hlen : overrun.ledger.subscriptions.length = 1 := by decide +kernel
  obtain ⟨c, hc⟩ := List.length_eq_one_iff.mp hlen
  have hmem : c ∈ overrun.ledger.subscriptions := hc ▸ List.mem_singleton_self c
  exact ⟨overrun_reachable, ⟨c, hmem, h c hmem⟩, by decide +kernel⟩

end Watch

end NodeGraph
