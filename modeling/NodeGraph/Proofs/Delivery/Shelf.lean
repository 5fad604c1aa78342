import Mathlib.Data.List.DropRight
import NodeGraph.Proofs.Delivery.Race
import NodeGraph.Proofs.Delivery.Retain

/-!
# A lossy queue is a shelf that drops the oldest

The ends of a lossy queue are held by those who use it. A sender can be copied and be given
up, and each one has a receiver of its own, for its evictions. Sending would fail if there
were no receiver left. Here everything that is done to the queue is done to its end before
the next thing begins.

A `Shelf` is what one would like to think of: a list that keeps the last `k` items, and the
senders that are left.

> `Agrees`: the queue has the items of the shelf and as many senders as are left there, there
> is one receiver more than senders, and there is no more in it than fits.
>
> `Agrees.act`: whatever is done to both of them, both give the same and agree again.
>
> `shelf_refined`: so a queue and a shelf cannot be told apart, however long they are used.
> Nothing that was sent is given back, an unlimited queue loses nothing, and a sender evicts
> once at most.
-/

namespace NodeGraph

variable {α : Type}

/-! ## The sender's loop -/

namespace Lossy

/-- Where a sender stands that has just pushed an item and makes so many steps. -/
def sending (q : Lossy α) (a : α) : Nat → Phase × Lossy α
  | 0 => (.measuring, q.push a)
  | n + 1 => Phase.step (q.sending a n).2 (q.sending a n).1

theorem sending_resting {q q' : Lossy α} {a : α} {n : Nat}
    (h : q.sending a n = (.resting, q')) (m : Nat) :
    q.sending a (n + m) = (.resting, q') := by
  induction m with
  | zero => exact h
  | succ m ih =>
    show Phase.step (q.sending a (n + m)).2 (q.sending a (n + m)).1 = _
    rw [ih]
    rfl

/-- A sender that finds enough room stops at once. -/
theorem sending_of_room {q : Lossy α} {a : α} (h : ¬ (q.push a).isOverfull = true) :
    q.sending a 1 = (.resting, q.send a) := by
  have hmeasured : q.sending a 1 = (.resting, q.push a) := by
    show ((if (q.push a).isOverfull then Phase.evicting else .resting), q.push a) = _
    rw [if_neg h]
  rw [hmeasured]
  unfold send
  by_cases hzero : (q.push a).capacity = 0
  · simp only [if_pos hzero]
  · have hle : (q.items ++ [a]).length ≤ q.capacity := by
      rw [isOverfull_iff, not_and, Nat.not_lt] at h
      exact h (Nat.pos_of_ne_zero hzero)
    have hall : trim q.capacity (q.items ++ [a]) = q.items ++ [a] := by
      rw [trim_eq_drop, Nat.sub_eq_zero_of_le hle, List.drop_zero]
    simp only [if_neg hzero]
    show (Phase.resting, q.push a) =
      (Phase.resting, (q.push a).holding (trim q.capacity (q.items ++ [a])))
    rw [hall]
    rfl

/-- A sender that finds a full queue evicts the oldest item, and then there is room. -/
theorem sending_of_full {q : Lossy α} {a b : α} {rest : List α} (hpos : 0 < q.capacity)
    (hitems : q.items = b :: rest) (hfull : q.items.length = q.capacity) :
    q.sending a 1 = (.evicting, q.push a) ∧
      q.sending a 2 = (.measuring, (q.push a).holding (rest ++ [a])) ∧
      q.sending a 3 = (.resting, q.send a) := by
  have hpushed : (q.push a).items = b :: (rest ++ [a]) := by
    show q.items ++ [a] = _
    rw [hitems]
    rfl
  have hlength : (rest ++ [a]).length = q.capacity := by
    rw [← hfull, hitems, List.length_append]
    rfl
  have hover : (q.push a).isOverfull = true := by
    refine isOverfull_iff.mpr ⟨hpos, ?_⟩
    show q.capacity < (q.push a).items.length
    rw [hpushed, List.length_cons, hlength]
    exact Nat.lt_succ_self _
  have hone : q.sending a 1 = (.evicting, q.push a) := by
    show ((if (q.push a).isOverfull then Phase.evicting else .resting), q.push a) = _
    rw [if_pos hover]
  have htwo : q.sending a 2 = (.measuring, (q.push a).holding (rest ++ [a])) := by
    show Phase.step (q.sending a 1).2 (q.sending a 1).1 = _
    rw [hone]
    simp only [Phase.step, receive_of_cons hpushed]
  have hroom : ¬ ((q.push a).holding (rest ++ [a])).isOverfull = true := by
    rw [isOverfull_iff]
    rintro ⟨-, hlt⟩
    exact absurd hlength (Nat.ne_of_gt hlt)
  refine ⟨hone, htwo, ?_⟩
  show Phase.step (q.sending a 2).2 (q.sending a 2).1 = _
  rw [htwo]
  simp only [Phase.step, if_neg hroom]
  have hkept : trim q.capacity (q.push a).items = rest ++ [a] := by
    rw [trim_eq_drop, hpushed, List.length_cons, hlength, Nat.add_sub_cancel_left,
      List.drop_succ_cons, List.drop_zero]
  unfold send
  have hne : (q.push a).capacity ≠ 0 := Nat.ne_of_gt hpos
  simp only [if_neg hne]
  exact congrArg (fun items => (Phase.resting, (q.push a).holding items)) hkept.symm

/-- **A sender's loop ends, and evicts once at most,** if the queue was not overfull before:
after three steps at the latest the item is sent, and none but the second step can be an
eviction. -/
theorem sending_ends {q : Lossy α} (h : 0 < q.capacity → q.items.length ≤ q.capacity) (a : α) :
    (∃ n ≤ 3, q.sending a n = (.resting, q.send a)) ∧
      ∀ m, (q.sending a m).1 = .evicting → m = 1 := by
  by_cases hover : (q.push a).isOverfull = true
  · obtain ⟨hpos, hlt⟩ := isOverfull_iff.mp hover
    have hlength : (q.push a).items.length = q.items.length + 1 := List.length_append
    have hfull : q.items.length = q.capacity :=
      Nat.le_antisymm (h hpos) (Nat.le_of_lt_succ (Nat.lt_of_lt_of_eq hlt hlength))
    obtain ⟨b, rest, hitems⟩ := List.exists_cons_of_length_pos (hfull ▸ hpos)
    obtain ⟨hone, htwo, hthree⟩ := sending_of_full (q := q) (a := a) hpos hitems hfull
    refine ⟨⟨3, Nat.le_refl _, hthree⟩, fun m hm => ?_⟩
    match m with
    | 0 => exact absurd hm (by simp [sending])
    | 1 => rfl
    | 2 => exact absurd hm (by rw [htwo]; simp)
    | m + 3 =>
      rw [Nat.add_comm, sending_resting hthree] at hm
      exact absurd hm (by simp)
  · have hone := sending_of_room hover
    refine ⟨⟨1, by omega, hone⟩, fun m hm => ?_⟩
    match m with
    | 0 => exact absurd hm (by simp [sending])
    | m + 1 =>
      rw [Nat.add_comm, sending_resting hone] at hm
      exact absurd hm (by simp)

end Lossy

/-! ## What is done to a queue, and what it gives -/

namespace Conduit

/-- Something done by those who hold the ends of a queue. -/
inductive Action (α : Type) where
  | send (sender : Nat) (a : α)
  /-- A sender is copied. -/
  | clone (sender : Nat)
  /-- A sender is given up. -/
  | drop (sender : Nat)
  | receive
  | drain
deriving DecidableEq, Repr

/-- Whether the sender that is to do it is left. -/
def Action.isAllowed (senders : List Bool) : Action α → Bool
  | .send s _ | .clone s | .drop s => senders[s]? = some true
  | .receive | .drain => true

/-- What it gives. -/
inductive Reply (α : Type) where
  | done
  /-- The item comes back: there is nobody to receive it. -/
  | refused (a : α)
  | received (r : Received α)
  | drained (items : List α)
deriving DecidableEq, Repr

/-- One action after the other, as long as they can be done. -/
def run {σ : Type} (act : σ → Action α → Option (Reply α × σ)) (s : σ) :
    List (Action α) → Option (List (Reply α) × σ)
  | [] => some ([], s)
  | action :: rest =>
    match act s action with
    | none => none
    | some (reply, s) => (run act s rest).map fun (replies, s) => (reply :: replies, s)

/-- The items that are sent. -/
def sent (actions : List (Action α)) : List α :=
  actions.filterMap fun
    | .send _ a => some a
    | _ => none

/-- The items that come out. -/
def taken (replies : List (Reply α)) : List α :=
  replies.flatMap fun
    | .received (.item a) => [a]
    | .drained items => items
    | _ => []

end Conduit

open Conduit (Action Reply)

/-- A lossy queue and its ends. -/
structure Conduit (α : Type) where
  queue : Lossy α
  /-- All senders there have been, in the order in which they were made: whether they are
  left. -/
  senders : List Bool := [true]
  /-- How many receivers are left: that of the receiving side, and one for each sender. -/
  receivers : Nat := 2
deriving DecidableEq, Repr

/-- A queue that has just been made, with one sender. -/
def Conduit.start (α : Type) (k : Nat) : Conduit α := { queue := { capacity := k } }

/-- Does something to a queue. -/
def Conduit.perform (c : Conduit α) : Action α → Reply α × Conduit α
  | .send _ a =>
    if c.receivers = 0 then (.refused a, c) else (.done, { c with queue := c.queue.send a })
  | .clone _ =>
    (.done,
      { queue := c.queue.addSender
        senders := c.senders ++ [true]
        receivers := c.receivers + 1 })
  | .drop s =>
    (.done,
      { queue := c.queue.dropSender
        senders := c.senders.set s false
        receivers := c.receivers - 1 })
  | .receive =>
    let (r, queue) := c.queue.receive
    (.received r, { c with queue })
  | .drain =>
    let (items, queue) := c.queue.drain
    (.drained items, { c with queue })

/-- Does something to a queue if the sender that is to do it is left. -/
def Conduit.act (c : Conduit α) (action : Action α) : Option (Reply α × Conduit α) :=
  if action.isAllowed c.senders then some (c.perform action) else none

/-- A list of items, and the senders that may still add to it. -/
structure Shelf (α : Type) where
  items : List α := []
  senders : List Bool := [true]
deriving DecidableEq, Repr

/-- The last `k` items, or all of them if `k` is zero. -/
def Shelf.newest (k : Nat) (items : List α) : List α := if k = 0 then items else items.rtake k

/-- Does to a list that keeps the last `k` items what could be done to a queue. -/
def Shelf.perform (k : Nat) (s : Shelf α) : Action α → Reply α × Shelf α
  | .send _ a => (.done, { s with items := newest k (s.items ++ [a]) })
  | .clone _ => (.done, { s with senders := s.senders ++ [true] })
  | .drop i => (.done, { s with senders := s.senders.set i false })
  | .receive =>
    match s.items with
    | a :: rest => (.received (.item a), { s with items := rest })
    | [] => (.received (if true ∈ s.senders then .empty else .disconnected), s)
  | .drain => (.drained s.items, { s with items := [] })

/-- Does something to a shelf if the sender that is to do it is left. -/
def Shelf.act (k : Nat) (s : Shelf α) (action : Action α) : Option (Reply α × Shelf α) :=
  if action.isAllowed s.senders then some (s.perform k action) else none

theorem Shelf.perform_receive_nil {k : Nat} {s : Shelf α} (h : s.items = []) :
    s.perform k .receive =
      (.received (if true ∈ s.senders then .empty else .disconnected), s) := by
  unfold perform
  rw [h]

theorem Shelf.perform_receive_cons {k : Nat} {s : Shelf α} {a : α} {rest : List α}
    (h : s.items = a :: rest) :
    s.perform k .receive = (.received (.item a), { s with items := rest }) := by
  unfold perform
  rw [h]

namespace Conduit

/-- The list of what waits in a queue. -/
def shelf (c : Conduit α) : Shelf α := ⟨c.queue.items, c.senders⟩

/-! ## They agree -/

/-- The queue's own counts are those of its ends, and it is within its capacity. -/
structure Agrees (k : Nat) (c : Conduit α) : Prop where
  capacity : c.queue.capacity = k
  senders : c.queue.channel.senders = c.senders.count true
  receivers : c.receivers = c.senders.count true + 1
  short : 0 < k → c.queue.items.length ≤ k

variable {k : Nat} {c c' : Conduit α} {action : Action α} {reply : Reply α}
variable {actions : List (Action α)} {replies : List (Reply α)}

theorem agrees_start (k : Nat) : Agrees k (start α k) where
  capacity := rfl
  senders := rfl
  receivers := rfl
  short := fun _ => Nat.zero_le _

/-- Sending keeps the newest items. -/
theorem items_send_newest (q : Lossy α) (a : α) :
    (q.send a).items = Shelf.newest q.capacity (q.items ++ [a]) := by
  rw [Lossy.items_send, Shelf.newest, List.rtake.eq_def, List.length_append,
    List.length_singleton]

theorem length_newest (hpos : 0 < k) (items : List α) : (Shelf.newest k items).length ≤ k := by
  rw [Shelf.newest, if_neg (Nat.ne_of_gt hpos), List.rtake.eq_def, List.length_drop]
  omega

theorem count_set_false {senders : List Bool} {s : Nat} (h : senders[s]? = some true) :
    (senders.set s false).count true + 1 = senders.count true := by
  obtain ⟨hs, hs'⟩ := List.getElem?_eq_some_iff.mp h
  have hpos : 0 < senders.count true := List.count_pos_iff.mpr (List.mem_of_getElem? h)
  rw [List.count_set hs, hs']
  simp only [beq_self_eq_true, if_true, Bool.false_beq, Bool.not_true, Bool.false_eq_true,
    if_false]
  omega

/-- A sender that is left has a receiver, so nothing comes back. -/
theorem perform_send (h : Agrees k c) (s : Nat) (a : α) :
    c.perform (.send s a) = (.done, { c with queue := c.queue.send a }) := by
  refine if_neg ?_
  rw [h.receivers]
  exact Nat.succ_ne_zero _

/-- On an empty queue it is the senders left that count. -/
theorem receive_of_empty (h : Agrees k c) (hitems : c.queue.items = []) :
    c.queue.receive = (if true ∈ c.senders then .empty else .disconnected, c.queue) := by
  have hchannel : c.queue.channel.items = [] := hitems
  have hgone : c.queue.channel.isDisconnected = true ↔ true ∉ c.senders := by
    rw [Channel.isDisconnected, decide_eq_true_iff, h.senders, List.count_eq_zero]
  unfold Lossy.receive Channel.receive
  rw [hchannel]
  by_cases hleft : true ∈ c.senders
  · have hnot : ¬ c.queue.channel.isDisconnected = true := fun hd => hgone.mp hd hleft
    simp only [if_pos hleft, if_neg hnot]
  · simp only [if_neg hleft, if_pos (hgone.mpr hleft)]

/-- Whatever may be done leaves the counts right. -/
theorem Agrees.perform (h : Agrees k c) (hallowed : action.isAllowed c.senders = true) :
    Agrees k (c.perform action).2 := by
  cases action with
  | send s a =>
    rw [perform_send h]
    refine ⟨(Lossy.capacity_send _ _).trans h.capacity,
      (Lossy.senders_send _ _).trans h.senders, h.receivers, fun hpos => ?_⟩
    show (c.queue.send a).items.length ≤ k
    rw [items_send_newest, h.capacity]
    exact length_newest hpos _
  | clone s =>
    have hcount : (c.senders ++ [true]).count true = c.senders.count true + 1 :=
      List.count_append
    refine ⟨h.capacity, ?_, ?_, h.short⟩
    · show c.queue.channel.senders + 1 = (c.senders ++ [true]).count true
      rw [hcount, h.senders]
    · show c.receivers + 1 = (c.senders ++ [true]).count true + 1
      rw [hcount, h.receivers]
  | drop s =>
    have hcount := count_set_false (of_decide_eq_true hallowed)
    refine ⟨h.capacity, ?_, ?_, h.short⟩
    · show c.queue.channel.senders - 1 = (c.senders.set s false).count true
      rw [h.senders, ← hcount, Nat.add_sub_cancel]
    · show c.receivers - 1 = (c.senders.set s false).count true + 1
      rw [h.receivers, ← hcount, Nat.add_sub_cancel]
  | receive =>
    unfold Conduit.perform
    cases hitems : c.queue.items with
    | nil =>
      rw [receive_of_empty h hitems]
      exact h
    | cons a rest =>
      rw [Lossy.receive_of_cons hitems]
      refine { h with short := fun hpos => ?_ }
      have hle := h.short hpos
      rw [hitems, List.length_cons] at hle
      exact Nat.le_of_succ_le hle
  | drain => exact { h with short := fun _ => Nat.zero_le _ }

/-- **Whatever is done to a queue gives what it gives on the shelf,** and leaves what it
leaves there. -/
theorem Agrees.shelf_perform (h : Agrees k c) (action : Action α) :
    Prod.map id shelf (c.perform action) = c.shelf.perform k action := by
  cases action with
  | send s a =>
    rw [perform_send h]
    show (Reply.done, (⟨(c.queue.send a).items, c.senders⟩ : Shelf α)) = _
    rw [items_send_newest, h.capacity]
    rfl
  | receive =>
    unfold Conduit.perform
    cases hitems : c.queue.items with
    | nil =>
      rw [receive_of_empty h hitems, Shelf.perform_receive_nil hitems]
      rfl
    | cons a rest =>
      rw [Lossy.receive_of_cons hitems, Shelf.perform_receive_cons hitems]
      rfl
  | _ => rfl

/-! ## Runs -/

/-- However long they are used, a queue and a shelf give the same, and agree again. -/
theorem Agrees.run (h : Agrees k c) (actions : List (Action α)) :
    (Conduit.run Conduit.act c actions).map (Prod.map id shelf) =
        Conduit.run (Shelf.act k) c.shelf actions ∧
      ∀ replies c', Conduit.run Conduit.act c actions = some (replies, c') → Agrees k c' := by
  induction actions generalizing c with
  | nil =>
    refine ⟨rfl, fun replies c' hrun => ?_⟩
    obtain ⟨-, rfl⟩ : [] = replies ∧ c = c' := by simpa [Conduit.run] using hrun
    exact h
  | cons action rest ih =>
    unfold Conduit.run Conduit.act Shelf.act
    have hsenders : c.shelf.senders = c.senders := rfl
    rw [hsenders]
    by_cases hallowed : action.isAllowed c.senders = true
    · obtain ⟨hsame, hagrees⟩ := ih (h.perform hallowed)
      simp only [if_pos hallowed, ← h.shelf_perform]
      refine ⟨?_, fun replies c' hrun => ?_⟩
      · show _ = (Conduit.run (Shelf.act k) (c.perform action).2.shelf rest).map _
        rw [← hsame, Option.map_map, Option.map_map]
        rfl
      · obtain ⟨⟨replies', c₂⟩, hrest, hlast⟩ := Option.map_eq_some_iff.mp hrun
        obtain ⟨-, rfl⟩ : (c.perform action).1 :: replies' = replies ∧ c₂ = c' := by
          simpa using hlast
        exact hagrees replies' c₂ hrest
    · simp only [if_neg hallowed]
      exact ⟨rfl, fun _ _ hrun => absurd hrun (by simp)⟩

end Conduit

/-! ## What follows for the list -/

namespace Shelf

variable {k : Nat} {s s' : Shelf α} {actions : List (Action α)} {replies : List (Reply α)}

theorem not_refused_perform (s : Shelf α) (action : Action α) (a : α) :
    (s.perform k action).1 ≠ .refused a := by
  cases action with
  | receive =>
    cases hitems : s.items with
    | nil => simp [perform_receive_nil hitems]
    | cons b rest => simp [perform_receive_cons hitems]
  | _ => simp [perform]

/-- Without a limit, what comes out and what is left is what was there and what is sent. -/
theorem whole_perform (s : Shelf α) (action : Action α) :
    s.items ++ Conduit.sent [action] =
      Conduit.taken [(s.perform 0 action).1] ++ (s.perform 0 action).2.items := by
  cases action with
  | receive =>
    cases hitems : s.items with
    | nil =>
      rw [perform_receive_nil hitems, hitems]
      split <;> rfl
    | cons a rest =>
      rw [perform_receive_cons hitems]
      exact List.append_nil _
  | drain => simp [perform, Conduit.sent, Conduit.taken]
  | send => rfl
  | _ => exact List.append_nil _

theorem run_cons_eq_some {action : Action α}
    (h : Conduit.run (act k) s (action :: actions) = some (replies, s')) :
    ∃ rest, replies = (s.perform k action).1 :: rest ∧
      Conduit.run (act k) (s.perform k action).2 actions = some (rest, s') := by
  unfold Conduit.run act at h
  by_cases hallowed : action.isAllowed s.senders = true
  · simp only [if_pos hallowed] at h
    obtain ⟨⟨rest, s₂⟩, hrest, hlast⟩ := Option.map_eq_some_iff.mp h
    obtain ⟨rfl, rfl⟩ : (s.perform k action).1 :: rest = replies ∧ s₂ = s' := by
      simpa using hlast
    exact ⟨rest, rfl, hrest⟩
  · simp only [if_neg hallowed] at h
    exact absurd h (by simp)

theorem not_refused_run (h : Conduit.run (act k) s actions = some (replies, s')) (a : α) :
    .refused a ∉ replies := by
  induction actions generalizing s replies with
  | nil =>
    obtain ⟨rfl, -⟩ : [] = replies ∧ s = s' := by simpa [Conduit.run] using h
    exact List.not_mem_nil
  | cons action actions ih =>
    obtain ⟨rest, rfl, hrest⟩ := run_cons_eq_some h
    rw [List.mem_cons, not_or]
    exact ⟨(not_refused_perform s action a).symm, ih hrest⟩

theorem whole_run (h : Conduit.run (act 0) s actions = some (replies, s')) :
    s.items ++ Conduit.sent actions = Conduit.taken replies ++ s'.items := by
  induction actions generalizing s replies with
  | nil =>
    obtain ⟨rfl, rfl⟩ : [] = replies ∧ s = s' := by simpa [Conduit.run] using h
    exact List.append_nil _
  | cons action actions ih =>
    obtain ⟨rest, rfl, hrest⟩ := run_cons_eq_some h
    have hsent : Conduit.sent (action :: actions) = Conduit.sent [action] ++ Conduit.sent actions :=
      List.filterMap_append (l := [action])
    have htaken : Conduit.taken ((s.perform 0 action).1 :: rest) =
        Conduit.taken [(s.perform 0 action).1] ++ Conduit.taken rest :=
      List.flatMap_cons.trans (congrArg (· ++ _) (List.append_nil _).symm)
    rw [hsent, htaken, ← List.append_assoc, whole_perform, List.append_assoc, ih hrest,
      List.append_assoc]

end Shelf

namespace Conduit

variable {k : Nat} {c : Conduit α} {replies : List (Reply α)}

/-- A queue from which everything has been taken. -/
def emptied (c : Conduit α) : Conduit α := { c with queue := c.queue.holding [] }

/-- Taking the items one by one takes all of them in order. -/
theorem run_receive (c : Conduit α) :
    run act c (List.replicate c.queue.items.length .receive) =
      some (c.queue.items.map fun a => .received (.item a), c.emptied) := by
  generalize hitems : c.queue.items = items
  induction items generalizing c with
  | nil =>
    show some ([], c) = some ([], c.emptied)
    rw [emptied, Lossy.holding_self hitems]
  | cons a rest ih =>
    have hone : c.act .receive =
        some (.received (.item a), { c with queue := c.queue.holding rest }) := by
      show some (c.perform .receive) = _
      unfold perform
      rw [Lossy.receive_of_cons hitems]
    rw [List.length_cons, List.replicate_succ]
    unfold run
    simp only [hone, ih { c with queue := c.queue.holding rest } rfl]
    rfl

/-- **A lossy queue is a shelf that keeps the last `k` items.** Whatever is done to it, by
whichever senders are left, it gives what the shelf gives, and holds what is on the shelf.
So nothing that is sent is given back; there are never more items than fit; the sender's
loop ends after three steps at the latest, with one eviction at most; and without a limit
everything that was sent comes out or waits. A draining is as many receivings as there are
items. -/
theorem shelf_refined (k : Nat) (actions : List (Action α)) :
    (run act (start α k) actions).map (Prod.map id shelf) = run (Shelf.act k) {} actions ∧
    ∀ replies c, run act (start α k) actions = some (replies, c) →
      (∀ a, .refused a ∉ replies) ∧
      (0 < k → c.queue.items.length ≤ k) ∧
      (k = 0 → sent actions = taken replies ++ c.queue.items) ∧
      (∀ a, (∃ n ≤ 3, c.queue.sending a n = (.resting, c.queue.send a)) ∧
        ∀ m, (c.queue.sending a m).1 = .evicting → m = 1) ∧
      c.act .drain = some (.drained c.queue.items, c.emptied) ∧
      run act c (List.replicate c.queue.items.length .receive) =
        some (c.queue.items.map fun a => .received (.item a), c.emptied) := by
  obtain ⟨hsame, hagrees⟩ := (agrees_start (α := α) k).run actions
  refine ⟨hsame, fun replies c hrun => ?_⟩
  have h := hagrees replies c hrun
  have hshelf : run (Shelf.act k) {} actions = some (replies, c.shelf) := by
    refine hsame.symm.trans ?_
    rw [hrun]
    rfl
  refine ⟨Shelf.not_refused_run hshelf, h.short, ?_, Lossy.sending_ends ?_, rfl,
    run_receive c⟩
  · rintro rfl
    exact Shelf.whole_run hshelf
  · rw [h.capacity]
    exact h.short

/-- Four numbers are sent to a queue for two by a sender and its copy, and both are given
up. -/
def turnover : List (Action Nat) :=
  [.receive, .send 0 1, .clone 0, .send 1 2, .send 0 3, .drop 0, .send 1 4, .receive, .drop 1,
    .drain, .receive]

/-- What it gives: the two last ones are still to be had. -/
def turnoverReplies : List (Reply Nat) :=
  [.received .empty, .done, .done, .done, .done, .done, .done, .received (.item 3), .done,
    .drained [4], .received .disconnected]

theorem shelf_refined_turnover :
    run (Shelf.act 2) {} turnover = some (turnoverReplies, { senders := [false, false] }) ∧
      ∃ c, run act (start Nat 2) turnover = some (turnoverReplies, c) ∧ c.queue.items.length ≤ 2 :=
  ⟨(shelf_refined 2 turnover).1.symm.trans (by decide),
    _, rfl, ((shelf_refined 2 turnover).2 turnoverReplies _ rfl).2.1 (by decide)⟩

end Conduit

end NodeGraph
