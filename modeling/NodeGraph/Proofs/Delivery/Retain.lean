import Mathlib.Data.List.Basic
import NodeGraph.Channel.Lossy

/-!
# What a lossy queue retains

A queue of capacity `k` is sent items one after the other, and somebody takes
the oldest one now and then. Between two takings any number of items may have
been evicted, so what was taken has gaps, and the question is where they can be.

> `Kept`: what was taken is found in what was sent at increasing `places`, what
> waits is the end of what was sent, and an item that was passed over is at least
> `k` places from the end. Nothing is passed over if there is no limit.

Both moves keep it: `Kept.send` leaves the places alone, since an eviction only
turns waiting items into lost ones, and `Kept.take` adds one place, the first of
those that wait. The lost ones are the delicate part: an item is evicted only
when `k` newer ones wait behind it, and these are then the last `k`.
-/

namespace NodeGraph

variable {α : Type}

/-! ## Sending as a suffix -/

namespace Lossy

/-- Evicting leaves the newest items, as many as fit. -/
theorem trim_eq_drop (capacity : Nat) (items : List α) :
    trim capacity items = items.drop (items.length - capacity) := by
  induction items with
  | nil =>
    rw [List.drop_nil]
    rfl
  | cons a rest ih =>
    unfold trim
    split
    next h =>
      rw [List.length_cons] at h ⊢
      rw [ih, show rest.length + 1 - capacity = (rest.length - capacity) + 1 by omega,
        List.drop_succ_cons]
    next h =>
      rw [show (a :: rest).length - capacity = 0 by omega, List.drop_zero]

/-- What waits after a sending. -/
theorem items_send (q : Lossy α) (a : α) :
    (q.send a).items =
      if q.capacity = 0 then q.items ++ [a]
      else (q.items ++ [a]).drop (q.items.length + 1 - q.capacity) := by
  unfold send
  by_cases h : q.capacity = 0
  · have hpush : (q.push a).capacity = 0 := h
    rw [if_pos h]
    simp only [if_pos hpush]
    rfl
  · have hpush : (q.push a).capacity ≠ 0 := h
    rw [if_neg h]
    simp only [if_neg hpush]
    show trim q.capacity (q.items ++ [a]) = _
    rw [trim_eq_drop, List.length_append, List.length_singleton]

@[simp] theorem capacity_send (q : Lossy α) (a : α) :
    (q.send a).capacity = q.capacity := by
  show (if q.capacity = 0 then q.push a else _).capacity = _
  split <;> rfl

@[simp] theorem senders_send (q : Lossy α) (a : α) :
    (q.send a).channel.senders = q.channel.senders := by
  show (if q.capacity = 0 then q.push a else _).channel.senders = _
  split <;> rfl

end Lossy

/-! ## Places -/

/-- Where in `sent` the items of `taken` are found, while `queue` waits. -/
structure Kept (capacity : Nat) (sent taken queue : List α) (places : List Nat) : Prop where
  increasing : places.Pairwise (· < ·)
  /-- What was taken is older than what waits. -/
  before : ∀ p ∈ places, p + queue.length < sent.length
  found : places.map (sent[·]?) = taken.map some
  suffix : queue <:+ sent
  short : 0 < capacity → queue.length ≤ capacity
  /-- An item that neither waits nor was taken has gone for newer ones. -/
  lost : ∀ i, i + queue.length < sent.length → i ∉ places → i + capacity < sent.length
  whole : capacity = 0 → taken ++ queue = sent

namespace Kept

variable {capacity : Nat} {sent taken queue : List α} {places : List Nat}

theorem start (capacity : Nat) : Kept capacity ([] : List α) [] [] [] :=
  ⟨List.Pairwise.nil, by simp, rfl, List.suffix_refl _, by simp, by simp, fun _ => rfl⟩

/-- What is found in a list is found there after it has grown. -/
theorem found_append (h : Kept capacity sent taken queue places) (a : α) :
    places.map ((sent ++ [a])[·]?) = taken.map some := by
  rw [← h.found]
  apply List.map_congr_left
  intro p hp
  -- every place is before those that wait, so before the end
  have hlt := h.before p hp
  exact List.getElem?_append_left (by omega)

/-- Sending without a limit makes the queue one longer. -/
theorem append (h : Kept 0 sent taken queue places) (a : α) :
    Kept 0 (sent ++ [a]) taken (queue ++ [a]) places := by
  obtain ⟨older, holder⟩ := h.suffix
  refine ⟨h.increasing, ?_, h.found_append a, ⟨older, ?_⟩, ?_, ?_, ?_⟩
  · intro p hp
    have hlt := h.before p hp
    rw [List.length_append, List.length_append]
    omega
  · rw [← holder, List.append_assoc]
  · intro hpos
    omega
  · intro i hi hnot
    rw [List.length_append, List.length_append] at hi
    have hlt := h.lost i (by omega) hnot
    rw [List.length_append]
    omega
  · intro hcap
    rw [← h.whole hcap, List.append_assoc]

/-- Sending to a queue with a limit pushes older items out of it, if need be. -/
theorem evict (h : Kept capacity sent taken queue places) (hcap : 0 < capacity) (a : α) :
    Kept capacity (sent ++ [a]) taken
      ((queue ++ [a]).drop (queue.length + 1 - capacity)) places := by
  have hshort := h.short hcap
  have hlen : ((queue ++ [a]).drop (queue.length + 1 - capacity)).length =
      queue.length + 1 - (queue.length + 1 - capacity) := by
    rw [List.length_drop, List.length_append, List.length_singleton]
  have hsent : (sent ++ [a]).length = sent.length + 1 := List.length_append
  obtain ⟨older, holder⟩ := h.suffix
  refine ⟨h.increasing, ?_, h.found_append a, ?_, ?_, ?_, ?_⟩
  · intro p hp
    have hlt := h.before p hp
    omega
  · have hgrown : queue ++ [a] <:+ sent ++ [a] := ⟨older, by rw [← holder, List.append_assoc]⟩
    exact (List.drop_suffix _ _).trans hgrown
  · intro _
    omega
  · intro i hi hnot
    by_cases hold : i + queue.length < sent.length
    · have hlt := h.lost i hold hnot
      omega
    · -- the item waited and waits no longer, so the queue is full of newer ones
      omega
  · intro hzero
    omega

/-- What waits and what was taken stays in order while items are sent. -/
theorem send {q : Lossy α}
    (h : Kept q.capacity sent taken q.items places) (a : α) :
    Kept q.capacity (sent ++ [a]) taken (q.send a).items places := by
  rw [Lossy.items_send]
  by_cases hcap : q.capacity = 0
  · rw [if_pos hcap]
    rw [hcap] at h ⊢
    exact h.append a
  · rw [if_neg hcap]
    exact h.evict (Nat.pos_of_ne_zero hcap) a

/-- Taking the oldest item finds it at the first place of those that wait. -/
theorem take {a : α} {rest : List α} (h : Kept capacity sent taken (a :: rest) places) :
    Kept capacity sent (taken ++ [a]) rest (places ++ [sent.length - (rest.length + 1)]) := by
  obtain ⟨older, holder⟩ := h.suffix
  have hsent : sent.length = older.length + (rest.length + 1) := by
    rw [← holder, List.length_append, List.length_cons]
  have hplace : sent.length - (rest.length + 1) = older.length := by omega
  rw [hplace]
  refine ⟨?_, ?_, ?_, ⟨older ++ [a], ?_⟩, ?_, ?_, ?_⟩
  · rw [List.pairwise_append]
    refine ⟨h.increasing, List.pairwise_singleton _ _, ?_⟩
    intro p hp q hq
    have hlt := h.before p hp
    rw [List.length_cons] at hlt
    rw [List.mem_singleton.mp hq]
    omega
  · intro p hp
    rcases List.mem_append.mp hp with hold | hnew
    · have hlt := h.before p hold
      rw [List.length_cons] at hlt
      omega
    · rw [List.mem_singleton.mp hnew]
      omega
  · rw [List.map_append, List.map_append, h.found, List.map_singleton, List.map_singleton,
      ← holder, List.getElem?_append_right (Nat.le_refl _), Nat.sub_self]
    rfl
  · rw [← holder, List.append_assoc]
    rfl
  · intro hcap
    have hle := h.short hcap
    rw [List.length_cons] at hle
    omega
  · intro i hi hnot
    rw [List.mem_append, List.mem_singleton, not_or] at hnot
    -- the item that has just been taken is at the new place
    refine h.lost i ?_ hnot.1
    rw [List.length_cons]
    omega
  · intro hcap
    rw [← h.whole hcap, List.append_assoc]
    rfl

/-! ## The places of all that is left -/

/-- The places of what was taken and then of what waits. -/
def all (sent queue : List α) (places : List Nat) : List Nat :=
  places ++ List.range' (sent.length - queue.length) queue.length

/-- What was taken and what waits is found at increasing places. -/
theorem increasing_all (h : Kept capacity sent taken queue places) :
    (all sent queue places).Pairwise (· < ·) := by
  unfold all
  rw [List.pairwise_append]
  refine ⟨h.increasing, List.pairwise_lt_range', ?_⟩
  intro p hp q hq
  have hlt := h.before p hp
  have hle := (List.mem_range'_1.mp hq).1
  omega

/-- The places are those of the items, one by one. -/
theorem found_all (h : Kept capacity sent taken queue places) :
    (all sent queue places).map (sent[·]?) = (taken ++ queue).map some := by
  unfold all
  rw [List.map_append, List.map_append, h.found, List.append_cancel_left_eq]
  -- what waits begins right behind what is older
  obtain ⟨older, rfl⟩ := h.suffix
  rw [List.length_append, Nat.add_sub_cancel]
  refine List.ext_getElem (by simp) fun i hi _ => ?_
  rw [List.length_map, List.length_range'] at hi
  rw [List.getElem_map, List.getElem_map, List.getElem_range', Nat.one_mul,
    List.getElem?_append_right (Nat.le_add_right _ _), Nat.add_sub_cancel_left,
    List.getElem?_eq_getElem hi]

/-- Nothing was taken, and nothing waits, that was not sent. -/
theorem mem_sent (h : Kept capacity sent taken queue places) {a : α}
    (ha : a ∈ taken ++ queue) : a ∈ sent := by
  have hplaced : some a ∈ (all sent queue places).map (sent[·]?) :=
    h.found_all ▸ List.mem_map_of_mem ha
  obtain ⟨i, -, hi⟩ := List.mem_map.mp hplaced
  exact List.mem_of_getElem? hi

/-- Whatever has no place was followed by as many newer items as fit. -/
theorem lost_all (h : Kept capacity sent taken queue places) {i : Nat} (hi : i < sent.length)
    (hnot : i ∉ all sent queue places) : i + capacity < sent.length := by
  unfold all at hnot
  rw [List.mem_append, not_or, List.mem_range'_1, not_and_or] at hnot
  have hle := h.suffix.length_le
  refine h.lost i ?_ hnot.1
  omega

end Kept

end NodeGraph
