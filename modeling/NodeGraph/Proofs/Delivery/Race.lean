import Mathlib.Data.List.Induction
import Mathlib.Logic.Relation
import NodeGraph.Channel.Lossy

/-!
# What a sender evicts while somebody takes

A sender pushes an item, measures the queue, and evicts if it is overfull. These are steps
of their own, and whoever takes items from the other end may do so between any two of
them. When the sender evicts, what it has measured may no longer be so.

> `Account`: the queue is what was sent without what has left it, in order. Between two
> sendings it is within its capacity. An item is evicted only if as many newer ones had been
> sent as fit, not counting those that were taken since the sender had measured.
>
> `Keeps`: an item is evicted only if as many newer ones had been sent as fit. So the newest
> ones are there, or were taken.
>
> `evictions_accounted`: in every run the account holds, and if nothing was ever taken
> between a measuring and its eviction, so does `Keeps`.
>
> `newest_evicted`: otherwise it need not. Whatever the capacity is, the newest item can be
> evicted from a queue in which nothing else waits.
-/

namespace NodeGraph

variable {α : Type}

/-! ## One step at a time -/

namespace Lossy

/-- The queue with something else in it. -/
def holding (q : Lossy α) (items : List α) : Lossy α :=
  { q with channel := { q.channel with items } }

@[simp] theorem items_holding (q : Lossy α) (items : List α) : (q.holding items).items = items :=
  rfl

@[simp] theorem capacity_holding (q : Lossy α) (items : List α) :
    (q.holding items).capacity = q.capacity := rfl

theorem holding_self {q : Lossy α} {items : List α} (h : q.items = items) :
    q.holding items = q := by
  subst h
  rfl

theorem isOverfull_iff {q : Lossy α} :
    q.isOverfull = true ↔ 0 < q.capacity ∧ q.capacity < q.items.length := by
  rw [isOverfull, Bool.and_eq_true, decide_eq_true_iff, decide_eq_true_iff, Nat.pos_iff_ne_zero]
  rfl

theorem receive_of_nil {q : Lossy α} (h : q.items = []) :
    q.receive = (.disconnected, q) ∨ q.receive = (.empty, q) := by
  have h : q.channel.items = [] := h
  unfold receive Channel.receive
  rw [h]
  by_cases hsenders : q.channel.isDisconnected = true
  · simp only [if_pos hsenders, true_or]
  · simp only [if_neg hsenders, or_true]

theorem receive_of_cons {q : Lossy α} {a : α} {rest : List α} (h : q.items = a :: rest) :
    q.receive = (.item a, q.holding rest) := by
  have h : q.channel.items = a :: rest := h
  unfold receive Channel.receive
  rw [h]
  rfl

end Lossy

/-- What has become of an item that is no longer in the queue. -/
inductive Fate where
  | taken
  /-- Evicted, when so many newer items had been sent, and so many others had been taken
  since the sender had measured the queue. -/
  | evicted (newer late : Nat)
deriving DecidableEq, Repr

/-- A queue with a sender at one end and somebody who takes items at the other. -/
structure Race (α : Type) where
  queue : Lossy α
  /-- Where the sender stands. -/
  phase : Lossy.Phase := .resting
  /-- All that was sent, in order. -/
  sent : List α := []
  /-- What has become of the items that have left the queue, in the order in which they
  were sent. -/
  fates : List Fate := []
  /-- How many items were taken since the sender measured the queue. -/
  late : Nat := 0
deriving DecidableEq, Repr

namespace Race

/-- The sender begins to send an item. -/
def push (r : Race α) (a : α) : Race α :=
  { r with queue := r.queue.push a, phase := .measuring, sent := r.sent ++ [a] }

/-- The sender measures the queue. -/
def measure (r : Race α) : Race α :=
  let (phase, queue) := Lossy.Phase.step r.queue .measuring
  { r with phase, queue, late := 0 }

/-- The sender evicts an item, and measures again if it has found one. -/
def evict (r : Race α) : Race α :=
  match Lossy.Phase.step r.queue .evicting with
  | (.measuring, queue) =>
    let newer := r.sent.length - (r.fates.length + 1)
    { r with phase := .measuring, queue, fates := r.fates ++ [.evicted newer r.late] }
  | (phase, queue) => { r with phase, queue }

/-- Somebody takes the oldest item, if there is one. -/
def take (r : Race α) : Race α :=
  match r.queue.receive with
  | (.item _, queue) => { r with queue, fates := r.fates ++ [.taken], late := r.late + 1 }
  | (_, queue) => { r with queue }

/-- A step of the sender, or of whoever takes. -/
inductive Step : Race α → Race α → Prop where
  | push (r : Race α) (a : α) (h : r.phase = .resting) : Step r (r.push a)
  | measure (r : Race α) (h : r.phase = .measuring) : Step r r.measure
  | evict (r : Race α) (h : r.phase = .evicting) : Step r r.evict
  | take (r : Race α) : Step r r.take

/-- Any number of steps, one after the other. -/
abbrev Steps : Race α → Race α → Prop := Relation.ReflTransGen Step

/-- An empty queue. -/
def start (α : Type) (capacity : Nat) : Race α := { queue := { capacity } }

variable {r r' : Race α} {a : α} {rest : List α}

theorem measure_of_overfull (h : r.queue.isOverfull = true) :
    r.measure = { r with phase := .evicting, late := 0 } := by
  unfold measure Lossy.Phase.step
  simp only [if_pos h]

theorem measure_of_not_overfull (h : ¬ r.queue.isOverfull = true) :
    r.measure = { r with phase := .resting, late := 0 } := by
  unfold measure Lossy.Phase.step
  simp only [if_neg h]

theorem evict_of_nil (h : r.queue.items = []) : r.evict = { r with phase := .resting } := by
  unfold evict Lossy.Phase.step
  rcases Lossy.receive_of_nil h with hnone | hnone <;> rw [hnone]

theorem evict_of_cons (h : r.queue.items = a :: rest) :
    r.evict = { r with
      phase := .measuring
      queue := r.queue.holding rest
      fates := r.fates ++ [.evicted (r.sent.length - (r.fates.length + 1)) r.late] } := by
  unfold evict Lossy.Phase.step
  rw [Lossy.receive_of_cons h]

theorem take_of_nil (h : r.queue.items = []) : r.take = r := by
  unfold take
  rcases Lossy.receive_of_nil h with hnone | hnone <;> rw [hnone]

theorem take_of_cons (h : r.queue.items = a :: rest) :
    r.take = { r with
      queue := r.queue.holding rest
      fates := r.fates ++ [.taken]
      late := r.late + 1 } := by
  unfold take
  rw [Lossy.receive_of_cons h]

/-- A round of the sender: it measures, evicts, and is about to measure again. -/
theorem exists_steps_round (h : r.phase = .measuring) (hfull : r.queue.isOverfull = true)
    (hitems : r.queue.items = a :: rest) :
    ∃ r', Steps r r' ∧ r'.phase = .measuring ∧ r'.queue = r.queue.holding rest := by
  have hphase : r.measure.phase = .evicting := by rw [measure_of_overfull hfull]
  have hmeasured : r.measure.queue.items = a :: rest := hitems
  refine ⟨r.measure.evict, .tail (.single (.measure r h)) (.evict _ hphase), ?_⟩
  rw [evict_of_cons hmeasured]
  exact ⟨rfl, rfl⟩

/-- A sender that finds the queue within its capacity is done. -/
theorem exists_steps_done (h : r.phase = .measuring) (hfull : ¬ r.queue.isOverfull = true) :
    ∃ r', Steps r r' ∧ r'.phase = .resting ∧ r'.queue = r.queue := by
  refine ⟨r.measure, .single (.measure r h), ?_⟩
  rw [measure_of_not_overfull hfull]
  exact ⟨rfl, rfl⟩

/-- Measuring and evicting comes to `Lossy.trim` if nobody comes between. -/
theorem exists_steps_trim (items : List α) (h : r.phase = .measuring)
    (hitems : r.queue.items = items) (hpos : 0 < r.queue.capacity) :
    ∃ r', Steps r r' ∧ r'.phase = .resting ∧
      r'.queue = r.queue.holding (Lossy.trim r.queue.capacity items) := by
  induction items generalizing r with
  | nil =>
    have hfull : ¬ r.queue.isOverfull = true := by
      rw [Lossy.isOverfull_iff, hitems]
      exact fun hboth => Nat.not_lt_zero _ hboth.2
    obtain ⟨r', hsteps, hrest, hqueue⟩ := exists_steps_done h hfull
    exact ⟨r', hsteps, hrest, hqueue.trans (Lossy.holding_self hitems).symm⟩
  | cons a rest ih =>
    unfold Lossy.trim
    by_cases hfull : r.queue.isOverfull = true
    · have hlt := (Lossy.isOverfull_iff.mp hfull).2
      rw [hitems] at hlt
      obtain ⟨r₁, hround, hphase, hevicted⟩ := exists_steps_round h hfull hitems
      obtain ⟨r', hsteps, hrest, hqueue⟩ :=
        ih hphase (by rw [hevicted]; rfl) (by rw [hevicted]; exact hpos)
      refine ⟨r', hround.trans hsteps, hrest, ?_⟩
      rw [if_pos hlt, hqueue, hevicted]
      rfl
    · have hle : ¬ r.queue.capacity < (a :: rest).length := by
        rw [← hitems]
        exact fun hlt => hfull (Lossy.isOverfull_iff.mpr ⟨hpos, hlt⟩)
      obtain ⟨r', hsteps, hrest, hqueue⟩ := exists_steps_done h hfull
      refine ⟨r', hsteps, hrest, ?_⟩
      rw [if_neg hle]
      exact hqueue.trans (Lossy.holding_self hitems).symm

/-- A sending that nobody comes between is `Lossy.send`. -/
theorem exists_steps_send (h : r.phase = .resting) (a : α) :
    ∃ r', Steps r r' ∧ r'.phase = .resting ∧ r'.queue = r.queue.send a := by
  have hpush : Steps r (r.push a) := .single (.push r a h)
  unfold Lossy.send
  by_cases hzero : r.queue.capacity = 0
  · have hfull : ¬ (r.push a).queue.isOverfull = true := fun hfull =>
      absurd hzero (Nat.ne_of_gt (Lossy.isOverfull_iff.mp hfull).1)
    obtain ⟨r', hsteps, hrest, hqueue⟩ := exists_steps_done (r := r.push a) rfl hfull
    refine ⟨r', hpush.trans hsteps, hrest, hqueue.trans ?_⟩
    exact (if_pos hzero).symm
  · obtain ⟨r', hsteps, hrest, hqueue⟩ :=
      exists_steps_trim (r := r.push a) _ rfl rfl (Nat.pos_of_ne_zero hzero)
    refine ⟨r', hpush.trans hsteps, hrest, hqueue.trans ?_⟩
    exact (if_neg hzero).symm

/-! ## The account of a run -/

/-- What has been sent, what waits, and what has become of the rest. -/
structure Account (k : Nat) (r : Race α) : Prop where
  capacity : r.queue.capacity = k
  left : r.fates.length ≤ r.sent.length
  waits : r.queue.items = r.sent.drop r.fates.length
  short : r.phase = .resting → 0 < k → r.queue.items.length ≤ k
  /-- What was measured is still to be had, if those are counted that were taken since. -/
  overfull : r.phase = .evicting →
    0 < k ∧ k < r.queue.items.length + r.late
  evicted : ∀ i newer late, r.fates[i]? = some (.evicted newer late) →
    0 < k ∧ i + 1 + newer ≤ r.sent.length ∧ k ≤ newer + late

variable {k : Nat}

theorem account_start (k : Nat) : Account k (start α k) where
  capacity := rfl
  left := Nat.le_refl _
  waits := rfl
  short := fun _ _ => Nat.zero_le _
  overfull := fun hphase => absurd hphase (by simp [start])
  evicted := fun _ _ _ hfate => absurd hfate (by simp [start])

theorem account_push (h : Account k r) (a : α) : Account k (r.push a) where
  capacity := h.capacity
  left := by
    show r.fates.length ≤ (r.sent ++ [a]).length
    have hle := h.left
    rw [List.length_append]
    omega
  waits := by
    show r.queue.items ++ [a] = (r.sent ++ [a]).drop r.fates.length
    rw [List.drop_append_of_le_length h.left, h.waits]
  short := fun hphase => absurd hphase (by simp [push])
  overfull := fun hphase => absurd hphase (by simp [push])
  evicted := by
    intro i newer late hfate
    obtain ⟨hpos, hplace, hnewer⟩ := h.evicted i newer late hfate
    refine ⟨hpos, ?_, hnewer⟩
    show i + 1 + newer ≤ (r.sent ++ [a]).length
    rw [List.length_append]
    omega

theorem account_measure (h : Account k r) : Account k r.measure := by
  have hoverfull : r.queue.isOverfull = true ↔ 0 < k ∧ k < r.queue.items.length := by
    rw [Lossy.isOverfull_iff, h.capacity]
  by_cases hfull : r.queue.isOverfull = true
  · rw [measure_of_overfull hfull]
    exact
      { h with
        short := fun hphase => absurd hphase (by simp)
        overfull := fun _ => hoverfull.mp hfull }
  · rw [measure_of_not_overfull hfull]
    exact
      { h with
        short := fun _ hpos => by
          rw [hoverfull, not_and, Nat.not_lt] at hfull
          exact hfull hpos
        overfull := fun hphase => absurd hphase (by simp) }

/-- The oldest item leaves the queue, and something is said of what becomes of it. -/
theorem account_leave (h : Account k r) (hitems : r.queue.items = a :: rest) {fate : Fate}
    {phase : Lossy.Phase} {late : Nat} (hphase : phase = .resting → r.phase = .resting)
    (hover : phase = .evicting → r.phase = .evicting ∧ late = r.late + 1)
    (hfate : ∀ newer late, fate = .evicted newer late →
      0 < k ∧ newer = rest.length ∧ k ≤ newer + late) :
    Account k
      { r with phase, queue := r.queue.holding rest, fates := r.fates ++ [fate], late } := by
  have hdrop : r.sent.drop r.fates.length = a :: rest := h.waits.symm.trans hitems
  have hlength : r.sent.length = r.fates.length + (rest.length + 1) := by
    have hcount := congrArg List.length hdrop
    have hle := h.left
    rw [List.length_drop, List.length_cons] at hcount
    omega
  have hfates : (r.fates ++ [fate]).length = r.fates.length + 1 := List.length_append
  refine ⟨h.capacity, ?_, ?_, ?_, ?_, ?_⟩
  · show (r.fates ++ [fate]).length ≤ r.sent.length
    omega
  · show rest = r.sent.drop (r.fates ++ [fate]).length
    rw [hfates, ← List.drop_drop, hdrop]
    rfl
  · intro hrest hpos
    have hle := h.short (hphase hrest) hpos
    rw [hitems, List.length_cons] at hle
    exact Nat.le_of_succ_le hle
  · intro hevicting
    obtain ⟨hold, hlate⟩ := hover hevicting
    obtain ⟨hpos, hlt⟩ := h.overfull hold
    refine ⟨hpos, ?_⟩
    show k < rest.length + late
    rw [hitems, List.length_cons] at hlt
    omega
  · intro i newer late hi
    have hcases : r.fates[i]? = some (.evicted newer late) ∨
        i = r.fates.length ∧ fate = .evicted newer late := by grind
    rcases hcases with hold | ⟨rfl, hnew⟩
    · exact h.evicted i newer late hold
    · obtain ⟨hpos, hnewer, hle⟩ := hfate newer late hnew
      refine ⟨hpos, ?_, hle⟩
      show r.fates.length + 1 + newer ≤ r.sent.length
      omega

theorem account_evict (h : Account k r) (hphase : r.phase = .evicting) :
    Account k r.evict := by
  cases hitems : r.queue.items with
  | nil =>
    rw [evict_of_nil hitems]
    exact
      { h with
        short := fun _ _ => by
          show r.queue.items.length ≤ k
          rw [hitems]
          exact Nat.zero_le k
        overfull := fun hphase => absurd hphase (by simp) }
  | cons a rest =>
    rw [evict_of_cons hitems]
    refine account_leave h hitems (by simp) (by simp) ?_
    intro newer late hfate
    obtain ⟨rfl, rfl⟩ := Fate.evicted.inj hfate
    -- what is behind the oldest item has been sent after it
    obtain ⟨hpos, hlt⟩ := h.overfull hphase
    have hcount := congrArg List.length (h.waits.symm.trans hitems)
    rw [hitems, List.length_cons] at hlt
    rw [List.length_drop, List.length_cons] at hcount
    exact ⟨hpos, by omega, by omega⟩

theorem account_take (h : Account k r) : Account k r.take := by
  cases hitems : r.queue.items with
  | nil =>
    rw [take_of_nil hitems]
    exact h
  | cons a rest =>
    rw [take_of_cons hitems]
    exact account_leave h hitems id (fun hphase => ⟨hphase, rfl⟩) (by simp)

theorem account_step (hstep : Step r r') (h : Account k r) : Account k r' := by
  cases hstep with
  | push a _ => exact account_push h a
  | measure _ => exact account_measure h
  | evict hphase => exact account_evict h hphase
  | take => exact account_take h

theorem account (h : Steps (start α k) r) : Account k r := by
  induction h with
  | refl => exact account_start k
  | tail _ hstep ih => exact account_step hstep ih

/-! ## The newest items -/

/-- An item is evicted only if as many newer ones had been sent as fit, so that each of the
newest ones waits, or was taken, whenever the sender does nothing. -/
structure Keeps (k : Nat) (r : Race α) : Prop where
  evicted : ∀ newer late, .evicted newer late ∈ r.fates → k ≤ newer
  newest : r.phase = .resting → ∀ i < r.sent.length, r.sent.length ≤ i + k →
    r.fates.length ≤ i ∨ r.fates[i]? = some .taken

/-- What can be said of every run, whoever comes between. -/
structure Accounted (k : Nat) (r : Race α) : Prop where
  waits : r.queue.items = r.sent.drop r.fates.length
  short : r.phase = .resting → 0 < k → r.queue.items.length ≤ k
  /-- Nothing is ever evicted from a queue without limit. -/
  unlimited : k = 0 → ∀ newer late, .evicted newer late ∉ r.fates
  evicted : ∀ i newer late, r.fates[i]? = some (.evicted newer late) →
    i + 1 + newer ≤ r.sent.length ∧ k ≤ newer + late
  /-- One of the newest items that neither waits nor was taken was evicted after something
  else had been taken behind the sender's back. -/
  newest : ∀ i < r.sent.length, r.sent.length ≤ i + k →
    r.fates.length ≤ i ∨ r.fates[i]? = some .taken ∨
      ∃ newer late, r.fates[i]? = some (.evicted newer late) ∧ 0 < late
  punctual : (∀ newer late, .evicted newer late ∈ r.fates → late = 0) → Keeps k r

/-- An item that is evicted and was one of the newest was evicted late. -/
theorem Account.newest (h : Account k r) {i : Nat} (hnew : r.sent.length ≤ i + k) :
    r.fates.length ≤ i ∨ r.fates[i]? = some .taken ∨
      ∃ newer late, r.fates[i]? = some (.evicted newer late) ∧ 0 < late := by
  rcases Nat.lt_or_ge i r.fates.length with hlt | hge
  · cases hfate : r.fates[i]? with
    | none => exact absurd (List.getElem?_eq_none_iff.mp hfate) (Nat.not_le_of_lt hlt)
    | some fate =>
      cases fate with
      | taken => exact .inr (.inl rfl)
      | evicted newer late =>
        obtain ⟨-, hplace, hnewer⟩ := h.evicted i newer late hfate
        exact .inr (.inr ⟨newer, late, rfl, by omega⟩)
  · exact .inl hge

/-- If nothing is ever taken between a measuring and its eviction, the newest items are
kept. -/
theorem Account.keeps (h : Account k r)
    (hpunctual : ∀ newer late, .evicted newer late ∈ r.fates → late = 0) : Keeps k r := by
  refine ⟨?_, ?_⟩
  · intro newer late hmem
    obtain ⟨i, hi⟩ := List.mem_iff_getElem?.mp hmem
    obtain ⟨-, -, hnewer⟩ := h.evicted i newer late hi
    have hzero := hpunctual newer late hmem
    omega
  · intro _ i _ hnew
    refine (h.newest hnew).imp_right fun hrest => hrest.resolve_right ?_
    intro hex
    obtain ⟨newer, late, hfate, hlate⟩ := hex
    have hzero := hpunctual newer late (List.mem_of_getElem? hfate)
    omega

/-- **Every eviction is accounted for.** In every run, whenever others take what they can,
an item is evicted only if as many newer ones had been sent as fit, or if it makes up the
number together with those that were taken since the queue was measured. -/
theorem evictions_accounted (h : Steps (start α k) r) : Accounted k r := by
  have haccount := account h
  exact
    { waits := haccount.waits
      short := haccount.short
      unlimited := fun hzero newer late hmem => by
        obtain ⟨i, hi⟩ := List.mem_iff_getElem?.mp hmem
        have hpos := (haccount.evicted i newer late hi).1
        omega
      evicted := fun i newer late hfate => (haccount.evicted i newer late hfate).2
      newest := fun i _ hnew => haccount.newest hnew
      punctual := haccount.keeps }

/-! ## How the newest item is lost -/

/-- Sending fills the queue as long as it is not full. -/
theorem steps_fill {k : Nat} (items : List α) (h : items.length ≤ k) :
    Steps (start α k)
      { start α k with queue := (start α k).queue.holding items, sent := items } := by
  induction items using List.reverseRecOn with
  | nil => exact .refl
  | append_singleton items a ih =>
    rw [List.length_append, List.length_singleton] at h
    let filled : Race α :=
      { start α k with queue := (start α k).queue.holding items, sent := items }
    have hfull : ¬ (filled.push a).queue.isOverfull = true := by
      rw [Lossy.isOverfull_iff, not_and, Nat.not_lt]
      intro _
      show (items ++ [a]).length ≤ k
      rw [List.length_append, List.length_singleton]
      exact h
    have hmeasure := measure_of_not_overfull hfull
    have hsteps := ((ih (by omega)).tail (.push filled a rfl)).tail (.measure _ rfl)
    rw [hmeasure] at hsteps
    exact hsteps

/-- Whoever takes can take the oldest items one by one, whatever the sender is about to
do. -/
theorem steps_take (older newer : List α) (h : r.queue.items = older ++ newer) :
    Steps r { r with
      queue := r.queue.holding newer
      fates := r.fates ++ List.replicate older.length .taken
      late := r.late + older.length } := by
  induction older generalizing r with
  | nil =>
    have h : r.queue.items = newer := h
    rw [Lossy.holding_self h, List.length_nil, List.replicate_zero, List.append_nil]
    exact .refl
  | cons a older ih =>
    have htake := take_of_cons h
    have hrest := ih (r := r.take) (by rw [htake]; rfl)
    refine .head (.take r) ?_
    convert hrest using 1
    rw [htake, List.length_cons, List.replicate_succ, List.append_assoc, Nat.add_assoc,
      Nat.add_comm older.length]
    rfl

/-- A sender that has found the queue overfull, when all the older items have been taken
since. -/
def behind (older : List α) (newest : α) : Race α where
  queue := { channel := { items := [newest] }, capacity := older.length }
  phase := .evicting
  sent := older ++ [newest]
  fates := List.replicate older.length .taken
  late := older.length

theorem steps_behind (older : List α) (newest : α) (h : older ≠ []) :
    Steps (start α older.length) (behind older newest) := by
  let filled : Race α :=
    { start α older.length with
      queue := (start α older.length).queue.holding older
      sent := older }
  have hfull : (filled.push newest).queue.isOverfull = true := by
    refine Lossy.isOverfull_iff.mpr ⟨List.length_pos_iff.mpr h, ?_⟩
    show older.length < (older ++ [newest]).length
    rw [List.length_append]
    exact Nat.lt_succ_self _
  have hmeasured : (filled.push newest).measure =
      { filled.push newest with phase := .evicting, late := 0 } := measure_of_overfull hfull
  have htaken : Steps (filled.push newest).measure (behind older newest) := by
    have hsteps := steps_take (r := (filled.push newest).measure) older [newest]
      (by rw [hmeasured]; rfl)
    convert hsteps using 1
    rw [hmeasured]
    show behind older newest = { behind older newest with late := 0 + older.length }
    rw [Nat.zero_add]
    rfl
  have hpushed := (steps_fill older (Nat.le_refl _)).tail (.push filled newest rfl)
  exact (hpushed.tail (.measure _ rfl)).trans htaken

/-- **The newest item can be evicted,** when there is nothing newer and nothing else in the
queue. Whatever the capacity, and whatever is sent: the queue is found overfull by one, and
all the older items are taken before the sender evicts. -/
theorem newest_evicted (older : List α) (newest : α) (h : older ≠ []) :
    ∃ r, Steps (start α older.length) r ∧ r.phase = .resting ∧ r.sent = older ++ [newest] ∧
      r.queue.items = [] ∧
      r.fates = List.replicate older.length .taken ++ [.evicted 0 older.length] := by
  have hlast : (behind older newest).queue.items = [newest] := rfl
  have hnewer : (behind older newest).sent.length - ((behind older newest).fates.length + 1) =
      0 := by
    simp [behind]
  have hevicted := evict_of_cons hlast
  rw [hnewer] at hevicted
  have hempty : ¬ (behind older newest).evict.queue.isOverfull = true := by
    rw [hevicted, Lossy.isOverfull_iff]
    exact fun hboth => Nat.not_lt_zero _ hboth.2
  have hdone := ((steps_behind older newest h).tail (.evict _ rfl)).tail
    (.measure _ (by rw [hevicted]))
  refine ⟨_, hdone, ?_⟩
  rw [measure_of_not_overfull hempty, hevicted]
  exact ⟨rfl, rfl, rfl, rfl⟩

/-- A sender of two numbers to a queue for one, behind whose back the first one is taken. -/
def hurried : Race Nat :=
  let r := ((start Nat 1).push 0).measure
  (r.push 1).measure.take.evict.measure

theorem hurried_steps : Steps (start Nat 1) hurried := by
  unfold hurried
  exact .tail (.tail (.tail (.tail (.tail (.tail (.single (.push _ 0 rfl)) (.measure _ rfl))
    (.push _ 1 rfl)) (.measure _ rfl)) (.take _)) (.evict _ rfl)) (.measure _ rfl)

/-- The last number has gone for no newer one, and the queue is empty. -/
theorem hurried_not_keeps :
    (Steps (start Nat 1) hurried ∧ hurried.phase = .resting ∧ hurried.sent = [0, 1] ∧
      hurried.queue.items = [] ∧ hurried.fates = [.taken, .evicted 0 1]) ∧
    ¬ ∀ (k : Nat) (r : Race Nat), 0 < k → Steps (start Nat k) r → Keeps k r := by
  refine ⟨⟨hurried_steps, rfl, rfl, rfl, rfl⟩, ?_⟩
  intro hall
  have hkept := hall 1 hurried (by decide) hurried_steps
  exact absurd (hkept.evicted 0 1 (by decide)) (by decide)

/-- The eviction that should not have been is made up for by the number that was taken. -/
theorem evictions_accounted_hurried :
    Steps (start Nat 1) hurried ∧ hurried.fates[1]? = some (.evicted 0 1) ∧ 1 ≤ 0 + 1 :=
  ⟨hurried_steps, rfl, ((evictions_accounted hurried_steps).evicted 1 0 1 rfl).2⟩

end Race

end NodeGraph
