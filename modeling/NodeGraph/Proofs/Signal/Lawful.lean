import NodeGraph.Proofs.Signal.Station

/-!
# What is true of every run of a signal

`Tells` says what one event does to the flags of a signal. Here the events are put
one after another, and the waits come in: as long as the signal has not tripped all
of them block, and from then on none does (`after_waits`). So the waits that return
in a step are those that blocked before it if the signal trips in it, and at most
the new one if it had tripped before (`mem_returned`).

> `runs_lawful`: at every moment of every run the signal is tripped if and only if
> somebody has killed or no killer is left, and it stays so; of all killings the
> first and no other learns that it was the first; whoever looks sees what is the
> case; and a wait returns in the first step from its own on after which the signal
> is tripped.
-/

namespace NodeGraph.Signal

namespace Tells

variable {c : Chronicle} {s : Station} {e : Event} {events : List Event}

/-! ## From one event to a run -/

theorem after (h : Tells c s) (hr : s.Runs events) :
    Tells (events.foldl Chronicle.enter c) (s.after events) := by
  induction events generalizing c s with
  | nil => exact h
  | cons e events ih => exact ih (h.step hr.1) hr.2

theorem stays_after (h : Tells c s) (hr : s.Runs events) (ht : s.isTripped = true) :
    (s.after events).isTripped = true := by
  induction events generalizing c s with
  | nil => exact ht
  | cons e events ih => exact ih (h.step hr.1) hr.2 (h.stays hr.1 ht)

/-- A wait that runs out has looked at the end. -/
theorem waitWhile_eq (h : Tells c s) (hr : s.Runs events) :
    s.waitWhile events = (s.after events).isTripped := by
  induction events generalizing c s with
  | nil => rfl
  | cons e events ih =>
    unfold Station.waitWhile
    rw [ih (h.step hr.1) hr.2]
    by_cases ht : s.isTripped = true
    · rw [ht, Bool.true_or]
      exact (h.stays_after hr ht).symm
    · rw [Bool.eq_false_iff.mpr ht, Bool.false_or]
      rfl

end Tells

/-! ## The waits -/

section

variable {s : Signal} {action : Action} {n : Nat}

theorem isTripped_step : (s.step action).2.isTripped = (s.act action).2.1.isTripped := by
  rw [step_eq]
  rfl

theorem answer_step : (s.step action).1.answer = (s.act action).1 := by rw [step_eq]

theorem lines_step : (s.step action).1.lines = (s.act action).2.2 := by rw [step_eq]

/-- The waits of a signal that has been acted on, before any of them returns. -/
theorem act_waits_replicate (hw : s.waits = List.replicate n (!s.isTripped))
    (hopen : s.isTripped = false) :
    (s.act action).2.1.waits = List.replicate (n + if action = .wait then 1 else 0) true := by
  rw [act_waits, hw, hopen, List.replicate_add]
  split <;> rfl

theorem step_waits (hw : s.waits = List.replicate n (!s.isTripped))
    (hstays : s.isTripped = true → (s.step action).2.isTripped = true) :
    (s.step action).2.waits =
      List.replicate (n + if action = .wait then 1 else 0) (!(s.step action).2.isTripped) := by
  rw [isTripped_step] at hstays ⊢
  rw [step_eq]
  by_cases ht : (s.act action).2.1.isTripped = true
  · simp only [ht, if_true, List.map_const', Bool.not_true]
    rw [act_waits, hw, List.length_append, List.length_replicate]
    split <;> rfl
  · have hopen : s.isTripped = false := Bool.eq_false_iff.mpr fun h => ht (hstays h)
    simp only [ht]
    exact act_waits_replicate hw hopen

theorem mem_returned (hw : s.waits = List.replicate n (!s.isTripped)) {i : Nat} :
    i ∈ (s.step action).1.returned ↔ (s.step action).2.isTripped = true ∧
      i < n + (if action = .wait then 1 else 0) ∧ (s.isTripped = true → n ≤ i) := by
  rw [isTripped_step, step_eq]
  by_cases ht : (s.act action).2.1.isTripped = true
  · simp only [ht, if_true, true_and]
    rw [mem_blocked]
    by_cases hs : s.isTripped = true
    · -- all the old waits have returned before
      rw [act_waits, hw, hs, List.getElem?_append, List.length_replicate]
      split
      next hlt => simp [hlt]
      next hge =>
        split
        next =>
          rw [List.getElem?_singleton]
          simp
          omega
        next => simp
    · rw [act_waits_replicate hw (Bool.eq_false_iff.mpr hs), List.getElem?_replicate]
      simp [hs]
  · simp [ht]

end

/-- How many waits have begun in a run. -/
def begun (events : List Event) : Nat := events.count (.own .wait)

/-- All waits that have begun block as long as the signal has not tripped. -/
def Waiting (n : Nat) (s : Station) : Prop := s.signal.waits = List.replicate n (!s.isTripped)

section

variable {c : Chronicle} {s : Station} {e : Event} {n : Nat}

theorem Waiting.step (hw : Waiting n s) (h : Tells c s) (ha : s.Allowed e) :
    Waiting (n + begun [e]) (s.step e).2 := by
  have hstays := h.stays ha
  cases e with
  | elsewhere =>
    simp only [Station.step]
    split <;> exact hw
  | own action =>
    simp only [Station.step] at hstays ⊢
    split
    next hrefused =>
      rw [hrefused.1]
      exact hw
    next hfree =>
      rw [if_neg hfree] at hstays
      have hone : begun [.own action] = if action = .wait then 1 else 0 := by
        simp [begun, List.count_singleton]
      rw [hone]
      exact step_waits hw hstays

theorem Waiting.mem_returned (hw : Waiting n s) {i : Nat} :
    i ∈ (s.step e).1.returned ↔ (s.step e).2.isTripped = true ∧ i < n + begun [e] ∧
      (s.isTripped = true → n ≤ i) := by
  have hsame : ∀ i, ¬ (s.isTripped = true ∧ i < n + 0 ∧ (s.isTripped = true → n ≤ i)) := by
    rintro i ⟨ht, hlt, hle⟩
    exact Nat.not_le.mpr hlt (hle ht)
  cases e with
  | elsewhere =>
    simp only [Station.step]
    split <;> exact ⟨fun h => absurd h List.not_mem_nil, fun h => absurd h (hsame i)⟩
  | own action =>
    have hone : begun [.own action] = if action = .wait then 1 else 0 := by
      simp [begun, List.count_singleton]
    simp only [Station.step]
    split
    next hrefused =>
      rw [hrefused.1]
      exact ⟨fun h => absurd h List.not_mem_nil, fun h => absurd h (hsame i)⟩
    next =>
      rw [hone]
      exact Signal.mem_returned hw

end

/-! ## Moments -/

/-- The station before the event of this number. -/
def moment (events : List Event) (k : Nat) : Station := ({} : Station).after (events.take k)

/-- What has been written down before the event of this number. -/
def record (events : List Event) (k : Nat) : Chronicle := chronicle (events.take k)

/-- What the event of this number, if it is this one, brings about. -/
def outcome (events : List Event) (k : Nat) (e : Event) : Outcome :=
  ((moment events k).step e).1

section

variable {events : List Event} {e : Event} {k m : Nat}

theorem Station.after_append (s : Station) (events later : List Event) :
    s.after (events ++ later) = (s.after events).after later := by
  induction events generalizing s with
  | nil => rfl
  | cons e events ih => exact ih _

theorem Station.runs_append {s : Station} {events later : List Event} :
    s.Runs (events ++ later) ↔ s.Runs events ∧ (s.after events).Runs later := by
  induction events generalizing s with
  | nil => exact ⟨fun h => ⟨trivial, h⟩, And.right⟩
  | cons e events ih =>
    show s.Allowed e ∧ (s.step e).2.Runs (events ++ later) ↔ _
    rw [ih, ← and_assoc]
    rfl

theorem take_succ (he : events[k]? = some e) : events.take (k + 1) = events.take k ++ [e] := by
  rw [List.take_add_one, he]
  rfl

theorem moment_succ (he : events[k]? = some e) :
    moment events (k + 1) = ((moment events k).step e).2 := by
  unfold moment
  rw [take_succ he, Station.after_append]
  rfl

/-- What lies between two moments. -/
theorem moment_add (hkm : k ≤ m) :
    moment events m = (moment events k).after ((events.take m).drop k) := by
  have hsplit : events.take m = events.take k ++ (events.take m).drop k := by
    conv => lhs; rw [← List.take_append_drop k (events.take m), List.take_take, Nat.min_eq_left hkm]
  unfold moment
  rw [hsplit, Station.after_append, ← hsplit]

variable (hr : ({} : Station).Runs events)
include hr

theorem allowed (he : events[k]? = some e) : (moment events k).Allowed e := by
  have hsplit : events = events.take (k + 1) ++ events.drop (k + 1) :=
    (List.take_append_drop ..).symm
  rw [hsplit, take_succ he, List.append_assoc] at hr
  exact (Station.runs_append.mp hr).2.1

theorem runs_take (k : Nat) : ({} : Station).Runs (events.take k) := by
  rw [← List.take_append_drop k events] at hr
  exact (Station.runs_append.mp hr).1

theorem runs_between (hkm : k ≤ m) : (moment events k).Runs ((events.take m).drop k) := by
  have h := runs_take hr m
  rw [← List.take_append_drop k (events.take m), List.take_take, Nat.min_eq_left hkm] at h
  exact (Station.runs_append.mp h).2

theorem tells (k : Nat) : Tells (record events k) (moment events k) :=
  Tells.start.after (runs_take hr k)

theorem waiting (k : Nat) : Waiting (begun (events.take k)) (moment events k) := by
  induction k with
  | zero => exact rfl
  | succ k ih =>
    cases he : events[k]? with
    | none =>
      have hend : events.take (k + 1) = events.take k := by
        rw [List.take_add_one, he]
        exact List.append_nil _
      unfold moment
      rw [hend]
      exact ih
    | some e =>
      rw [moment_succ he, take_succ he, begun, List.count_append]
      exact ih.step (tells hr k) (allowed hr he)

theorem stays (hkm : k ≤ m) (ht : (moment events k).isTripped = true) :
    (moment events m).isTripped = true := by
  rw [moment_add hkm]
  exact (tells hr k).stays_after (runs_between hr hkm) ht

end

/-- Numbers are given to waits one after the other. -/
theorem exists_begun {events : List Event} {m i : Nat} :
    (∃ p < m, events[p]? = some (.own .wait) ∧ begun (events.take p) = i) ↔
      i < begun (events.take m) := by
  induction m with
  | zero => simp [begun]
  | succ m ih =>
    have hlast : (∃ p < m + 1, events[p]? = some (.own .wait) ∧ begun (events.take p) = i) ↔
        (∃ p < m, events[p]? = some (.own .wait) ∧ begun (events.take p) = i) ∨
          events[m]? = some (.own .wait) ∧ begun (events.take m) = i := by
      constructor
      · rintro ⟨p, hp, h⟩
        rcases Nat.lt_succ_iff_lt_or_eq.mp hp with hlt | rfl
        · exact Or.inl ⟨p, hlt, h⟩
        · exact Or.inr h
      · rintro (⟨p, hp, h⟩ | h)
        · exact ⟨p, Nat.lt_succ_of_lt hp, h⟩
        · exact ⟨m, Nat.lt_succ_self m, h⟩
    rw [hlast, ih]
    cases he : events[m]? with
    | none =>
      rw [List.take_add_one, he]
      simp
    | some e =>
      rw [take_succ he]
      by_cases hwait : e = .own .wait
      · subst hwait
        simp only [begun, List.count_append, List.count_singleton_self, true_and]
        omega
      · simp [begun, List.count_append, hwait]

/-! ## The law -/

/-- Step `q` is the first one from `p` on after which the signal is tripped. -/
def Awaited (events : List Event) (p q : Nat) : Prop :=
  p ≤ q ∧ (moment events (q + 1)).isTripped = true ∧
    ∀ r, p ≤ r → r < q → (moment events (r + 1)).isTripped = false

theorem returned_iff {events : List Event} (hr : ({} : Station).Runs events) {q i : Nat}
    {e : Event} (he : events[q]? = some e) :
    i ∈ (outcome events q e).returned ↔
      ∃ p, events[p]? = some (.own .wait) ∧ begun (events.take p) = i ∧ Awaited events p q := by
  have hback := (waiting hr q).mem_returned (e := e) (i := i)
  rw [← moment_succ he] at hback
  have hnumber : i < begun (events.take q) + begun [e] ↔
      ∃ p < q + 1, events[p]? = some (.own .wait) ∧ begun (events.take p) = i := by
    rw [exists_begun, take_succ he, begun, begun, begun, List.count_append]
  rw [hnumber] at hback
  refine hback.trans ⟨?_, ?_⟩
  · rintro ⟨ht, ⟨p, hp, hwait, hi⟩, hnew⟩
    refine ⟨p, hwait, hi, Nat.le_of_lt_succ hp, ht, fun r hpr hrq => ?_⟩
    by_contra htripped
    -- the signal had tripped before, so the wait must be the new one, and it is older
    have hq := stays hr (Nat.succ_le_of_lt hrq) (Bool.not_eq_false _ ▸ htripped)
    have hold : i < begun (events.take q) :=
      exists_begun.mp ⟨p, Nat.lt_of_le_of_lt hpr hrq, hwait, hi⟩
    exact Nat.not_le.mpr hold (hnew hq)
  · rintro ⟨p, hwait, hi, hpq, ht, hbefore⟩
    refine ⟨ht, ⟨p, Nat.lt_succ_of_le hpq, hwait, hi⟩, fun hq => ?_⟩
    rcases Nat.lt_or_eq_of_le hpq with hlt | rfl
    · have hlast := hbefore (q - 1) (Nat.le_sub_one_of_lt hlt) (by omega)
      rw [Nat.sub_add_cancel (Nat.one_le_of_lt hlt), hq] at hlast
      cases hlast
    · exact Nat.le_of_eq hi

/-- What is true of a run of a signal. -/
structure Lawful (events : List Event) : Prop where
  /-- It is tripped when somebody has killed or nobody could. -/
  tripped : ∀ k, (moment events k).isTripped = true ↔
    0 < (record events k).kills ∨ (record events k).left = 0
  /-- It stays tripped. -/
  stays : ∀ k m, k ≤ m → (moment events k).isTripped = true → (moment events m).isTripped = true
  /-- The first killing and no other learns that it was the first. -/
  first : ∀ k, events[k]? = some (.own .kill) →
    (outcome events k (.own .kill)).answer = .flag (decide ((record events k).kills = 0))
  /-- The handler says so if it was not the first to kill. -/
  interrupted : ∀ k, events[k]? = some (.own .interrupt) →
    (outcome events k (.own .interrupt)).lines =
      if (record events k).isOurs ∧ 0 < (record events k).kills then [alreadyShuttingDown] else []
  /-- The interrupt key is given away once. -/
  keyed : ∀ k, events[k]? = some (.own .handleInterrupt) →
    (outcome events k (.own .handleInterrupt)).answer =
      if (record events k).isKeyed then .refused else .done
  /-- Whoever looks sees what is the case. -/
  looks : ∀ k, events[k]? = some (.own .isKilled) →
    (outcome events k (.own .isKilled)).answer = .flag (moment events k).isTripped
  /-- A wait for a limited time says whether the signal has tripped when the time is up. -/
  limited : ∀ k m, k ≤ m →
    (moment events k).waitWhile ((events.take m).drop k) = (moment events m).isTripped
  /-- The same if nothing happens in that time. -/
  lookout : ∀ k, events[k]? = some (.own .waitFor) →
    (outcome events k (.own .waitFor)).answer = .flag (moment events k).isTripped
  /-- Waits are numbered. -/
  begins : ∀ k, events[k]? = some (.own .wait) →
    (outcome events k (.own .wait)).answer = .index (begun (events.take k))
  /-- A wait returns in the first step from its own on after which the signal is tripped,
  and in no other. -/
  returns : ∀ q e, events[q]? = some e → ∀ i, i ∈ (outcome events q e).returned ↔
    ∃ p, events[p]? = some (.own .wait) ∧ begun (events.take p) = i ∧ Awaited events p q

theorem runs_lawful (events : List Event) (hr : ({} : Station).Runs events) : Lawful events where
  tripped k := (tells hr k).tripped
  stays _ _ hkm := stays hr hkm
  first k _ := answer_step.trans (congrArg Answer.flag (tells hr k).armed)
  interrupted k _ := by
    refine lines_step.trans ?_
    have harmed := (tells hr k).armed
    have hours := (tells hr k).ours
    by_cases hhandled : (moment events k).signal.handled = true
    · by_cases hkills : (record events k).kills = 0 <;>
        simp [act, kill, hhandled, hkills, harmed, hours, Nat.pos_iff_ne_zero]
    · simp [act, hhandled, hours]
  keyed k _ := by
    have hkeyed := (tells hr k).keyed
    unfold outcome
    simp only [Station.step, true_and]
    split
    next htaken => rw [hkeyed, htaken, Bool.or_true, if_pos rfl]
    next hfree =>
      rw [hkeyed, Bool.eq_false_iff.mpr hfree, Bool.or_false, answer_step]
      simp only [act]
      split <;> rfl
  looks k _ := answer_step
  limited k m hkm := by
    rw [moment_add hkm]
    exact (tells hr k).waitWhile_eq (runs_between hr hkm)
  lookout k _ := answer_step
  begins k _ := by
    refine answer_step.trans ?_
    show Answer.index (moment events k).signal.waits.length = _
    rw [waiting hr k, List.length_replicate]
  returns _ _ he _ := returned_iff hr he

/-- A handler that is refused, a wait, and the last killer dropped. -/
def forsaken : List Event :=
  [.elsewhere, .own .handleInterrupt, .own .wait, .own (.dropKiller 0), .own .wait]

theorem runs_lawful_forsaken :
    ({} : Station).Runs forsaken ∧ Lawful forsaken ∧
      (outcome forsaken 1 (.own .handleInterrupt)).answer = .refused ∧
      (outcome forsaken 3 (.own (.dropKiller 0))).returned = [0] ∧
      (outcome forsaken 4 (.own .wait)).returned = [1] := by
  have hr : ({} : Station).Runs forsaken :=
    ⟨trivial, List.mem_singleton_self true, trivial, rfl, trivial, trivial⟩
  exact ⟨hr, runs_lawful forsaken hr, by decide, by decide, by decide⟩

end NodeGraph.Signal
