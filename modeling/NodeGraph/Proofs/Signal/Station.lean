import Mathlib.Data.List.Basic
import NodeGraph.Signal

/-!
# A signal trips once, for everybody

A signal is one of perhaps many in its process, and the interrupt key is there only
once: whoever asks for it first has it for good. A `Station` is a signal together
with the one thing that it does not know of itself, whether somebody else has the
key. Everything that can happen to it is an `Event`, and a run is a list of events,
in which nothing is asked for but what ownership guarantees (`Allowed`): a killer is
used only while it is held.

What should be the case is told by a `Chronicle`, which is kept from the events
alone: how often somebody killed, and how many killers are left, the one of an
installed handler among them.

> `Tells.step`: the chronicle tells what the flags of the signal are, and an event
> that is allowed keeps it so.
>
> `Tells.tripped`: the signal is tripped if and only if somebody has killed or no
> killer is left.
>
> `Tells.stays`: whoever could act on a tripped signal cannot undo that.
-/

namespace NodeGraph.Signal

/-! ## Runs -/

/-- A signal in a process. -/
structure Station where
  signal : Signal := {}
  /-- Whether somebody else's handler has the interrupt key. -/
  isTaken : Bool := false

/-- What can happen to a signal in a process. -/
inductive Event where
  /-- Something is done with the signal. -/
  | own (action : Action)
  /-- Somebody else asks for the interrupt key. -/
  | elsewhere
deriving DecidableEq, Repr

namespace Station

/-- Carries out an event. A handler that is refused is dropped with the killer that
was made for it, so it leaves nothing behind. -/
def step (s : Station) : Event → Outcome × Station
  | .own action =>
    if action = .handleInterrupt ∧ s.isTaken = true then (⟨.refused, [], []⟩, s)
    else ((s.signal.step action).1, { s with signal := (s.signal.step action).2 })
  | .elsewhere =>
    if s.signal.handled then (⟨.refused, [], []⟩, s)
    else (⟨.done, [], []⟩, { s with isTaken := true })

/-- The station after some events. -/
def after (s : Station) : List Event → Station
  | [] => s
  | event :: events => after (s.step event).2 events

/-- Whether the signal has tripped. -/
def isTripped (s : Station) : Bool := s.signal.isTripped

/-- What a wait for a limited time gives, begun now, if these events happen before
the time is up: it looks now and after each of them. -/
def waitWhile (s : Station) : List Event → Bool
  | [] => s.isTripped
  | event :: events => s.isTripped || waitWhile (s.step event).2 events

/-- Whoever kills, makes a killer, drops one or gives one to a handler has one. -/
def Allowed (s : Station) : Event → Prop
  | .own .kill => true ∈ s.signal.killers
  | .own .cloneKiller => true ∈ s.signal.killers
  | .own .handleInterrupt => true ∈ s.signal.killers
  | .own (.dropKiller k) => s.signal.killers[k]? = some true
  | _ => True

/-- All events of a run are allowed. -/
def Runs (s : Station) : List Event → Prop
  | [] => True
  | event :: events => s.Allowed event ∧ Runs (s.step event).2 events

end Station

/-- What somebody who only hears of the events writes down. -/
structure Chronicle where
  /-- How often somebody killed, by hand or by the interrupt key. -/
  kills : Nat := 0
  /-- How many killers are left, the one that an installed handler holds included. -/
  left : Nat := 1
  /-- Whether the installed handler is one of this signal's. -/
  isOurs : Bool := false
  /-- Whether any handler is installed. -/
  isKeyed : Bool := false

/-- Writes down an event. The first to ask for the interrupt key gets it. -/
def Chronicle.enter (c : Chronicle) : Event → Chronicle
  | .own .kill => { c with kills := c.kills + 1 }
  | .own .cloneKiller => { c with left := c.left + 1 }
  | .own (.dropKiller _) => { c with left := c.left - 1 }
  | .own .handleInterrupt =>
    if c.isKeyed then c else { c with left := c.left + 1, isOurs := true, isKeyed := true }
  | .own .interrupt => if c.isOurs then { c with kills := c.kills + 1 } else c
  | .own _ => c
  | .elsewhere => { c with isKeyed := true }

/-- The chronicle of a run. -/
def chronicle (events : List Event) : Chronicle := events.foldl Chronicle.enter {}

/-! ## One action -/

variable {s : Signal}

/-- The killers that are held. -/
def held (s : Signal) : Nat := s.killers.count true

theorem isTripped_iff :
    s.isTripped = true ↔ s.armed = false ∨ s.held + s.handled.toNat = 0 := by
  have hany : s.killers.any id = true ↔ 0 < s.held := by
    rw [List.any_eq_true, held, List.count_pos_iff]
    constructor
    · rintro ⟨b, hb, htrue⟩
      exact (show b = true from htrue) ▸ hb
    · intro hb
      exact ⟨true, hb, rfl⟩
  unfold isTripped isHeld
  rw [Bool.or_eq_true, Bool.not_eq_true', Bool.not_eq_true', Bool.or_eq_false_iff,
    ← Bool.not_eq_true (s.killers.any id), hany]
  cases s.handled <;> simp

theorem held_dropKiller {k : Nat} (h : s.killers[k]? = some true) :
    (s.dropKiller k).held = s.held - 1 := by
  obtain ⟨hk, htrue⟩ := List.getElem?_eq_some_iff.mp h
  unfold held dropKiller
  rw [List.count_set hk, htrue]
  simp

/-- Only a wait is a new wait. -/
theorem act_waits (action : Action) :
    (s.act action).2.1.waits = s.waits ++ if action = .wait then [true] else [] := by
  cases action <;> simp [act, kill, cloneKiller, dropKiller]
  all_goals split <;> rfl

theorem mem_blocked {n : Nat} : n ∈ s.blocked ↔ s.waits[n]? = some true := by
  unfold blocked
  rw [List.mem_filter, List.mem_range, List.getD_eq_getElem?_getD]
  constructor
  · rintro ⟨hn, hblocked⟩
    rw [List.getElem?_eq_getElem hn] at hblocked ⊢
    exact congrArg some hblocked
  · intro h
    refine ⟨(List.getElem?_eq_some_iff.mp h).1, ?_⟩
    rw [h]
    rfl

/-- Letting waits return changes nothing else. -/
theorem step_eq (action : Action) :
    s.step action =
      (⟨(s.act action).1, if (s.act action).2.1.isTripped then (s.act action).2.1.blocked else [],
        (s.act action).2.2⟩,
      { (s.act action).2.1 with waits := if (s.act action).2.1.isTripped
          then (s.act action).2.1.waits.map fun _ => false else (s.act action).2.1.waits }) := by
  unfold step
  by_cases h : (s.act action).2.1.isTripped = true
  · simp [h, release]
  · simp [h]

/-! ## The chronicle tells the state -/

/-- What the chronicle tells of a station. -/
structure Tells (c : Chronicle) (s : Station) : Prop where
  armed : s.signal.armed = decide (c.kills = 0)
  left : c.left = s.signal.held + s.signal.handled.toNat
  ours : c.isOurs = s.signal.handled
  keyed : c.isKeyed = (s.signal.handled || s.isTaken)

namespace Tells

variable {c : Chronicle} {s : Station} {e : Event}

theorem start : Tells {} {} := ⟨rfl, rfl, rfl, rfl⟩

theorem tripped (h : Tells c s) : s.isTripped = true ↔ 0 < c.kills ∨ c.left = 0 := by
  rw [Station.isTripped, isTripped_iff, h.armed, ← h.left, decide_eq_false_iff_not,
    Nat.pos_iff_ne_zero]

/-- Whoever acts as a killer has one. -/
theorem left_pos (h : Tells c s) (hheld : true ∈ s.signal.killers) : 0 < c.left := by
  have hcount : 0 < s.signal.held := List.count_pos_iff.mpr hheld
  rw [h.left]
  omega

theorem step (h : Tells c s) (ha : s.Allowed e) : Tells (c.enter e) (s.step e).2 := by
  obtain ⟨harmed, hleft, hours, hkeyed⟩ := h
  cases e with
  | elsewhere =>
    simp only [Station.step]
    split
    next hhandled => exact ⟨harmed, hleft, hours, by rw [hhandled]; rfl⟩
    next => exact ⟨harmed, hleft, hours, (Bool.or_true _).symm⟩
  | own action =>
    simp only [Station.step]
    split
    next hrefused =>
      obtain ⟨rfl, htaken⟩ := hrefused
      have hk : c.isKeyed = true := by rw [hkeyed, htaken, Bool.or_true]
      have henter : c.enter (.own .handleInterrupt) = c := if_pos hk
      rw [henter]
      exact ⟨harmed, hleft, hours, hkeyed⟩
    next hfree =>
      rw [step_eq]
      cases action with
      | kill => exact ⟨rfl, hleft, hours, hkeyed⟩
      | cloneKiller =>
        refine ⟨harmed, ?_, hours, hkeyed⟩
        show c.left + 1 = (s.signal.killers ++ [true]).count true + s.signal.handled.toNat
        rw [List.count_append, hleft, held]
        simp only [List.count_singleton_self]
        omega
      | dropKiller k =>
        refine ⟨harmed, ?_, hours, hkeyed⟩
        have hheld : true ∈ s.signal.killers := List.mem_of_getElem? ha
        have hpos : 0 < s.signal.held := List.count_pos_iff.mpr hheld
        show c.left - 1 = (s.signal.dropKiller k).held + s.signal.handled.toNat
        rw [held_dropKiller ha, hleft]
        omega
      | cloneReceiver => exact ⟨harmed, hleft, hours, hkeyed⟩
      | isKilled => exact ⟨harmed, hleft, hours, hkeyed⟩
      | waitFor => exact ⟨harmed, hleft, hours, hkeyed⟩
      | wait => exact ⟨harmed, hleft, hours, hkeyed⟩
      | handleInterrupt =>
        have htaken : s.isTaken = false := by simpa using hfree
        rw [htaken, Bool.or_false] at hkeyed
        simp only [act, Chronicle.enter, hkeyed]
        split
        next hhandled => exact ⟨harmed, hleft, hours, by rw [htaken, Bool.or_false]; exact hkeyed⟩
        next hhandled =>
          refine ⟨harmed, ?_, rfl, rfl⟩
          show c.left + 1 = s.signal.held + 1
          rw [hleft, Bool.eq_false_iff.mpr hhandled]
          rfl
      | interrupt =>
        simp only [act, Chronicle.enter, hours]
        split
        next => exact ⟨rfl, hleft, rfl, hkeyed⟩
        next => exact ⟨harmed, hleft, hours, hkeyed⟩

/-- Once tripped, a signal stays tripped. -/
theorem stays (h : Tells c s) (ha : s.Allowed e) (ht : s.isTripped = true) :
    (s.step e).2.isTripped = true := by
  have hpos := h.left_pos
  rw [(h.step ha).tripped]
  rw [h.tripped] at ht
  cases e with
  | elsewhere => exact ht
  | own action =>
    cases action with
    | kill => exact Or.inl (Nat.succ_pos _)
    | cloneKiller => exact ht.imp_right fun h0 => absurd h0 (Nat.ne_of_gt (hpos ha))
    | dropKiller k =>
      refine ht.imp_right fun h0 => ?_
      show c.left - 1 = 0
      omega
    | handleInterrupt =>
      have hkills : 0 < c.kills := ht.resolve_right (Nat.ne_of_gt (hpos ha))
      simp only [Chronicle.enter]
      split <;> exact Or.inl hkills
    | interrupt =>
      simp only [Chronicle.enter]
      split
      next => exact Or.inl (Nat.succ_pos _)
      next => exact ht
    | _ => exact ht

end Tells

end NodeGraph.Signal
