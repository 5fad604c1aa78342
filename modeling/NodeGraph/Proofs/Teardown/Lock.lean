import NodeGraph.Proofs.Teardown.Accounts

/-!
# Drops that wait for themselves

A drop takes services out of the registry while it holds the lock, and what the registry alone
held on to is dropped before it lets go of the lock. Loggers have nothing to take back, and go.
Nodes and registrations ask for the lock, which is not going to be free before they are gone.

> `Stuck`: among what is to be dropped under the lock is something that asks for it. Then nobody
> ever gets to the registry again (`Stuck.steps`), and the drop that holds the lock comes to
> wait for itself (`Stuck.exists_asksAgain`).
>
> `exists_unlocked_iff`: in any other case it lets go of the lock.
>
> `Clings`: a drop would end up stuck. This is told by the services that it takes out.
-/

namespace NodeGraph

variable {ε : Type}

/-- Only loggers go without the lock. -/
theorem Handle.exists_logger {handle : Handle} (h : ¬ handle.asksForLock = true) :
    ∃ logger, handle = .logger logger := by
  cases handle with
  | node n => exact absurd rfl h
  | logger logger => exact ⟨logger, rfl⟩
  | registration r => exact absurd rfl h

/-- What is registered in two graphs is the same. Feeds and the process log do not count. -/
structure Graph.SameEntries (g g' : Graph ε) : Prop where
  lastId : g'.lastId = g.lastId
  nodes : g'.nodes = g.nodes
  topics : g'.topics = g.topics
  services : g'.services = g.services

namespace Graph.SameEntries

theorem refl (g : Graph ε) : SameEntries g g := ⟨rfl, rfl, rfl, rfl⟩

theorem trans {g g' g'' : Graph ε} (h : SameEntries g g') (h' : SameEntries g' g'') :
    SameEntries g g'' :=
  ⟨h'.lastId.trans h.lastId, h'.nodes.trans h.nodes, h'.topics.trans h.topics,
    h'.services.trans h.services⟩

end Graph.SameEntries

namespace Premises

variable {p q : Premises ε} {x handle : Handle} {todo : List Handle}

/-! ## Under the lock -/

/-- As long as the lock is held, everybody leaves the registry as it is, and only the drop that
holds the lock gets on with what it has to drop, one logger after the other. -/
theorem Step.of_locked (h : Step p q) (hlock : p.lock = some todo) :
    p.graph.SameEntries q.graph ∧
      (q.lock = some todo ∨
        (∃ logger rest, todo = .logger logger :: rest ∧ q.lock = some rest) ∨
        todo = [] ∧ q.lock = none) := by
  have hheld : p.lock ≠ none := by
    rw [hlock]
    exact Option.some_ne_none _
  have hsame := Graph.SameEntries.refl p.graph
  cases h with
  | register _ free => exact absurd free hheld
  | subscribe _ _ _ _ _ free => exact absurd free hheld
  | publish _ _ _ free => exact absurd free hheld
  | advertise _ _ _ _ _ _ _ free => exact absurd free hheld
  | send _ _ _ _ free => exact absurd free hheld
  | log _ _ free => exact absurd free hheld
  | call _ _ free => exact absurd free hheld
  | drop _ free => exact absurd free hheld
  | lend logger => exact ⟨hsame, .inl hlock⟩
  | journal journal => exact ⟨⟨rfl, rfl, rfl, rfl⟩, .inl hlock⟩
  | turn feed hturn =>
    obtain ⟨_, _, _⟩ := hturn
    exact ⟨⟨rfl, rfl, rfl, rfl⟩, .inl hlock⟩
  | finish id _ =>
    unfold Premises.finish
    split
    · exact ⟨hsame, .inl hlock⟩
    · exact ⟨hsame, .inl hlock⟩
  | letGo handle _ => exact ⟨hsame, .inl hlock⟩
  | forget logger _ => exact ⟨hsame, .inl hlock⟩
  | forgetWithin logger rest h =>
    exact ⟨hsame, .inr (.inl ⟨logger, rest, Option.some.inj (hlock.symm.trans h), rfl⟩)⟩
  | unlock h => exact ⟨hsame, .inr (.inr ⟨Option.some.inj (hlock.symm.trans h), rfl⟩)⟩

/-- Something that asks for the lock has to be dropped before the lock is let go of. -/
def Stuck (p : Premises ε) (x : Handle) : Prop :=
  x.asksForLock = true ∧ ∃ todo, p.lock = some todo ∧ x ∈ todo

/-- Steps during which the lock is not let go of. -/
abbrev HeldSteps : Premises ε → Premises ε → Prop :=
  Relation.ReflTransGen fun p q => Step p q ∧ q.lock ≠ none

namespace Stuck

theorem lock_ne_none (h : Stuck p x) : p.lock ≠ none := by
  obtain ⟨-, todo, hlock, -⟩ := h
  rw [hlock]
  exact Option.some_ne_none _

theorem step (h : Stuck p x) (hstep : Step p q) :
    Stuck q x ∧ p.graph.SameEntries q.graph := by
  obtain ⟨hasks, todo, hlock, hx⟩ := h
  obtain ⟨hsame, hsome | ⟨logger, rest, rfl, hrest⟩ | ⟨rfl, -⟩⟩ := hstep.of_locked hlock
  · exact ⟨⟨hasks, todo, hsome, hx⟩, hsame⟩
  · refine ⟨⟨hasks, rest, hrest, (List.mem_cons.mp hx).resolve_left ?_⟩, hsame⟩
    rintro rfl
    exact Bool.false_ne_true hasks
  · exact absurd hx List.not_mem_nil

/-- **Nobody ever gets to the registry again,** whatever anybody does. -/
theorem steps (h : Stuck p x) (hsteps : Steps p q) :
    Stuck q x ∧ p.graph.SameEntries q.graph := by
  induction hsteps with
  | refl => exact ⟨h, .refl _⟩
  | tail _ hstep ih =>
    obtain ⟨hstuck, hsame⟩ := ih
    obtain ⟨hnext, hstill⟩ := hstuck.step hstep
    exact ⟨hnext, hsame.trans hstill⟩

/-- The drop that holds the lock comes to the handle and waits for itself. -/
theorem exists_asksAgain (h : Stuck p x) : ∃ q, HeldSteps p q ∧ q.AsksAgain := by
  obtain ⟨hasks, todo, hlock, hx⟩ := h
  induction todo generalizing p with
  | nil => exact absurd hx List.not_mem_nil
  | cons first rest ih =>
    by_cases hfirst : first.asksForLock = true
    · exact ⟨p, .refl, first, rest, hlock, hfirst⟩
    · have hrest : x ∈ rest := by
        refine (List.mem_cons.mp hx).resolve_left ?_
        rintro rfl
        exact hfirst hasks
      obtain ⟨logger, rfl⟩ := Handle.exists_logger hfirst
      obtain ⟨q, hsteps, hagain⟩ := ih (p := { p with lock := some rest }) rfl hrest
      exact ⟨q, .head ⟨.forgetWithin logger rest hlock, Option.some_ne_none _⟩ hsteps, hagain⟩

/-- It does so only if something like that was among what it had to drop to begin with. -/
theorem of_asksAgain (hlock : p.lock = some todo) (hsteps : HeldSteps p q) (h : q.AsksAgain) :
    ∃ x, Stuck p x := by
  induction hsteps using Relation.ReflTransGen.head_induction_on generalizing todo with
  | refl =>
    obtain ⟨handle, rest, hheld, hasks⟩ := h
    exact ⟨handle, hasks, _, hheld, List.mem_cons_self⟩
  | head hstep _ ih =>
    obtain ⟨-, hsome | ⟨logger, rest, rfl, hrest⟩ | ⟨-, hnone⟩⟩ := hstep.1.of_locked hlock
    · obtain ⟨x, hasks, todo', hlock', hx⟩ := ih hsome
      rw [hsome] at hlock'
      cases hlock'
      exact ⟨x, hasks, todo, hlock, hx⟩
    · obtain ⟨x, hasks, todo', hlock', hx⟩ := ih hrest
      rw [hrest] at hlock'
      cases hlock'
      exact ⟨x, hasks, _, hlock, List.mem_cons_of_mem _ hx⟩
    · exact absurd hnone hstep.2

/-- What it waits for is never taken out. -/
theorem droppable (h : Stuck p x) (hp : Accounted p) : p.audit.Droppable x := by
  obtain ⟨hasks, todo, hlock, hx⟩ := h
  refine (hp.held x hasks).mp (List.count_pos_iff.mp ?_)
  have := List.count_pos_iff.mpr hx
  rw [count_handles, hlock, Option.getD_some]
  omega

end Stuck

/-- If nothing under the lock asks for it, the lock is let go of, and nothing else changes. -/
theorem steps_unlock (hlock : p.lock = some todo) (h : ∀ x ∈ todo, x.asksForLock = false) :
    Steps p { p with lock := none } := by
  induction todo generalizing p with
  | nil => exact .single (.unlock hlock)
  | cons first rest ih =>
    obtain ⟨logger, rfl⟩ := Handle.exists_logger (Bool.eq_false_iff.mp (h _ List.mem_cons_self))
    exact .head (.forgetWithin logger rest hlock)
      (ih (p := { p with lock := some rest }) rfl fun x hx => h x (List.mem_cons_of_mem _ hx))

/-- The lock is let go of, sooner or later, unless the drop that holds it is stuck. -/
theorem exists_unlocked_iff : (∃ q, Steps p q ∧ q.lock = none) ↔ ∀ x, ¬ Stuck p x := by
  constructor
  · rintro ⟨q, hsteps, hfree⟩ x hstuck
    exact (hstuck.steps hsteps).1.lock_ne_none hfree
  · intro h
    cases hlock : p.lock with
    | none => exact ⟨p, .refl, hlock⟩
    | some todo =>
      refine ⟨_, steps_unlock hlock fun x hx => ?_, rfl⟩
      exact Bool.eq_false_iff.mpr fun hasks => h x ⟨hasks, todo, hlock, hx⟩

/-! ## What a drop takes along -/

/-- A handle takes a service out whose handler nobody else holds on to, and which keeps something
that asks for the lock. -/
def Clings (p : Premises ε) (handle : Handle) : Prop :=
  ∃ s ∈ p.graph.leaving handle, s.id ∉ p.calls ∧ ∃ x ∈ s.handler.owns, x.asksForLock = true

instance (p : Premises ε) (handle : Handle) : Decidable (p.Clings handle) :=
  inferInstanceAs (Decidable (∃ s ∈ p.graph.leaving handle,
    s.id ∉ p.calls ∧ ∃ x ∈ s.handler.owns, x.asksForLock = true))

theorem stuck_drop_iff : (p.drop handle).Stuck x ↔
    x.asksForLock = true ∧
      ∃ s ∈ p.graph.leaving handle, s.id ∉ p.calls ∧ x ∈ s.handler.owns := by
  unfold Stuck drop
  simp only [Option.some.injEq, exists_eq_left', List.mem_flatMap, List.mem_filter,
    decide_eq_true_iff, and_assoc]

theorem clings_iff_stuck : p.Clings handle ↔ ∃ x, (p.drop handle).Stuck x := by
  simp only [stuck_drop_iff]
  constructor
  · rintro ⟨s, hs, hlast, x, hx, hasks⟩
    exact ⟨x, hasks, s, hs, hlast, hx⟩
  · rintro ⟨x, hasks, s, hs, hlast, hx⟩
    exact ⟨s, hs, hlast, x, hx, hasks⟩

/-- A drop that takes the lock lets go of it again exactly if it does not cling to it. -/
theorem exists_unlocked_drop_iff :
    (∃ q, Steps (p.drop handle) q ∧ q.lock = none) ↔ ¬ p.Clings handle := by
  rw [exists_unlocked_iff, clings_iff_stuck, not_exists]

/-- While no call is in flight, this is what `Graph.dropLocked?` goes by. -/
theorem clings_iff_dropLocked? (hcalls : p.calls = []) :
    p.Clings handle ↔ p.graph.dropLocked? handle = none := by
  have hasks : p.Clings handle ↔ p.graph.asksAgain handle = true := by
    unfold Clings Graph.asksAgain
    rw [Graph.discarded_eq]
    unfold Graph.leaving Graph.discardedAll
    simp only [hcalls, List.not_mem_nil, not_false_eq_true, true_and, List.any_eq_true,
      List.mem_map, exists_exists_and_eq_and]
  rw [hasks]
  unfold Graph.dropLocked?
  split
  · exact iff_of_true ‹_› rfl
  · exact iff_of_false ‹_› (Option.some_ne_none _)

end Premises

end NodeGraph
