import NodeGraph.Proofs.Calls.Exits
import NodeGraph.Proofs.Teardown.Lock

/-!
# How a teardown ends

Nobody can tell a drop beforehand that it will wait for itself: it depends on what the handlers
keep that go with it, and on who else holds on to them at that moment.

> `Accounted.exists_settled`: if nothing that is due clings to the lock, all of it can be
> dropped, one after the other. What clings later would have clung from the start
> (`Clings.of_drop`), since drops only take services away.
>
> `Accounted.exists_let_out`: what calls hold on to comes out without the lock.
>
> `not_asksAgain_of_careful`: handlers that keep nothing but loggers are always safe. They are
> all that the components of this library offer.
>
> `teardown_waits_iff`: in general a drop may wait for itself, and this is when.
-/

namespace NodeGraph

variable {ε : Type}

namespace Premises

variable {p q : Premises ε} {handle x : Handle}

/-! ## Nothing clings -/

/-- What clings after a drop would have clung before it. -/
theorem Clings.of_drop (hp : Accounted p) (hdroppable : p.audit.Droppable handle)
    (h : (p.drop handle).Clings x) : p.Clings x := by
  obtain ⟨s, hs, hlast, howns⟩ := h
  obtain ⟨hmem, hlost⟩ := List.mem_filter.mp hs
  refine ⟨s, List.mem_filter.mpr ⟨?_, hlost⟩, hlast, howns⟩
  have hservices := Audit.services_dropHandle hp.reachable.sound hp.reachable.fed hdroppable
  exact (List.mem_filter.mp (hservices ▸ hmem)).1

/-- A handle that is due and does not cling can be dropped, and nothing else is. -/
theorem Accounted.exists_dropped (hp : Accounted p) (hfree : p.lock = none) (hmem : handle ∈ p.due)
    (h : ¬ p.Clings handle) :
    ∃ q, Steps p q ∧ q.lock = none ∧ q.due = p.due.erase handle ∧
      (∀ x, q.Clings x → p.Clings x) ∧
      ∀ x, x.asksForLock = true → (q.audit.Droppable x ↔ p.audit.Droppable x ∧ x ≠ handle) := by
  by_cases hasks : handle.asksForLock = true
  · have hdroppable := hp.droppable hasks hmem
    have hunlock : Steps (p.drop handle) { p.drop handle with lock := none } := by
      refine steps_unlock rfl fun x hx => Bool.eq_false_iff.mpr fun hx' => h ?_
      obtain ⟨-, s, hs, hlast, howns⟩ := stuck_drop_iff.mp ⟨hx', _, rfl, hx⟩
      exact ⟨s, hs, hlast, x, howns, hx'⟩
    refine ⟨_, .head (.drop handle hfree hasks hmem) hunlock, rfl, rfl,
      fun x hx => .of_drop hp hdroppable hx, fun x hx => ?_⟩
    exact Audit.droppable_dropHandle_iff hp.reachable.sound hdroppable hx
  · obtain ⟨logger, rfl⟩ := Handle.exists_logger hasks
    refine ⟨_, .single (.forget logger hmem), hfree, rfl, fun x hx => hx, fun x hx => ?_⟩
    refine (and_iff_left ?_).symm
    rintro rfl
    exact hasks hx

/-- **If nothing that is due clings, all of it can be dropped,** one after the other, and nothing
else is. -/
theorem Accounted.exists_settled (hp : Accounted p) (hfree : p.lock = none)
    (h : ∀ x ∈ p.due, ¬ p.Clings x) :
    ∃ q, Steps p q ∧ q.lock = none ∧ q.due = [] ∧
      ∀ x, x.asksForLock = true → (q.audit.Droppable x ↔ p.audit.Droppable x ∧ x ∉ p.due) := by
  generalize hdue : p.due = due at h ⊢
  induction due generalizing p with
  | nil =>
    exact ⟨p, .refl, hfree, hdue, fun x _ => (and_iff_left List.not_mem_nil).symm⟩
  | cons first rest ih =>
    have hfirst : first ∈ p.due := hdue ▸ List.mem_cons_self
    obtain ⟨m, hsteps, hunlocked, herased, hclings, hkept⟩ :=
      hp.exists_dropped hfree hfirst (h first List.mem_cons_self)
    have hrest : m.due = rest := by rw [herased, hdue, List.erase_cons_head]
    obtain ⟨q, hsteps', hunlocked', hnil, hkept'⟩ :=
      ih (hsteps.accounted hp) hunlocked hrest
        fun x hx hclung => h x (List.mem_cons_of_mem _ hx) (hclings x hclung)
    refine ⟨q, hsteps.trans hsteps', hunlocked', hnil, fun x hx => ?_⟩
    rw [hkept' x hx, hkept x hx, List.mem_cons, not_or, and_assoc]

/-! ## Calls come to their ends -/

/-- What a withdrawn handler keeps comes out when the last call lets go of it, and that does not
take the lock. -/
theorem Accounted.exists_let_out (hp : Accounted p) {s : Service} (hs : s ∈ p.strays) :
    ∃ q, Steps p q ∧ q.audit = p.audit ∧ q.lock = p.lock ∧ ∀ x ∈ s.handler.owns, x ∈ q.due := by
  generalize hcount : p.calls.count s.id = count
  induction count generalizing p with
  | zero => exact absurd (hp.called s hs) (List.count_eq_zero.mp hcount)
  | succ count ih =>
    have hstep := Step.finish (p := p) s.id (hp.called s hs)
    have hp' := hstep.accounted hp
    by_cases hlast : s.id ∈ p.calls.erase s.id
    · rw [Premises.finish, if_pos hlast] at hstep hp'
      have hless : (p.calls.erase s.id).count s.id = count := by
        rw [List.count_erase_self, hcount, Nat.add_sub_cancel]
      obtain ⟨q, hsteps, haudit, hlock, hdue⟩ := ih hp' hs hless
      exact ⟨q, .head hstep hsteps, haudit, hlock, hdue⟩
    · rw [Premises.finish, if_neg hlast] at hstep
      refine ⟨_, .single hstep, rfl, rfl, fun x hx => List.mem_append_left _ ?_⟩
      exact List.mem_flatMap.mpr ⟨s, List.mem_filter.mpr ⟨hs, decide_eq_true rfl⟩, hx⟩

/-! ## Careful runs -/

/-- A step that offers no handler which keeps anything that asks for the lock. -/
def CarefulStep (p q : Premises ε) : Prop :=
  Step p q ∧ ∀ s ∈ q.graph.services,
    s ∈ p.graph.services ∨ ∀ x ∈ s.handler.owns, x.asksForLock = false

/-- Nothing that handlers keep or that has to be dropped under the lock asks for it. -/
structure Careful (p : Premises ε) : Prop where
  offered : ∀ s ∈ p.graph.services, ∀ x ∈ s.handler.owns, x.asksForLock = false
  strays : ∀ s ∈ p.strays, ∀ x ∈ s.handler.owns, x.asksForLock = false
  lock : ∀ x ∈ p.lock.getD [], x.asksForLock = false

/-- Where calls and drops get what they hold on to. -/
theorem Step.taken (h : Step p q) :
    (∀ s ∈ q.strays, s ∈ p.strays ∨ s ∈ p.graph.services) ∧
      ∀ x ∈ q.lock.getD [],
        x ∈ p.lock.getD [] ∨ ∃ s ∈ p.graph.services, x ∈ s.handler.owns := by
  cases h with
  | finish id _ =>
    unfold Premises.finish
    split
    · exact ⟨fun s hs => .inl hs, fun x hx => .inl hx⟩
    · exact ⟨fun s hs => .inl (List.mem_filter.mp hs).1, fun x hx => .inl hx⟩
  | advertise node service type answer owns rest _ _ _ =>
    unfold Premises.advertise
    split
    · exact ⟨fun s hs => .inl hs, fun x hx => .inl hx⟩
    · exact ⟨fun s hs => .inl hs, fun x hx => .inl hx⟩
  | drop handle _ _ _ =>
    refine ⟨fun s hs => ?_, fun x hx => .inr ?_⟩
    · refine (List.mem_append.mp hs).imp_right fun hs => ?_
      exact (List.mem_filter.mp (List.mem_filter.mp hs).1).1
    · obtain ⟨s, hs, hx⟩ := List.mem_flatMap.mp hx
      exact ⟨s, (List.mem_filter.mp (List.mem_filter.mp hs).1).1, hx⟩
  | forgetWithin logger rest hlock =>
    refine ⟨fun s hs => .inl hs, fun x hx => .inl ?_⟩
    rw [hlock]
    exact List.mem_cons_of_mem _ hx
  | unlock hlock => exact ⟨fun s hs => .inl hs, fun x hx => absurd hx List.not_mem_nil⟩
  | _ => exact ⟨fun s hs => .inl hs, fun x hx => .inl hx⟩

theorem CarefulStep.careful (h : CarefulStep p q) (hp : Careful p) : Careful q := by
  obtain ⟨hstep, hoffered⟩ := h
  obtain ⟨hstrays, hlock⟩ := hstep.taken
  refine ⟨fun s hs => ?_, fun s hs => ?_, fun x hx => ?_⟩
  · exact (hoffered s hs).elim (hp.offered s) id
  · exact (hstrays s hs).elim (hp.strays s) (hp.offered s)
  · exact (hlock x hx).elim (hp.lock x) fun ⟨s, hs, hx⟩ => hp.offered s hs x hx

/-- **As long as handlers keep nothing but loggers, no drop ever waits for itself.** -/
theorem not_asksAgain_of_careful (h : Relation.ReflTransGen CarefulStep ({} : Premises ε) p) :
    ¬ p.AsksAgain := by
  have hcareful : Careful p := by
    induction h with
    | refl =>
      exact ⟨fun s hs => absurd hs List.not_mem_nil, fun s hs => absurd hs List.not_mem_nil,
        fun x hx => absurd hx List.not_mem_nil⟩
    | tail _ hstep ih => exact hstep.careful ih
  rintro ⟨handle, rest, hlock, hasks⟩
  have hnot := hcareful.lock handle (by rw [hlock]; exact List.mem_cons_self)
  exact Bool.false_ne_true (hnot.symm.trans hasks)

/-! ## Every reachable teardown -/

/-- **Which drops wait for themselves.** Take whatever is reached in whatever way, and a handle
that has to be dropped while the lock is free. The drop asks for the lock it holds exactly if it
takes out a service whose handler no call holds on to and which keeps a handle that asks for the
lock. Exactly then nobody gets to the registry again, nothing in it changes any more, and all
that such handlers keep stays registered. While no call is in flight, this is what
`Graph.dropLocked?` says.

What calls hold on to comes out without the lock. And if nothing that is due clings, all of it
can be dropped, and exactly that is registered no longer. -/
theorem teardown_waits_iff (h : Reachable p) :
    (∀ handle ∈ p.due, p.lock = none → handle.asksForLock = true →
      ((∃ q, HeldSteps (p.drop handle) q ∧ q.AsksAgain) ↔ p.Clings handle) ∧
      ((∃ q, Steps (p.drop handle) q ∧ q.lock = none) ↔ ¬ p.Clings handle) ∧
      (∀ s ∈ p.graph.leaving handle, s.id ∉ p.calls →
        ∀ x ∈ s.handler.owns, x.asksForLock = true → ∀ q, Steps (p.drop handle) q →
          q.audit.Droppable x ∧ (p.drop handle).graph.SameEntries q.graph) ∧
      (p.calls = [] → (p.Clings handle ↔ p.graph.dropLocked? handle = none))) ∧
    (∀ s ∈ p.strays, ∃ q, Steps p q ∧ q.audit = p.audit ∧ q.lock = p.lock ∧
      ∀ x ∈ s.handler.owns, x ∈ q.due) ∧
    (p.lock = none → (∀ x ∈ p.due, ¬ p.Clings x) →
      ∃ q, Steps p q ∧ q.lock = none ∧ q.due = [] ∧
        ∀ x, x.asksForLock = true → (q.audit.Droppable x ↔ p.audit.Droppable x ∧ x ∉ p.due)) := by
  have hp := h.accounted
  refine ⟨fun handle hmem hfree hasks => ⟨?_, exists_unlocked_drop_iff, ?_,
    clings_iff_dropLocked?⟩, fun s hs => hp.exists_let_out hs, hp.exists_settled⟩
  · rw [clings_iff_stuck]
    exact ⟨fun ⟨q, hsteps, hagain⟩ => Stuck.of_asksAgain rfl hsteps hagain,
      fun ⟨x, hstuck⟩ => hstuck.exists_asksAgain⟩
  · intro s hs hlast x hx hx' q hsteps
    have hstuck : (p.drop handle).Stuck x := stuck_drop_iff.mpr ⟨hx', s, hs, hlast, hx⟩
    obtain ⟨hstill, hsame⟩ := hstuck.steps hsteps
    exact ⟨hstill.droppable (hsteps.accounted ((Step.drop handle hfree hasks hmem).accounted hp)),
      hsame⟩

/-- Hands requests on to a service, as a node of its own, and says why it has not got anything. -/
def forward (client : Node) (request : Addition.Request) :
    Act (Except String Addition.Response) :=
  (Except.mapError Error.message) <$> Act.calling client "add_two_ints" Addition.service request

/-- A node that offers a service which forwards to another one, and whose handler keeps the node
that it does so with. -/
def offering : Premises String :=
  ((({} : Premises String).register "server").register "client").advertise ⟨1, "/server"⟩
    "forward" Addition.service (forward ⟨2, "/client"⟩) [.node ⟨2, "/client"⟩]
    [.node ⟨1, "/server"⟩]

theorem offering_reachable : Reachable offering := by
  refine .tail (.tail (.single (.register "server" rfl)) (.register "client" rfl))
    (.advertise _ _ _ _ _ _ ?_ rfl ?_)
  all_goals decide

/-- The service and the node that offers it have to be dropped. -/
def closing (p : Premises String) : Premises String :=
  (p.letGo (.registration (.service "/forward" 3))).letGo (.node ⟨1, "/server"⟩)

/-- Nobody calls the service while it is withdrawn. -/
def forwarding : Premises String := offering.closing

theorem forwarding_reachable : Reachable forwarding := by
  refine .tail (.tail offering_reachable (.letGo _ ?_)) (.letGo _ ?_)
  all_goals decide

/-- Somebody calls the service while it is withdrawn. -/
def attended : Premises String := closing { offering with calls := [3] }

theorem attended_reachable : Reachable attended := by
  have hfound : (offering.graph.service? "/forward").isSome = true := by decide
  have hcall : Step offering { offering with calls := [3] } :=
    .call "/forward" _ (by decide) (Option.some_get hfound).symm
  refine .tail (.tail (.tail offering_reachable hcall) (.letGo _ ?_)) (.letGo _ ?_)
  all_goals decide

/-- The service has been withdrawn, and the call has come to its end. -/
def returned : Premises String :=
  finish { attended.drop (.registration (.service "/forward" 3)) with lock := none } 3

theorem returned_reachable : Reachable returned := by
  refine .tail (.tail (.tail attended_reachable (.drop _ ?_ rfl ?_)) (.unlock rfl)) (.finish _ ?_)
  all_goals decide

/-- If nobody calls the service, dropping its handle never comes to an end. With a call in
flight, it does: the call drops the client when it returns, and in the end both nodes are gone. -/
theorem teardown_waits_iff_forwarding :
    (¬ ∃ q, Steps (forwarding.drop (.registration (.service "/forward" 3))) q ∧ q.lock = none) ∧
    forwarding.graph.dropLocked? (.registration (.service "/forward" 3)) = none ∧
    (∃ q, Steps (attended.drop (.registration (.service "/forward" 3))) q ∧ q.lock = none) ∧
    returned.due = [.node ⟨2, "/client"⟩, .node ⟨1, "/server"⟩] ∧
    ∃ q, Steps returned q ∧ q.lock = none ∧ q.due = [] ∧
      ∀ x ∈ returned.due, ¬ q.audit.Droppable x := by
  obtain ⟨hforwarding, -⟩ := teardown_waits_iff forwarding_reachable
  obtain ⟨hattended, -⟩ := teardown_waits_iff attended_reachable
  obtain ⟨-, -, hsettled⟩ := teardown_waits_iff returned_reachable
  obtain ⟨-, hends, -, hlocked⟩ := hforwarding (.registration (.service "/forward" 3)) (by decide)
    (by decide) rfl
  obtain ⟨-, hends', -⟩ := hattended (.registration (.service "/forward" 3)) (by decide)
    (by decide) rfl
  have hdue : returned.due = [.node ⟨2, "/client"⟩, .node ⟨1, "/server"⟩] := by decide
  have hasks : ∀ x ∈ returned.due, x.asksForLock = true := by
    rw [hdue]
    decide
  obtain ⟨q, hsteps, hunlocked, hnil, hgone⟩ := hsettled (by decide) (by decide)
  refine ⟨fun hfree => hends.mp hfree (by decide), (hlocked (by decide)).mp (by decide),
    hends'.mpr (by decide), hdue, q, hsteps, hunlocked, hnil, fun x hx hdroppable => ?_⟩
  exact ((hgone x (hasks x hx)).mp hdroppable).2 hx

/-- It does not matter which of the two is dropped first: the drop comes upon the client and asks
for the lock that it holds, and the client stays registered whatever anybody does. -/
theorem forwarding_asks_again :
    Reachable forwarding ∧ forwarding.lock = none ∧
    forwarding.due = [.node ⟨1, "/server"⟩, .registration (.service "/forward" 3)] ∧
    (∀ handle ∈ forwarding.due, (forwarding.drop handle).AsksAgain) ∧
    ∀ handle ∈ forwarding.due, ∀ q, Steps (forwarding.drop handle) q →
      q.lock ≠ none ∧ ⟨2, "/client"⟩ ∈ q.graph.nodes := by
  have hdue : forwarding.due = [.node ⟨1, "/server"⟩, .registration (.service "/forward" 3)] := by
    decide
  have hlock : ∀ handle ∈ forwarding.due,
      (forwarding.drop handle).lock = some [.node ⟨2, "/client"⟩] := by
    rw [hdue]
    decide
  have hup : ∀ handle ∈ forwarding.due,
      ⟨2, "/client"⟩ ∈ (forwarding.drop handle).graph.nodes := by
    rw [hdue]
    decide
  refine ⟨forwarding_reachable, by decide, hdue,
    fun handle hmem => ⟨.node ⟨2, "/client"⟩, [], hlock handle hmem, rfl⟩,
    fun handle hmem q hsteps => ?_⟩
  have hstuck : (forwarding.drop handle).Stuck (.node ⟨2, "/client"⟩) :=
    ⟨rfl, _, hlock handle hmem, List.mem_singleton_self _⟩
  obtain ⟨hstill, hsame⟩ := hstuck.steps hsteps
  refine ⟨hstill.lock_ne_none, ?_⟩
  rw [hsame.nodes]
  exact hup handle hmem

end Premises

end NodeGraph
