import NodeGraph.Middleware.Basic

/-!
# Courses of action

A course of action is carried out one thing after the other, on any middleware. A service
called on the way may do things of its own, and they come next. So it need not be over ever,
and `run` gives nothing then. What it gives otherwise is what comes of finitely many things:

> `run_eq_some_iff`: `run` gives what the course of action `Ends` in.
>
> `run_bind`: of two courses of action one after the other, the second one is carried out on
> what the first one leaves, with what it comes to.
-/

namespace NodeGraph

/-! ## One after the other -/

namespace Act

variable {α β γ : Type}

theorem bind_assoc (act : Act α) (f : α → Act β) (g : β → Act γ) :
    (act.bind f).bind g = act.bind fun a => (f a).bind g := by
  induction act with
  | done result => rfl
  | names next ih => exact congrArg Act.names (funext ih)
  | register name next ih => exact congrArg (Act.register name) (funext ih)
  | lend node next ih => exact congrArg (Act.lend node) (funext ih)
  | log logger entry next ih => exact congrArg (Act.log logger entry) ih
  | publish node topic capacity type next ih =>
    exact congrArg (Act.publish node topic capacity type) (funext ih)
  | send publisher message next ih => exact congrArg (Act.send publisher message) (funext ih)
  | call node service type request next ih =>
    exact congrArg (Act.call node service type request) (funext ih)
  | drop handle next ih => exact congrArg (Act.drop handle) ih

theorem map_eq (f : α → β) (act : Act α) : f <$> act = act.bind fun a => .done (f a) := rfl

end Act

namespace Middleware

variable {β ε α γ : Type} [Middleware β ε] {b b' : β} {act : Act α} {result : α}

/-! ## Being over -/

/-- A course of action is over after some things have been done: it has come to a result, and
this is what it leaves. -/
inductive Ends : β → Act α → α → β → Prop where
  | done (b : β) (result : α) : Ends b (.done result) result b
  | next (b : β) (act : Act α) (result : α) (b' : β)
    (h : Ends (advance b act).2 (advance b act).1 result b') : Ends b act result b'

@[simp] theorem run_done (b : β) (result : α) : run b (.done result) = some (result, b) := by
  rw [run]

/-- The first thing may as well be done beforehand. -/
theorem run_advance (b : β) (act : Act α) :
    run (advance b act).2 (advance b act).1 = run b act := by
  rw [run.eq_def b act]
  cases act with
  | done result => exact run_done b result
  | _ => rfl

@[simp] theorem run_log (b : β) (logger : Logger) (entry : Entry) (next : Act α) :
    run b (.log logger entry next) = run (Middleware.log b logger entry) next :=
  (run_advance b (.log logger entry next)).symm

/-- **What `run` gives is what the course of action ends in.** -/
theorem run_eq_some_iff : run b act = some (result, b') ↔ Ends b act result b' := by
  constructor
  · intro h
    refine run.partial_correctness (fun b act r => Ends b act r.1 r.2) ?_ b act (result, b') h
    intro run ih b act r hr
    cases act with
    | done result =>
      obtain rfl := Option.some.inj hr
      exact .done b result
    | _ => exact .next b _ r.1 r.2 (ih _ _ r hr)
  · intro h
    induction h with
    | done b result => exact run_done b result
    | next b act result b' _ ih => exact (run_advance b act).symm.trans ih

/-! ## One after the other -/

/-- As long as the first one is not over, it is what goes on. -/
theorem advance_bind (b : β) (act : Act α) (next : α → Act γ)
    (h : ∀ result, act ≠ .done result) :
    advance b (act.bind next) = ((advance b act).1.bind next, (advance b act).2) := by
  cases act with
  | done result => exact absurd rfl (h result)
  | call node service type request rest =>
    refine Prod.ext ?_ rfl
    exact (Act.bind_assoc _ rest next).symm
  | _ => rfl

theorem Ends.bind {next : α → Act γ} {last : γ} {b'' : β} (h : Ends b act result b')
    (hnext : Ends b' (next result) last b'') : Ends b (act.bind next) last b'' := by
  induction h with
  | done b result => exact hnext
  | next b act result b' h ih =>
    by_cases hdone : ∃ r, act = .done r
    · obtain ⟨r, rfl⟩ := hdone
      exact ih hnext
    · refine .next _ _ _ _ ?_
      rw [advance_bind b act next (not_exists.mp hdone)]
      exact ih hnext

theorem Ends.of_bind {next : α → Act γ} {last : γ} {b'' : β}
    (h : Ends b (act.bind next) last b'') :
    ∃ result b', Ends b act result b' ∧ Ends b' (next result) last b'' := by
  by_cases hdone : ∃ r, act = .done r
  · obtain ⟨r, rfl⟩ := hdone
    exact ⟨r, b, .done b r, h⟩
  -- the induction is on what both of them do, as long as that is a matter of the first
  generalize hboth : act.bind next = both at h
  induction h generalizing act with
  | done b last =>
    cases act with
    | done r => exact absurd ⟨r, rfl⟩ hdone
    | _ => cases hboth
  | next b both last b'' h ih =>
    subst hboth
    rw [advance_bind b act next (not_exists.mp hdone)] at h ih
    by_cases hover : ∃ r, (advance b act).1 = .done r
    · obtain ⟨r, hr⟩ := hover
      have hfirst : Ends (advance b act).2 (advance b act).1 r (advance b act).2 := by
        rw [hr]
        exact .done _ r
      rw [hr] at h
      exact ⟨r, _, .next b act r _ hfirst, h⟩
    · obtain ⟨result, b', hfirst, hlast⟩ := ih hover rfl
      exact ⟨result, b', .next b act result b' hfirst, hlast⟩

/-- **The second one is carried out on what the first one leaves.** -/
theorem run_bind (b : β) (act : Act α) (next : α → Act γ) :
    run b (act.bind next) = (run b act).bind fun p => run p.2 (next p.1) := by
  refine Option.ext fun ⟨last, b''⟩ => ?_
  rw [run_eq_some_iff, Option.bind_eq_some_iff]
  constructor
  · intro h
    obtain ⟨result, b', hfirst, hlast⟩ := h.of_bind
    exact ⟨(result, b'), run_eq_some_iff.mpr hfirst, run_eq_some_iff.mpr hlast⟩
  · intro h
    obtain ⟨⟨result, b'⟩, hfirst, hlast⟩ := h
    exact (run_eq_some_iff.mp hfirst).bind (run_eq_some_iff.mp hlast)

/-- What is made of the result in the end. -/
theorem run_map (f : α → γ) (b : β) (act : Act α) :
    run b (f <$> act) = (run b act).map fun p => (f p.1, p.2) := by
  rw [Act.map_eq, run_bind]
  cases run b act with
  | none => rfl
  | some p => exact run_done p.2 (f p.1)

end Middleware

end NodeGraph
