import NodeGraph.Graph.Middleware
import NodeGraph.Proofs.Audit.Run
import NodeGraph.Proofs.Calls.Courses

/-!
# What handlers do to an audited graph

Whatever a handler does is something that anybody might do, as long as it does it with what is
its own (`Allows`). So a course of action on a graph is a run of the audit, which enters into
the ledger what the handler is granted and what it drops:

> `Carries.run`: a course of action that is carried out on the audit is carried out on the graph,
> to the same result.
>
> `Carries.steps`: and every one of its things is a step of the audit.

A call is the course of action that it is handed to, so calls are runs as well
(`call_of_carries`), whatever is called on the way.
-/

namespace NodeGraph.Audit

variable {ε α : Type} {a b : Audit ε} {act : Act α} {result : α}

/-! ## One thing -/

/-- What is left of a course of action after the next thing in it has been done. -/
def advance (a : Audit ε) : Act α → Act α × Audit ε
  | .done result => (.done result, a)
  | .names next => (next a.graph.nodeNames, a)
  | .register name next => (next (a.graph.register name).1, a.register name)
  | .lend node next => (next ⟨node.id, node.name⟩, a)
  | .log logger entry next => (next, a.log logger entry)
  | .publish node topic _ type next =>
    (next (a.graph.publish node topic type).1, a.publish node topic type)
  | .send publisher message next =>
    (next (a.graph.send publisher message).1, a.send publisher message)
  | .call node service type request next =>
    ((a.graph.dispatch node service type request).bind next, a)
  | .drop (.node node) next => (next, a.shutDown node)
  | .drop (.logger _) next => (next, a)
  | .drop (.registration registration) next => (next, a.drop registration)

/-- Whether what is used for the next thing is there to be used: a node is up, and what was
registered is held. -/
def Allows (a : Audit ε) : Act α → Prop
  | .publish node _ _ _ _ => node ∈ a.ledger.live
  | .send publisher _ _ =>
    ∃ c ∈ a.ledger.publications, c.id ∉ a.ledger.dropped ∧ c.item = { publisher }
  | .drop (.node node) _ => node ∈ a.ledger.live
  | .drop (.registration registration) _ => a.ledger.Holds registration
  | _ => True

theorem graph_register (a : Audit ε) (name : String) :
    (a.register name).graph = (a.graph.register name).2 := by
  unfold register
  split <;> simp only [*]

theorem graph_publish {τ : Type} (a : Audit ε) (node : Node) (topic : String)
    (type : MessageType τ) :
    (a.publish node topic type).graph = (a.graph.publish node topic type).2 := by
  unfold publish
  split <;> simp only [*]

/-- It does on the graph what it does. -/
theorem advance_graph (a : Audit ε) (act : Act α) :
    Middleware.advance a.graph act = ((a.advance act).1, (a.advance act).2.graph) := by
  cases act with
  | register name next => exact Prod.ext rfl (a.graph_register name).symm
  | publish node topic _ type next => exact Prod.ext rfl (a.graph_publish node topic type).symm
  | drop handle next => cases handle <;> rfl
  | _ => rfl

/-- What is allowed is a step of the audit, or changes nothing. -/
theorem steps_advance (h : a.Allows act) : a.Steps (a.advance act).2 := by
  cases act with
  | register name next => exact .single (.operation (.register a name))
  | log logger entry next => exact .single (.operation (.log a logger entry))
  | publish node topic _ type next =>
    exact .single (.operation (.publish a node topic type h))
  | send publisher message next =>
    obtain ⟨⟨node, asked, handle, item⟩, hc, hheld, rfl⟩ := h
    have hsend : a.Operation (a.send publisher message) :=
      .send a ⟨node, asked, handle, { publisher }⟩ message hc hheld
    exact .single (.operation hsend)
  | drop handle next =>
    cases handle with
    | node node => exact .single (.operation (.shutDown a node h))
    | logger logger => exact .refl
    | registration registration => exact .single (.operation (.drop a registration h))
  | done | names | lend | call => exact .refl

/-! ## One after the other -/

/-- A course of action is carried out on the audit, with nothing but what is allowed. -/
inductive Carries : Audit ε → Act α → α → Audit ε → Prop where
  | done (a : Audit ε) (result : α) : Carries a (.done result) result a
  | next (a : Audit ε) (act : Act α) (result : α) (b : Audit ε) (allowed : a.Allows act)
    (h : Carries (a.advance act).2 (a.advance act).1 result b) : Carries a act result b

/-- **On the graph it comes to the same.** -/
theorem Carries.run (h : a.Carries act result b) :
    Middleware.run a.graph act = some (result, b.graph) := by
  induction h with
  | done a result => exact Middleware.run_done a.graph result
  | next a act result b _ _ ih =>
    rw [← Middleware.run_advance, advance_graph]
    exact ih

/-- **What a handler does with what is its own, anybody might do.** -/
theorem Carries.steps (h : a.Carries act result b) : a.Steps b := by
  induction h with
  | done a result => exact .refl
  | next a act result b allowed _ ih => exact (steps_advance allowed).trans ih

/-- A call that is carried out is a run. -/
theorem call_of_carries {ρ σ : Type} {node : Node} {service : String} {type : ServiceType ρ σ}
    {request : ρ} {result : Except Error σ}
    (h : a.Carries (a.graph.dispatch node service type request) result b) :
    Middleware.call a.graph node service type request = some (result, b.graph) ∧ a.Steps b :=
  ⟨h.run, h.steps⟩

end NodeGraph.Audit
