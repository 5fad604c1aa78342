import Mathlib.Logic.Function.Iterate
import NodeGraph.Proofs.Addition.Sums
import NodeGraph.Proofs.Audit.Handling
import NodeGraph.Proofs.Registry.Exact

/-!
# Requests under way at the same time

`requestSum` is carried out in one go. But clients are threads of their own, and
between the look-up of the service and the last line that is logged others may do
whatever they like, and ask for other sums among other things. An `Errand` is a
request cut into the pieces that nobody can come in between: one look at the registry,
one thing that the handler does, one entry that is logged.

> `errand_alone`: a request whose pieces nobody comes in between is `requestSum`.
>
> `Kept.step`: what somebody has been promised by the look-up is not changed by what
> others do meanwhile, not even by a server that goes away.

The promise is a matter of the errand alone: the handler's course of action was fixed
when it was handed out (`Says`), and the graph has no say in what it ends in.
-/

namespace NodeGraph

variable {ε : Type}

/-- The course of action says something at most, and ends in that value. -/
inductive Act.Says {α : Type} (result : α) : Act α → Prop where
  | done : Says result (.done result)
  | log (logger : Logger) (entry : Entry) (next : Act α) (h : Says result next) :
    Says result (.log logger entry next)

/-! ## Errands -/

/-- How far a request for a sum has got. -/
inductive Stage where
  /-- The service has not been looked up. -/
  | idle
  /-- The handler is at work. -/
  | answering (act : Act (Except Error Addition.Response))
  /-- The client knows the sum and has not said so. -/
  | answered (equation : Equation)
  | settled (result : Except Error Equation)

/-- A client on its way to a sum. -/
structure Errand where
  client : Node
  operands : Operands
  stage : Stage := .idle

namespace Errand

/-- Looks the service up and sends the request. -/
def ask (g : Graph ε) (client : Node) (o : Operands) : Stage :=
  .answering (g.dispatch client Addition.serviceName Addition.service ⟨o.a, o.b⟩)

/-- Reads what the call has come to. -/
def conclude (o : Operands) : Except Error Addition.Response → Stage
  | .error e => .settled (.error e)
  | .ok response => .answered ⟨o.a, o.b, response.sum⟩

/-- The next piece of an errand. -/
def step (e : Errand) (a : Audit ε) : Stage × Audit ε :=
  match e.stage with
  | .idle => (ask a.graph e.client e.operands, a)
  | .answering (.done result) => (conclude e.operands result, a)
  | .answering act => (.answering (a.advance act).1, (a.advance act).2)
  | .answered equation =>
    (.settled (.ok equation), a.log ⟨e.client.id, e.client.name⟩ (.info equation.toText))
  | .settled result => (.settled result, a)

/-- An errand with its next piece done. -/
def go (p : Errand × Audit ε) : Errand × Audit ε :=
  ({ p.1 with stage := (p.1.step p.2).1 }, (p.1.step p.2).2)

/-! ## Alone -/

/-- Some pieces of an errand, with nobody in between. -/
def Alone (p q : Errand × Audit ε) : Prop := ∃ n, go^[n] p = q

theorem Alone.refl (p : Errand × Audit ε) : Alone p p := ⟨0, rfl⟩

theorem Alone.head {p q : Errand × Audit ε} (h : Alone (go p) q) : Alone p q := by
  obtain ⟨n, hn⟩ := h
  exact ⟨n + 1, hn⟩

theorem Alone.trans {p q r : Errand × Audit ε} (hpq : Alone p q) (hqr : Alone q r) :
    Alone p r := by
  obtain ⟨m, rfl⟩ := hpq
  obtain ⟨n, rfl⟩ := hqr
  exact ⟨n + m, Function.iterate_add_apply go n m p⟩

variable {e : Errand} {a : Audit ε} {client : Node} {o : Operands}

/-- A course of action that is over in the end is over for the errand. -/
theorem answering_alone (client : Node) (o : Operands)
    {act : Act (Except Error Addition.Response)} {result : Except Error Addition.Response}
    {g : Graph ε} (h : Middleware.Ends a.graph act result g) :
    ∃ b, Alone (⟨client, o, .answering act⟩, a) (⟨client, o, .answering (.done result)⟩, b) ∧
      b.graph = g := by
  generalize hgraph : a.graph = start at h
  induction h generalizing a with
  | done g result => exact ⟨a, .refl _, hgraph⟩
  | next g act result g' _ ih =>
    subst hgraph
    obtain ⟨b, halone, hlast⟩ := ih (a := (a.advance act).2) (by rw [Audit.advance_graph])
    rw [Audit.advance_graph] at halone
    by_cases hdone : ∃ r, act = .done r
    · obtain ⟨r, rfl⟩ := hdone
      exact ⟨b, halone, hlast⟩
    · refine ⟨b, .head ?_, hlast⟩
      have hstep : step ⟨client, o, .answering act⟩ a =
          (.answering (a.advance act).1, (a.advance act).2) := by
        cases act with
        | done r => exact absurd ⟨r, rfl⟩ hdone
        | _ => rfl
      simp only [go, hstep]
      exact halone

/-- A request that nobody comes in between is `requestSum`, if that is ever over. -/
theorem errand_alone {client : Node} {o : Operands} {result : Except Error Equation}
    {g : Graph ε} (h : Requester.requestSum a.graph client o = some (result, g)) :
    ∃ b, Alone (⟨client, o, .idle⟩, a) (⟨client, o, .settled result⟩, b) ∧ b.graph = g := by
  obtain ⟨⟨answer, g₁⟩, hcall, hrest⟩ := Option.bind_eq_some_iff.mp h
  obtain ⟨b, halone, rfl⟩ := answering_alone client o (Middleware.run_eq_some_iff.mp hcall)
  have hasked : Alone (⟨client, o, .idle⟩, a) (⟨client, o, .answering (.done answer)⟩, b) :=
    .head halone
  cases answer with
  | error e =>
    obtain ⟨rfl, rfl⟩ := Prod.mk.inj (Option.some.inj hrest)
    exact ⟨b, hasked.trans (.head (.refl _)), rfl⟩
  | ok response =>
    obtain ⟨rfl, rfl⟩ := Prod.mk.inj (Option.some.inj hrest)
    exact ⟨_, hasked.trans (.head (.head (.refl _))), rfl⟩

/-! ## What has been promised -/

/-- The client has been told, or is about to be, what it has to be told. -/
def Settles (o : Operands) : Stage → Prop
  | .answered equation => o.verdict = .ok equation
  | .settled result => result = o.verdict
  | _ => False

/-- Whatever happens, the errand comes to what it has to come to. -/
def Kept (e : Errand) : Prop :=
  match e.stage with
  | .idle => True
  | .answering act => ∃ result, act.Says result ∧ Settles e.operands (conclude e.operands result)
  | stage => Settles e.operands stage

theorem kept_conclude {result : Except Error Addition.Response}
    (h : Settles o (conclude o result)) : Kept ⟨client, o, conclude o result⟩ := by
  cases result with
  | error e => exact h
  | ok response => exact h

/-- Whoever asks while the server is there is promised what is right. -/
theorem kept_ask {g : Graph ε} {server : Node} (hp : g.Provides server) (client : Node)
    (o : Operands) : Kept ⟨client, o, ask g client o⟩ := by
  unfold ask
  rw [Graph.dispatch_eq hp]
  by_cases h : o.Fits
  · rw [if_pos h]
    exact ⟨_, .log _ _ _ .done, if_pos h⟩
  · rw [if_neg h]
    exact ⟨_, .done, (if_neg h).symm⟩

theorem Kept.step (h : Kept e)
    (hp : e.stage = .idle → ∃ server, a.graph.Provides server) :
    Kept { e with stage := (e.step a).1 } := by
  obtain ⟨client, o, stage⟩ := e
  cases stage with
  | idle =>
    obtain ⟨server, hserver⟩ := hp rfl
    exact kept_ask hserver client o
  | answering act =>
    obtain ⟨result, hsays, hsettles⟩ := h
    cases hsays with
    | done => exact kept_conclude hsettles
    | log logger entry next hnext => exact ⟨result, hnext, hsettles⟩
  | answered equation => exact (show o.verdict = .ok equation from h).symm
  | settled result => exact h

/-- Every piece of a promise that is kept is something that anybody might do. -/
theorem Kept.go_steps (h : Kept e) (a : Audit ε) : a.Steps (go (e, a)).2 := by
  obtain ⟨client, o, stage⟩ := e
  cases stage with
  | idle => exact .refl
  | answering act =>
    obtain ⟨result, hsays, -⟩ := h
    cases hsays with
    | done => exact .refl
    | log logger entry next _ => exact .single (.operation (.log a logger entry))
  | answered equation => exact .single (.operation (.log a _ _))
  | settled result => exact .refl

theorem ends_of_says {act : Act (Except Error Addition.Response)}
    {result : Except Error Addition.Response} (h : act.Says result) (g : Graph ε) :
    ∃ g', Middleware.Ends g act result g' := by
  induction h generalizing g with
  | done => exact ⟨g, .done g result⟩
  | log logger entry next _ ih =>
    obtain ⟨g', hends⟩ := ih (g.log logger entry)
    exact ⟨g', .next g _ result g' hends⟩

theorem Settles.ends (stage : Stage) (h : Settles o stage) (client : Node) (a : Audit ε) :
    ∃ b, Alone (⟨client, o, stage⟩, a) (⟨client, o, .settled o.verdict⟩, b) := by
  cases stage with
  | idle => cases h
  | answering act => cases h
  | answered equation =>
    have hverdict : o.verdict = .ok equation := h
    rw [hverdict]
    exact ⟨_, .head (.refl _)⟩
  | settled result =>
    have hresult : result = o.verdict := h
    rw [hresult]
    exact ⟨a, .refl _⟩

/-- Left alone from any point on, an errand comes to its end. -/
theorem Kept.ends (h : Kept e) (hp : e.stage = .idle → ∃ server, a.graph.Provides server) :
    ∃ b, Alone (e, a) ({ e with stage := .settled e.operands.verdict }, b) := by
  obtain ⟨client, o, stage⟩ := e
  -- a handler at work comes to its result, and what is then concluded is settled
  have hanswering : ∀ act, Kept ⟨client, o, .answering act⟩ →
      ∃ b, Alone (⟨client, o, .answering act⟩, a) (⟨client, o, .settled o.verdict⟩, b) := by
    intro act hact
    obtain ⟨result, hsays, hsettles⟩ := hact
    obtain ⟨g, hends⟩ := ends_of_says hsays a.graph
    obtain ⟨b, halone, -⟩ := answering_alone client o hends
    obtain ⟨c, hends⟩ := Settles.ends _ hsettles client b
    exact ⟨c, halone.trans (.head hends)⟩
  cases stage with
  | idle =>
    obtain ⟨server, hserver⟩ := hp rfl
    obtain ⟨b, halone⟩ := hanswering _ (kept_ask hserver client o)
    exact ⟨b, .head halone⟩
  | answering act => exact hanswering act h
  | answered equation => exact Settles.ends (.answered equation) h client a
  | settled result => exact Settles.ends (.settled result) h client a

end Errand

end NodeGraph
