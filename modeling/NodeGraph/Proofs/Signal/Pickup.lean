import Mathlib.Logic.Relation
import NodeGraph.Channel.Killable
import NodeGraph.Proofs.Signal.Station

/-!
# Picking items off a channel until a signal trips

A `Pickup` is a channel and a signal, with somebody who makes one call after the other for
what is on the channel. Senders send, are copied and are given up, everything happens to the
signal that can happen to it, and the receiver takes its own moves (`Stage.moves`), each of
them at any time and with either choice where it has one. What was sent and what every
request for an item gave is written down beside it.

The items cannot get lost on the way, since a request that gives none leaves the channel
alone:

> `Kept.conserved`: what has been yielded, followed by what is on the channel, is what has
> been sent.

The end is final for another reason. Either nothing is left and nothing can come any more, or
the signal has tripped and nobody waits. Whoever asks from then on looks at the signal first,
so he never gets to where he could choose an item:

> `Pickup.IsOver`: one of these is the case, and no step changes it.

How a signal trips and that it stays so is known from its own runs (`Signal.Tells`).
-/

namespace NodeGraph.Killable

variable {α : Type}

/-- What comes of a call when its request for an item is answered: its result, or another
request. -/
def Call.goOn : Call α → Option α → Outcome α
  | .next, some a => .inl (.item a)
  | .next, none => .inl .ended
  | .collect got, some a => .inr (.collect (got ++ [a]))
  | .collect got, none => .inl (.all got)

/-- The items that a call has in hand. -/
def Call.got : Call α → List α
  | .next => []
  | .collect got => got

/-- The items in a result. -/
def Yield.items : Yield α → List α
  | .item a => [a]
  | .ended => []
  | .all as => as

/-- A channel and a signal, with somebody who takes the items off, and what has come of it. -/
structure Pickup (α : Type) where
  data : Channel α := {}
  station : Signal.Station := {}
  /-- The call that is under way, and where its request for an item stands. -/
  call : Option (Call α × Stage) := none
  sent : List α := []
  /-- What all requests for an item gave. -/
  given : List (Option α) := []
  /-- What all calls gave. -/
  yields : List (Yield α) := []

namespace Pickup

/-- Whether the signal has tripped. -/
def isTripped (p : Pickup α) : Bool := p.station.isTripped

/-- The items that have been yielded: those in the results and those in hand. -/
def yielded (p : Pickup α) : List α :=
  p.yields.flatMap Yield.items ++ p.call.elim [] fun c => c.1.got

/-- Somebody sends an item. -/
def send (p : Pickup α) (a : α) : Pickup α :=
  { p with data := p.data.push a, sent := p.sent ++ [a] }

/-- Something happens to the signal. -/
def happen (p : Pickup α) (e : Signal.Event) : Pickup α :=
  { p with station := (p.station.step e).2 }

/-- A call begins. -/
def ask (p : Pickup α) (call : Call α) : Pickup α := { p with call := some (call, .looking) }

/-- The receiver is given an answer, and this comes of it. -/
def conclude (p : Pickup α) (answer : Option α) (data : Channel α) : Outcome α → Pickup α
  | .inl yield =>
    { p with
      data
      call := none
      given := p.given ++ [answer]
      yields := p.yields ++ [yield] }
  | .inr call => { p with data, call := some (call, .looking), given := p.given ++ [answer] }

/-- The receiver makes a move. -/
def proceed (p : Pickup α) (call : Call α) : (Stage ⊕ Option α) × Channel α → Pickup α
  | (.inl stage, data) => { p with data, call := some (call, stage) }
  | (.inr answer, data) => p.conclude answer data (call.goOn answer)

/-- The receiver's moves. -/
inductive Move : Pickup α → Pickup α → Prop where
  | move (p : Pickup α) (call : Call α) (stage : Stage) (hcall : p.call = some (call, stage))
    (m : (Stage ⊕ Option α) × Channel α) (hm : m ∈ stage.moves p.data p.isTripped) :
    Move p (p.proceed call m)

/-- Everybody's steps. Whoever sends, copies a sender or gives one up has one, and there is
only one call at a time. -/
inductive Step : Pickup α → Pickup α → Prop where
  | send (p : Pickup α) (a : α) (h : 0 < p.data.senders) : Step p (p.send a)
  | addSender (p : Pickup α) (h : 0 < p.data.senders) :
    Step p { p with data := p.data.addSender }
  | dropSender (p : Pickup α) (h : 0 < p.data.senders) :
    Step p { p with data := p.data.dropSender }
  | happen (p : Pickup α) (e : Signal.Event) (h : p.station.Allowed e) : Step p (p.happen e)
  | ask (p : Pickup α) (call : Call α) (hfree : p.call = none) (hnew : call.got = []) :
    Step p (p.ask call)
  | move {p q : Pickup α} (h : Move p q) : Step p q

/-- Any number of the receiver's moves, one after the other. -/
abbrev Moves : Pickup α → Pickup α → Prop := Relation.ReflTransGen Move

/-- Any number of steps, one after the other. -/
abbrev Steps : Pickup α → Pickup α → Prop := Relation.ReflTransGen Step

/-- What steps make out of an empty channel with one sender and a new signal. -/
def Reachable (p : Pickup α) : Prop := Steps {} p

end Pickup

/-! ## One move -/

section

variable {data : Channel α} {tripped : Bool} {stage : Stage} {m : (Stage ⊕ Option α) × Channel α}

/-- Whether nothing is on the channel and nothing can come any more. -/
def IsDry (data : Channel α) : Prop := data.isDisconnected = true ∧ data.items = []

theorem ready_of_cons {a : α} {rest : List α} (h : data.items = a :: rest) :
    ready data tripped =
      (some a, { data with items := rest }) :: if tripped then [(none, data)] else [] := by
  unfold ready Channel.receive
  rw [h]
  rfl

theorem ready_of_nil (h : data.items = []) :
    ready data tripped = (if data.isDisconnected then [(none, data)] else []) ++
      if tripped then [(none, data)] else [] := by
  unfold ready Channel.receive
  rw [h]
  cases data.isDisconnected <;> rfl

/-- A move is to look and then to wait, to give nothing for one of two reasons, or to give
the oldest item. -/
theorem moves_cases (h : m ∈ stage.moves data tripped) :
    (stage = .looking ∧ tripped = false ∧ m = (.inl .waiting, data)) ∨
    (m = (.inr none, data) ∧ (tripped = true ∨ IsDry data)) ∨
    (stage = .waiting ∧
      ∃ a rest, data.items = a :: rest ∧ m = (.inr (some a), { data with items := rest })) := by
  cases stage with
  | looking =>
    obtain rfl := List.mem_singleton.mp h
    cases tripped with
    | false => exact .inl ⟨rfl, rfl, rfl⟩
    | true => exact .inr (.inl ⟨rfl, .inl rfl⟩)
  | waiting =>
    obtain ⟨⟨answer, rest⟩, hready, rfl⟩ := List.mem_map.mp h
    cases hitems : data.items with
    | nil =>
      rw [ready_of_nil hitems] at hready
      rcases List.mem_append.mp hready with hgone | hkilled
      · obtain ⟨hdisconnected, hgone⟩ := List.mem_ite_nil_right.mp hgone
        obtain ⟨rfl, rfl⟩ := Prod.mk.inj (List.mem_singleton.mp hgone)
        exact .inr (.inl ⟨rfl, .inr ⟨hdisconnected, hitems⟩⟩)
      · obtain ⟨htripped, hkilled⟩ := List.mem_ite_nil_right.mp hkilled
        obtain ⟨rfl, rfl⟩ := Prod.mk.inj (List.mem_singleton.mp hkilled)
        exact .inr (.inl ⟨rfl, .inl htripped⟩)
    | cons a items =>
      rw [ready_of_cons hitems] at hready
      rcases List.mem_cons.mp hready with hitem | hkilled
      · obtain ⟨rfl, rfl⟩ := Prod.mk.inj hitem
        exact .inr (.inr ⟨rfl, a, items, rfl, rfl⟩)
      · obtain ⟨htripped, hkilled⟩ := List.mem_ite_nil_right.mp hkilled
        obtain ⟨rfl, rfl⟩ := Prod.mk.inj (List.mem_singleton.mp hkilled)
        exact .inr (.inl ⟨rfl, .inl htripped⟩)

/-- A request waits for as long as nothing is there, something may come and nobody has
killed. -/
theorem moves_eq_nil_iff :
    stage.moves data tripped = [] ↔
      stage = .waiting ∧ data.items = [] ∧ data.isDisconnected = false ∧ tripped = false := by
  cases stage with
  | looking => simp [Stage.moves]
  | waiting =>
    show (ready data tripped).map _ = [] ↔ _
    rw [List.map_eq_nil_iff]
    cases hitems : data.items with
    | nil =>
      rw [ready_of_nil hitems]
      cases data.isDisconnected <;> cases tripped <;> simp
    | cons a rest => simp [ready_of_cons hitems]

end

namespace Pickup

variable {p q : Pickup α} {call : Call α} {stage : Stage} {answer : Option α}
  {data : Channel α}

/-! ## What a move leaves -/

/-- A call makes the most of an answer: what it has in hand and what it is given are what it
has in hand afterwards, or its result. -/
theorem goOn_items (call : Call α) (answer : Option α) :
    (∀ yield, call.goOn answer = .inl yield → yield.items = call.got ++ answer.toList) ∧
    ∀ call', call.goOn answer = .inr call' → call'.got = call.got ++ answer.toList := by
  cases call <;> cases answer <;> simp [Call.goOn, Yield.items, Call.got]

theorem yielded_of_call (h : p.call = some (call, stage)) :
    p.yielded = p.yields.flatMap Yield.items ++ call.got := by
  unfold yielded
  rw [h]
  rfl

theorem yielded_proceed (h : p.call = some (call, stage)) (answer : Option α)
    (data : Channel α) :
    (p.proceed call (.inr answer, data)).yielded = p.yielded ++ answer.toList := by
  obtain ⟨hdone, hmore⟩ := goOn_items call answer
  rw [yielded_of_call h, List.append_assoc]
  show (p.conclude answer data (call.goOn answer)).yielded = _
  cases hgo : call.goOn answer with
  | inl yield =>
    rw [← hdone yield hgo]
    simp [yielded, conclude]
  | inr call' =>
    rw [← hmore call' hgo]
    rfl

theorem given_proceed :
    (p.proceed call (.inr answer, data)).given = p.given ++ [answer] := by
  show (p.conclude answer data (call.goOn answer)).given = _
  cases call.goOn answer <;> rfl

theorem data_proceed (m : (Stage ⊕ Option α) × Channel α) : (p.proceed call m).data = m.2 := by
  rcases m with ⟨stage | answer, data⟩
  · rfl
  · show (p.conclude answer data (call.goOn answer)).data = data
    cases call.goOn answer <;> rfl

theorem station_proceed (m : (Stage ⊕ Option α) × Channel α) :
    (p.proceed call m).station = p.station := by
  rcases m with ⟨stage | answer, data⟩
  · rfl
  · show (p.conclude answer data (call.goOn answer)).station = p.station
    cases call.goOn answer <;> rfl

theorem sent_proceed (m : (Stage ⊕ Option α) × Channel α) :
    (p.proceed call m).sent = p.sent := by
  rcases m with ⟨stage | answer, data⟩
  · rfl
  · show (p.conclude answer data (call.goOn answer)).sent = p.sent
    cases call.goOn answer <;> rfl

theorem isTripped_proceed (m : (Stage ⊕ Option α) × Channel α) :
    (p.proceed call m).isTripped = p.isTripped :=
  congrArg Signal.Station.isTripped (station_proceed m)

/-- Whoever has been given an answer is not waiting for one. -/
theorem call_proceed (call' : Call α) :
    (p.proceed call (.inr answer, data)).call ≠ some (call', .waiting) := by
  show (p.conclude answer data (call.goOn answer)).call ≠ _
  cases call.goOn answer with
  | inl yield => exact Option.some_ne_none _ ∘ Eq.symm
  | inr call'' =>
    intro h
    cases h

/-! ## The end is final -/

/-- Nobody will be given an item any more. -/
def IsOver (p : Pickup α) : Prop :=
  (p.isTripped = true ∧ ∀ call, p.call ≠ some (call, .waiting)) ∨ IsDry p.data

/-- A signal that is told of stays tripped whatever is done. -/
theorem isTripped_step {c : Signal.Chronicle} (hc : Signal.Tells c p.station) (h : Step p q)
    (ht : p.isTripped = true) : q.isTripped = true := by
  cases h with
  | send => exact ht
  | addSender => exact ht
  | dropSender => exact ht
  | happen e hallowed => exact hc.stays hallowed ht
  | ask => exact ht
  | move hmove =>
    cases hmove with
    | move call stage hcall m hm => rwa [isTripped_proceed]

/-- With nobody left who could send, nothing is sent. -/
theorem isDry_step (h : Step p q) (hdry : IsDry p.data) : IsDry q.data ∧ q.sent = p.sent := by
  have hnobody : ¬ 0 < p.data.senders := by
    rw [of_decide_eq_true hdry.1]
    exact Nat.lt_irrefl 0
  cases h with
  | send a hsender => exact absurd hsender hnobody
  | addSender hsender => exact absurd hsender hnobody
  | dropSender hsender => exact absurd hsender hnobody
  | happen => exact ⟨hdry, rfl⟩
  | ask => exact ⟨hdry, rfl⟩
  | move hmove =>
    cases hmove with
    | move call stage hcall m hm =>
      refine ⟨?_, sent_proceed m⟩
      rw [data_proceed]
      rcases moves_cases hm with ⟨-, -, rfl⟩ | ⟨rfl, -⟩ | ⟨-, a, rest, hitems, -⟩
      · exact hdry
      · exact hdry
      · rw [hdry.2] at hitems
        cases hitems

theorem IsOver.step {c : Signal.Chronicle} (hc : Signal.Tells c p.station) (h : Step p q)
    (hover : IsOver p) : IsOver q := by
  rcases hover with ⟨ht, hidle⟩ | hdry
  · have ht' := isTripped_step hc h ht
    cases h with
    | send => exact .inl ⟨ht', hidle⟩
    | addSender => exact .inl ⟨ht', hidle⟩
    | dropSender => exact .inl ⟨ht', hidle⟩
    | happen => exact .inl ⟨ht', hidle⟩
    | ask => exact .inl ⟨ht', fun call he => by cases he⟩
    | move hmove =>
      cases hmove with
      | move call stage hcall m hm =>
        refine .inl ⟨ht', fun call' => ?_⟩
        -- the signal has tripped, so looking does not lead to waiting
        rcases moves_cases hm with ⟨-, huntripped, -⟩ | ⟨rfl, -⟩ | ⟨rfl, -⟩
        · rw [ht] at huntripped
          cases huntripped
        · exact call_proceed call'
        · exact absurd hcall (hidle call)
  · exact .inr (isDry_step h hdry).1

/-! ## What every step keeps -/

/-- What is the case at any time. -/
structure Kept (p : Pickup α) : Prop where
  told : ∃ c, Signal.Tells c p.station
  conserved : p.yielded ++ p.data.items = p.sent
  /-- The items come first, and then only ends. -/
  answered : ∃ n, p.given = p.yielded.map some ++ List.replicate n none ∧ (0 < n → p.IsOver)

theorem kept_start : Kept ({} : Pickup α) :=
  ⟨⟨_, .start⟩, rfl, 0, rfl, fun h => absurd h (Nat.lt_irrefl 0)⟩

/-- Nobody is answered. -/
theorem Kept.quiet (hk : Kept p) (h : Step p q) (htold : ∃ c, Signal.Tells c q.station)
    (hyielded : q.yielded = p.yielded) (hgiven : q.given = p.given)
    (hconserved : p.yielded ++ q.data.items = q.sent) : Kept q := by
  obtain ⟨n, hn, hover⟩ := hk.answered
  obtain ⟨c, hc⟩ := hk.told
  refine ⟨htold, hyielded ▸ hconserved, n, ?_, fun hpos => (hover hpos).step hc h⟩
  rw [hgiven, hyielded, hn]

theorem Kept.step (hk : Kept p) (h : Step p q) : Kept q := by
  obtain ⟨c, hc⟩ := hk.told
  have hconserved := hk.conserved
  have hstep := h
  cases h with
  | send a hsender =>
    refine hk.quiet hstep ⟨c, hc⟩ rfl rfl ?_
    show p.yielded ++ (p.data.items ++ [a]) = p.sent ++ [a]
    rw [← List.append_assoc, hconserved]
  | addSender => exact hk.quiet hstep ⟨c, hc⟩ rfl rfl hconserved
  | dropSender => exact hk.quiet hstep ⟨c, hc⟩ rfl rfl hconserved
  | happen e hallowed => exact hk.quiet hstep ⟨_, hc.step hallowed⟩ rfl rfl hconserved
  | ask call hfree hnew =>
    refine hk.quiet hstep ⟨c, hc⟩ ?_ rfl hconserved
    unfold yielded ask
    rw [hfree, Option.elim_some, hnew]
    rfl
  | move hmove =>
    cases hmove with
    | move call stage hcall m hm =>
      have htold : ∃ c, Signal.Tells c (p.proceed call m).station := by
        rw [station_proceed]
        exact ⟨c, hc⟩
      obtain ⟨n, hn, hover⟩ := hk.answered
      rcases moves_cases hm with ⟨-, -, rfl⟩ | ⟨rfl, hwhy⟩ | ⟨rfl, a, rest, hitems, rfl⟩
      · refine hk.quiet hstep htold ?_ rfl hconserved
        rw [yielded_of_call hcall]
        rfl
      · -- an end: the reason for it is final
        have hyielded := yielded_proceed hcall none p.data
        rw [Option.toList_none, List.append_nil] at hyielded
        refine ⟨htold, ?_, n + 1, ?_, fun _ => ?_⟩
        · rw [hyielded, data_proceed, sent_proceed]
          exact hconserved
        · rw [given_proceed, hyielded, hn, List.replicate_succ', List.append_assoc]
        · rcases hwhy with ht | hdry
          · exact .inl ⟨(isTripped_proceed _).trans ht, fun call' => call_proceed call'⟩
          · refine .inr ?_
            rwa [data_proceed]
      · -- an item: nobody can have been told of the end before
        have hyielded := yielded_proceed hcall (some a) { p.data with items := rest }
        have hnone : n = 0 := by
          by_contra hpos
          rcases hover (Nat.pos_of_ne_zero hpos) with ⟨-, hidle⟩ | hdry
          · exact hidle call hcall
          · rw [hdry.2] at hitems
            cases hitems
        subst hnone
        refine ⟨htold, ?_, 0, ?_, fun h => absurd h (Nat.lt_irrefl 0)⟩
        · rw [hyielded, data_proceed, sent_proceed, ← hconserved, hitems, List.append_assoc]
          rfl
        · rw [given_proceed, hyielded, hn, List.map_append]
          simp

theorem Kept.steps (hk : Kept p) (h : Steps p q) : Kept q := by
  induction h with
  | refl => exact hk
  | tail _ hstep ih => exact ih.step hstep

theorem Reachable.kept (h : Reachable p) : Kept p := kept_start.steps h

end Pickup

end NodeGraph.Killable
