import NodeGraph.Graph.Middleware
import NodeGraph.Proofs.Signal.Lawful
import NodeGraph.Proofs.Talking.Spins

/-!
# A talker counts what it has sent

A talker is told to say texts and to spin, in any order and any number of times, each spin
with a signal to which anything may have happened before it begins and may happen during each
of its rounds: before the talker looks, while it speaks and while it waits. What it sees are
the `glimpses` of the signal.

For each order there is a `Report` of what has been heard. A spin takes up where the one
before it has stopped, since a text that it is told to say leaves the number alone and a
greeting that cannot be sent leaves it for the next spin.

> `Spins`: the report of a spin. No greeting begins once the signal has tripped before the
> talker looks, and whatever ends the spin is its result.
>
> `greetings_counted`: the reports are those of the orders, the deeds in them are all that is
> asked of the middleware, and over all spins what has been sent are the greetings of the
> numbers below the one the talker has arrived at.
-/

namespace NodeGraph.Talker

open Signal (Event Station Tells)

/-! ## What a talker sees of a signal -/

/-- What happens to a signal in one round of a spin: until the talker looks at it, while it
speaks, and while it waits for the next round. -/
structure Round where
  before : List Event := []
  speaking : List Event := []
  waiting : List Event := []

namespace Round

/-- All that happens in a round. -/
def events (r : Round) : List Event := r.before ++ (r.speaking ++ r.waiting)

/-- All that happens in these rounds and then until the talker looks. -/
def untilLook (rounds : List Round) (i : Nat) : List Event :=
  (rounds.take i).flatMap events ++ rounds[i]?.elim [] before

end Round

/-- What a talker sees of a signal in these rounds. -/
def glimpses (s : Station) : List Round → List Glimpse
  | [] => []
  | r :: rounds =>
    ⟨(s.after r.before).isTripped, ((s.after r.before).after r.speaking).waitWhile r.waiting⟩ ::
      glimpses (s.after r.events) rounds

section

variable {c : Signal.Chronicle} {s : Station} {r : Round} {rounds : List Round}
  {glimpse : Glimpse} {i : Nat}

theorem length_glimpses (s : Station) (rounds : List Round) :
    (glimpses s rounds).length = rounds.length := by
  induction rounds generalizing s with
  | nil => rfl
  | cons r rounds ih => exact congrArg Nat.succ (ih _)

/-- The check before a greeting sees what is the case. -/
theorem before_glimpses (h : (glimpses s rounds)[i]? = some glimpse) :
    glimpse.before = (s.after (Round.untilLook rounds i)).isTripped := by
  induction rounds generalizing s i with
  | nil => cases h
  | cons r rounds ih =>
    cases i with
    | zero =>
      cases h
      rfl
    | succ i =>
      rw [ih h, ← Signal.Station.after_append]
      unfold Round.untilLook
      rw [List.take_succ_cons, List.flatMap_cons, List.append_assoc]
      rfl

theorem runs_events (hr : s.Runs ((r :: rounds).flatMap Round.events)) :
    s.Runs r.before ∧ (s.after r.before).Runs r.speaking ∧
      ((s.after r.before).after r.speaking).Runs r.waiting ∧
      (s.after r.events).Runs (rounds.flatMap Round.events) := by
  rw [List.flatMap_cons, Signal.Station.runs_append] at hr
  obtain ⟨hround, hrest⟩ := hr
  unfold Round.events at hround
  rw [Signal.Station.runs_append, Signal.Station.runs_append] at hround
  exact ⟨hround.1, hround.2.1, hround.2.2, hrest⟩

theorem after_events (s : Station) (r : Round) :
    s.after r.events = ((s.after r.before).after r.speaking).after r.waiting := by
  unfold Round.events
  rw [Signal.Station.after_append, Signal.Station.after_append]

theorem after_rounds (s : Station) (r : Round) (rounds : List Round) :
    s.after ((r :: rounds).flatMap Round.events) =
      (s.after r.events).after (rounds.flatMap Round.events) := by
  rw [List.flatMap_cons, Signal.Station.after_append]

/-- The chronicle goes on through a round, and what the wait at its end has seen is the case
when the round is over. -/
theorem tells_round (hc : Tells c s) (hr : s.Runs ((r :: rounds).flatMap Round.events)) :
    (∃ c, Tells c (s.after r.events)) ∧
      ((s.after r.before).after r.speaking).waitWhile r.waiting =
        (s.after r.events).isTripped := by
  obtain ⟨hbefore, hspeaking, hwaiting, -⟩ := runs_events hr
  have hlast := (hc.after hbefore).after hspeaking
  rw [after_events]
  exact ⟨⟨_, hlast.after hwaiting⟩, hlast.waitWhile_eq hwaiting⟩

/-- A signal that has tripped when the talker looks has tripped when the rounds are over. -/
theorem tripped_of_seen (hc : Tells c s) (hr : s.Runs (rounds.flatMap Round.events))
    (hmem : glimpse ∈ glimpses s rounds) (hseen : glimpse.before = true ∨ glimpse.after = true) :
    (s.after (rounds.flatMap Round.events)).isTripped = true := by
  induction rounds generalizing c s with
  | nil => cases hmem
  | cons r rounds ih =>
    obtain ⟨⟨c', hc'⟩, hwait⟩ := tells_round hc hr
    obtain ⟨hbefore, hspeaking, hwaiting, hrest⟩ := runs_events hr
    rw [after_rounds]
    rcases List.mem_cons.mp hmem with rfl | hlater
    · refine hc'.stays_after hrest ?_
      rcases hseen with hlook | hlook
      · have hspoken := (hc.after hbefore).stays_after hspeaking hlook
        rw [after_events]
        exact ((hc.after hbefore).after hspeaking).stays_after hwaiting hspoken
      · rw [← hwait]
        exact hlook
    · exact ih hc' hrest hlater

/-- If no look has seen the signal tripped, it has not tripped when the rounds are over. -/
theorem untripped_of_unseen (hc : Tells c s) (hr : s.Runs (rounds.flatMap Round.events))
    (hquiet : ∀ glimpse ∈ glimpses s rounds, glimpse = ⟨false, false⟩) (hne : rounds ≠ []) :
    (s.after (rounds.flatMap Round.events)).isTripped = false := by
  induction rounds generalizing c s with
  | nil => exact absurd rfl hne
  | cons r rounds ih =>
    obtain ⟨⟨c', hc'⟩, hwait⟩ := tells_round hc hr
    have hfirst := congrArg Glimpse.after (hquiet _ List.mem_cons_self)
    rw [after_rounds]
    cases rounds with
    | nil => exact hwait.symm.trans hfirst
    | cons r' rounds =>
      exact ih hc' (runs_events hr).2.2.2 (fun g hg => hquiet g (List.mem_cons_of_mem _ hg))
        (List.cons_ne_nil _ _)

/-- Whoever looks at a signal that has tripped before the rounds sees so. -/
theorem before_of_tripped (hc : Tells c s) (hr : s.Runs (rounds.flatMap Round.events))
    (ht : s.isTripped = true) (h : (glimpses s rounds)[0]? = some glimpse) :
    glimpse.before = true := by
  cases rounds with
  | nil => cases h
  | cons r rounds =>
    cases h
    exact hc.stays_after (runs_events hr).1 ht

end

/-! ## Orders and reports -/

/-- What a talker is told to do. -/
inductive Order where
  | say (text : String)
  /-- Spin until a signal trips to which this has happened before. -/
  | spin (past : List Event) (rounds : List Round)

/-- What comes of an order. A spin that has not ended gives nothing. -/
inductive Answer where
  | said (result : Except Error Unit)
  | spun (result : Option (Except Error Nat))

/-- A new signal is there, and nothing happens to it that cannot. -/
def Order.Allowed : Order → Prop
  | .say _ => True
  | .spin past rounds => ({} : Station).Runs (past ++ rounds.flatMap Round.events)

variable {β ε : Type} [Middleware β ε]

/-- Carries out an order. -/
def carryOut (b : β) (t : Talker) : Order → Answer × Talker × β
  | .say text =>
    let (result, b) := say b t text
    (.said result, t, b)
  | .spin past rounds =>
    let (result, t, b) := spin b t (glimpses (({} : Station).after past) rounds)
    (.spun result, t, b)

/-- Carries out orders one after the other. -/
def carryOutAll (b : β) (t : Talker) : List Order → List Answer × Talker × β
  | [] => ([], t, b)
  | order :: orders =>
    let (answer, t, b) := carryOut b t order
    let (answers, t, b) := carryOutAll b t orders
    (answer :: answers, t, b)

/-- What has been heard when an order was carried out, and the talker's number before and
after it. -/
structure Report where
  order : Order
  before : Nat
  heard : List Utterance
  answer : Answer
  after : Nat

/-- The report of a text that the talker was told to say. -/
structure Says (text : String) (r : Report) : Prop where
  heard : ∃ result, r.heard = [⟨text, result⟩] ∧ r.answer = .said result
  same : r.after = r.before

/-- The report of a spin with a signal that is so at first, and to which all this happens in
its rounds. -/
structure Spins (s : Station) (rounds : List Round) (r : Report) : Prop where
  greets : r.heard.map Utterance.text = (List.range' r.before r.heard.length).map greeting
  counts : greetings r.before ++ sent r.heard = greetings r.after
  /-- No look before a greeting has seen the signal tripped. -/
  unseen : ∀ i < r.heard.length,
    (∃ glimpse, (glimpses s rounds)[i]? = some glimpse ∧ glimpse.before = false) ∧
      ∀ j < i, (glimpses s rounds)[j]? = some ⟨false, false⟩
  /-- The signal has not tripped when the talker looks before a greeting. -/
  untripped : ∀ i < r.heard.length, (s.after (Round.untilLook rounds i)).isTripped = false
  /-- With a signal that has tripped nothing is said, and the first look ends it. -/
  already : s.isTripped = true → r.heard = [] ∧ r.after = r.before ∧
    (rounds ≠ [] → r.answer = .spun (some (.ok r.before)))
  /-- It ends with the number arrived at if the signal has tripped, or with the error of a
  greeting that could not be sent, which is the last one and has that number. -/
  ended : ∃ result, r.answer = .spun result ∧
    match result with
    | none => (∀ u ∈ r.heard, u.result = .ok ()) ∧ r.heard.length = rounds.length ∧
      (rounds ≠ [] → (s.after (rounds.flatMap Round.events)).isTripped = false)
    | some (.ok n) => n = r.after ∧ (∀ u ∈ r.heard, u.result = .ok ()) ∧
      (s.after (rounds.flatMap Round.events)).isTripped = true
    | some (.error e) => ∃ earlier, r.heard = earlier ++ [⟨greeting r.after, .error e⟩] ∧
      ∀ u ∈ earlier, u.result = .ok ()

namespace Report

/-- Whether this may be the report of its order. -/
def Sound (r : Report) : Prop :=
  match r.order with
  | .say text => Says text r
  | .spin past rounds => Spins (({} : Station).after past) rounds r

/-- What has been asked of the middleware. -/
def deeds (t : Talker) (r : Report) : List Deed := r.heard.flatMap (Utterance.deeds t)

/-- The greetings that a spin has sent. -/
def greeted (r : Report) : List String :=
  match r.order with
  | .say _ => []
  | .spin _ _ => sent r.heard

end Report

/-- A report accounts for what has come of its order. -/
structure Accounts (b : β) (t : Talker) (r : Report) (outcome : Answer × Talker × β) :
    Prop where
  before : r.before = t.count
  answer : r.answer = outcome.1
  after : r.after = outcome.2.1.count
  sound : r.Sound
  done : Done b (r.deeds t) outcome.2.2
  same : outcome.2.1.publisher = t.publisher ∧ outcome.2.1.logger = t.logger
  counted : greetings t.count ++ r.greeted = greetings r.after

/-- The reports account for what has come of the orders. -/
structure Accounted (b : β) (t : Talker) (orders : List Order) (reports : List Report)
    (outcome : List Answer × Talker × β) : Prop where
  orders : reports.map Report.order = orders
  answers : reports.map Report.answer = outcome.1
  sound : ∀ r ∈ reports, r.Sound
  done : Done b (reports.flatMap (Report.deeds t)) outcome.2.2
  same : outcome.2.1.publisher = t.publisher ∧ outcome.2.1.logger = t.logger
  /-- Each order begins with the number that the one before it has left. -/
  chained : reports.map Report.before ++ [outcome.2.1.count] =
    t.count :: reports.map Report.after
  counted : greetings t.count ++ reports.flatMap Report.greeted = greetings outcome.2.1.count

/-! ## One order -/

section

variable {b : β} {t t' : Talker} {past : List Event} {rounds : List Round}
  {heard : List Utterance} {result : Option (Except Error Nat)}

theorem greetings_inj {m n : Nat} (h : greetings m = greetings n) : m = n := by
  have hlength := congrArg List.length h
  unfold greetings at hlength
  simpa using hlength

/-- What is true of a spin with these glimpses is what its report says of the signal. -/
theorem Spun.spins (hr : ({} : Station).Runs (past ++ rounds.flatMap Round.events))
    (h : Spun t (glimpses (({} : Station).after past) rounds) heard result t') :
    Spins (({} : Station).after past) rounds
      ⟨.spin past rounds, t.count, heard, .spun result, t'.count⟩ := by
  obtain ⟨hpast, hrounds⟩ := Signal.Station.runs_append.mp hr
  have htold := Tells.start.after hpast
  have hended := h.ended
  refine {
    greets := h.greets
    counts := h.counts
    unseen := h.unseen
    untripped := ?untripped
    already := ?already
    ended := ⟨result, rfl, ?ended⟩ }
  case untripped =>
    intro i hi
    obtain ⟨⟨glimpse, hglimpse, hbefore⟩, -⟩ := h.unseen i hi
    rw [← before_glimpses hglimpse, hbefore]
  case already =>
    intro ht
    have hheard : heard = [] := by
      by_contra hne
      obtain ⟨⟨glimpse, hglimpse, hbefore⟩, -⟩ := h.unseen 0 (List.length_pos_of_ne_nil hne)
      rw [before_of_tripped htold hrounds ht hglimpse] at hbefore
      cases hbefore
    have hcount : t'.count = t.count := by
      have hcounts := h.counts
      rw [hheard] at hcounts
      exact greetings_inj (hcounts.symm.trans (List.append_nil _))
    refine ⟨hheard, hcount, fun hne => ?_⟩
    rw [hheard] at hended
    match result with
    | none =>
      have hlength := hended.2.1
      rw [length_glimpses] at hlength
      exact absurd (List.length_eq_zero_iff.mp hlength.symm) hne
    | some (.ok n) => exact congrArg (Answer.spun ∘ some ∘ Except.ok) (hended.1.trans hcount)
    | some (.error e) =>
      obtain ⟨earlier, hearlier, -⟩ := hended
      cases (List.append_eq_nil_iff.mp hearlier.symm).2
  case ended =>
    match result with
    | none =>
      obtain ⟨hok, hlength, hquiet⟩ := hended
      rw [length_glimpses] at hlength
      exact ⟨hok, hlength, untripped_of_unseen htold hrounds hquiet⟩
    | some (.ok n) =>
      obtain ⟨hn, hok, glimpse, hmem, hseen⟩ := hended
      exact ⟨hn, hok, tripped_of_seen htold hrounds hmem hseen⟩
    | some (.error e) => exact hended

theorem carryOut_accounted (b : β) (t : Talker) (order : Order) (hallowed : order.Allowed) :
    ∃ report, report.order = order ∧ Accounts b t report (carryOut b t order) := by
  cases order with
  | say text =>
    let report : Report :=
      ⟨.say text, t.count, [⟨text, (say b t text).1⟩], .said (say b t text).1, t.count⟩
    exact ⟨report, rfl, {
      before := rfl
      answer := rfl
      after := rfl
      sound := ⟨⟨_, rfl, rfl⟩, rfl⟩
      done := say_done b t text
      same := ⟨rfl, rfl⟩
      counted := List.append_nil _ }⟩
  | spin past rounds =>
    let s := ({} : Station).after past
    obtain ⟨heard, hdone, hspun⟩ := spin_spun b t (glimpses s rounds)
    let report : Report :=
      ⟨.spin past rounds, t.count, heard, .spun (spin b t (glimpses s rounds)).1,
        (spin b t (glimpses s rounds)).2.1.count⟩
    exact ⟨report, rfl, {
      before := rfl
      answer := rfl
      after := rfl
      sound := hspun.spins hallowed
      done := hdone
      same := hspun.same
      counted := hspun.counts }⟩

end

/-! ## All orders -/

theorem carryOutAll_accounted (b : β) (t : Talker) (orders : List Order)
    (hallowed : ∀ order ∈ orders, order.Allowed) :
    ∃ reports, Accounted b t orders reports (carryOutAll b t orders) := by
  induction orders generalizing b t with
  | nil =>
    exact ⟨[], {
      orders := rfl
      answers := rfl
      sound := nofun
      done := rfl
      same := ⟨rfl, rfl⟩
      chained := rfl
      counted := List.append_nil _ }⟩
  | cons order orders ih =>
    obtain ⟨hfirst, hlater⟩ := List.forall_mem_cons.mp hallowed
    obtain ⟨report, rfl, hr⟩ := carryOut_accounted b t order hfirst
    obtain ⟨reports, h⟩ := ih (carryOut b t report.order).2.2 (carryOut b t report.order).2.1 hlater
    have hdeeds : Report.deeds (carryOut b t report.order).2.1 = Report.deeds t := by
      unfold Report.deeds Utterance.deeds
      rw [hr.same.1, hr.same.2]
    refine ⟨report :: reports, {
      orders := congrArg (report.order :: ·) h.orders
      answers := congrArg₂ List.cons hr.answer h.answers
      sound := List.forall_mem_cons.mpr ⟨hr.sound, h.sound⟩
      done := hr.done.append (hdeeds ▸ h.done)
      same := ⟨h.same.1.trans hr.same.1, h.same.2.trans hr.same.2⟩
      chained := ?chained
      counted := ?counted }⟩
    case chained =>
      rw [List.map_cons, List.map_cons, List.cons_append, hr.before, hr.after]
      exact congrArg (t.count :: ·) h.chained
    case counted =>
      rw [List.flatMap_cons, ← List.append_assoc, hr.counted, hr.after]
      exact h.counted

/-- A talker that has been made to talk begins with the greeting of zero. Whatever it is told
to do, and whatever becomes of what it sends, the greetings it has sent by spinning are those
of all numbers below its own, in order. -/
theorem greetings_counted {b b₀ : β} {node : Node} {t : Talker}
    (hadvertised : advertise b node = (.ok t, b₀)) (orders : List Order)
    (hallowed : ∀ order ∈ orders, order.Allowed) :
    t.count = 0 ∧ ∃ reports, Accounted b₀ t orders reports (carryOutAll b₀ t orders) ∧
      reports.flatMap Report.greeted = greetings (carryOutAll b₀ t orders).2.1.count := by
  have hzero : t.count = 0 := by
    unfold advertise at hadvertised
    split at hadvertised
    next => cases (Prod.mk.inj hadvertised).1
    next => rw [← Except.ok.inj (Prod.mk.inj hadvertised).1]
  obtain ⟨reports, h⟩ := carryOutAll_accounted b₀ t orders hallowed
  refine ⟨hzero, reports, h, ?_⟩
  rw [← h.counted, hzero]
  rfl

/-- The talker is killed while it waits for its third round. It says something else, and then
it is to spin with the same signal. -/
def interrupted : List Order :=
  [.spin [] [{}, { waiting := [.own .kill] }, {}], .say "bye", .spin [.own .kill] [{}]]

theorem greetings_counted_interrupted :
    ∃ (t : Talker) (b₀ : Graph Unit),
      advertise (Middleware.register ({} : Graph Unit) nodeName).2 ⟨1, "/talker"⟩ = (.ok t, b₀) ∧
      (∀ order ∈ interrupted, order.Allowed) ∧ (carryOutAll b₀ t interrupted).2.1.count = 2 ∧
      t.count = 0 ∧ ∃ reports, Accounted b₀ t interrupted reports (carryOutAll b₀ t interrupted) ∧
        reports.flatMap Report.greeted = greetings (carryOutAll b₀ t interrupted).2.1.count := by
  have hallowed : ∀ order ∈ interrupted, order.Allowed := by
    have hkill : ({} : Station).Runs [.own .kill] := ⟨List.mem_singleton_self true, trivial⟩
    exact List.forall_mem_cons.mpr ⟨hkill, List.forall_mem_cons.mpr
      ⟨trivial, List.forall_mem_singleton.mpr hkill⟩⟩
  have hadvertised : advertise (Middleware.register ({} : Graph Unit) nodeName).2
    ⟨1, "/talker"⟩ = (.ok _, _) := rfl
  exact ⟨_, _, hadvertised, hallowed, rfl, greetings_counted hadvertised interrupted hallowed⟩

end NodeGraph.Talker
