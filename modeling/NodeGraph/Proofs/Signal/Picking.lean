import NodeGraph.Proofs.Signal.Pickup

/-!
# What comes of picking items off a channel

Steps keep what a `Pickup` has to account for (`Kept`). Here is what this means to somebody
who asks for items: what he is given, in which order, when it ends, when he has to wait, and
that he does not wait for ever where he could go on.

> `IsOver.steps`: after the end of a killed or closed channel there are only ends, and what
> is on the channel stays there.
>
> `Collects.step`: as long as nobody kills, a call that collects has in hand what was there
> and has come, and if it ends then because the channel has been closed.
>
> `left_move`: every move of the receiver brings him nearer to the end of his call.

What `Call.start` and `Call.resume` give, with nobody else at work, is one of the ways a
receiver may go (`comes_start`, `comes_resume`), so nothing here is about another program.
-/

namespace NodeGraph.Killable

variable {α : Type}

namespace Pickup

variable {p q : Pickup α} {call : Call α} {stage : Stage} {answer : Option α}
  {data : Channel α}

/-! ## After the end -/

/-- From the first to the second only ends have been given, and all items are still there,
followed by what has been sent since. -/
def NoMore (p q : Pickup α) : Prop :=
  q.yielded = p.yielded ∧ (∃ n, q.given = p.given ++ List.replicate n none) ∧
    ∃ more, q.sent = p.sent ++ more ∧ q.data.items = p.data.items ++ more

theorem sent_step (h : Step p q) : ∃ more, q.sent = p.sent ++ more := by
  cases h with
  | send a => exact ⟨[a], rfl⟩
  | move hmove =>
    cases hmove with
    | move call stage hcall m hm => exact ⟨[], by rw [sent_proceed, List.append_nil]⟩
  | _ => exact ⟨[], (List.append_nil _).symm⟩

/-- A step gives at most one answer, and an item only to somebody who waits. -/
theorem given_step (h : Step p q) :
    q.given = p.given ∨ q.given = p.given ++ [none] ∨
      ∃ a call, p.call = some (call, .waiting) ∧ a ∈ p.data.items := by
  cases h with
  | move hmove =>
    cases hmove with
    | move call stage hcall m hm =>
      rcases moves_cases hm with ⟨-, -, rfl⟩ | ⟨rfl, -⟩ | ⟨rfl, a, rest, hitems, -⟩
      · exact .inl rfl
      · exact .inr (.inl given_proceed)
      · exact .inr (.inr ⟨a, call, hcall, hitems ▸ List.mem_cons_self⟩)
  | _ => exact .inl rfl

/-- When nobody will be given an item, nobody is. -/
theorem IsOver.given_step (hover : IsOver p) (h : Step p q) :
    q.given = p.given ∨ q.given = p.given ++ [none] := by
  rcases Pickup.given_step h with hsame | hend | ⟨a, call, hcall, ha⟩
  · exact .inl hsame
  · exact .inr hend
  · rcases hover with ⟨-, hidle⟩ | hdry
    · exact absurd hcall (hidle call)
    · rw [hdry.2] at ha
      cases ha

/-- The items that have been given are those that have been yielded. -/
theorem Kept.items_given (hk : Kept p) : p.given.filterMap id = p.yielded := by
  obtain ⟨n, hn, -⟩ := hk.answered
  rw [hn, List.filterMap_append, List.filterMap_map]
  simp

theorem IsOver.steps (hk : Kept p) (hover : IsOver p) (h : Steps p q) :
    IsOver q ∧ NoMore p q := by
  have hgiven : IsOver q ∧ (∃ n, q.given = p.given ++ List.replicate n none) ∧
      ∃ more, q.sent = p.sent ++ more := by
    induction h with
    | refl => exact ⟨hover, ⟨0, (List.append_nil _).symm⟩, [], (List.append_nil _).symm⟩
    | @tail r q hsteps hstep ih =>
      obtain ⟨hr, ⟨n, hn⟩, more, hmore⟩ := ih
      obtain ⟨c, hc⟩ := (hk.steps hsteps).told
      obtain ⟨more', hmore'⟩ := sent_step hstep
      refine ⟨hr.step hc hstep, ?_, more ++ more', by rw [hmore', hmore, List.append_assoc]⟩
      rcases hr.given_step hstep with hsame | hend
      · exact ⟨n, hsame.trans hn⟩
      · exact ⟨n + 1, by rw [hend, hn, List.replicate_succ', List.append_assoc]⟩
  obtain ⟨hq, ⟨n, hn⟩, more, hmore⟩ := hgiven
  have hkq := hk.steps h
  have hyielded : q.yielded = p.yielded := by
    rw [← hk.items_given, ← hkq.items_given, hn, List.filterMap_append]
    simp
  refine ⟨hq, hyielded, ⟨n, hn⟩, more, hmore, ?_⟩
  -- nothing has been taken off, so what has been sent is still there
  have hsent := hkq.conserved
  rw [hyielded, hmore, ← hk.conserved, List.append_assoc] at hsent
  exact List.append_cancel_left hsent

/-- The signal has tripped, and this request is about to see it. -/
theorem looking_step {c : Signal.Chronicle} (hc : Signal.Tells c p.station) (h : Step p q)
    (hcall : p.call = some (call, .looking)) (ht : p.isTripped = true) :
    q.isTripped = true ∧ (q.call = p.call ∧ q.given = p.given ∨ q.given = p.given ++ [none]) := by
  refine ⟨isTripped_step hc h ht, ?_⟩
  cases h with
  | ask call hfree =>
    rw [hfree] at hcall
    cases hcall
  | move hmove =>
    cases hmove with
    | move call' stage hcall' m hm =>
      rcases moves_cases hm with ⟨-, huntripped, -⟩ | ⟨rfl, -⟩ | ⟨rfl, -⟩
      · rw [ht] at huntripped
        cases huntripped
      · exact .inr given_proceed
      · rw [hcall] at hcall'
        cases hcall'
  | _ => exact .inl ⟨rfl, rfl⟩

theorem isOver_of_looking (hcall : p.call = some (call, .looking)) (ht : p.isTripped = true) :
    IsOver p := by
  refine .inl ⟨ht, fun call' hwaiting => ?_⟩
  rw [hcall] at hwaiting
  cases hwaiting

/-- Until it gives the end, a request that finds the signal tripped goes on finding it so. -/
theorem refused_steps (hk : Kept p) (hcall : p.call = some (call, .looking))
    (ht : p.isTripped = true) (h : Steps p q) :
    (q.isTripped = true ∧ q.call = p.call ∧ q.given = p.given) ∨
      ∃ n, q.given = p.given ++ List.replicate (n + 1) none := by
  have hover := isOver_of_looking hcall ht
  induction h with
  | refl => exact .inl ⟨ht, rfl, rfl⟩
  | @tail r q hsteps hstep ih =>
    obtain ⟨c, hc⟩ := (hk.steps hsteps).told
    rcases ih with ⟨htr, hcallr, hgivenr⟩ | ⟨n, hn⟩
    · obtain ⟨htq, ⟨hcallq, hgivenq⟩ | hend⟩ := looking_step hc hstep (hcallr.trans hcall) htr
      · exact .inl ⟨htq, hcallq.trans hcallr, hgivenq.trans hgivenr⟩
      · exact .inr ⟨0, hend.trans (by rw [hgivenr]; rfl)⟩
    · refine .inr ?_
      rcases (hover.steps hk hsteps).1.given_step hstep with hsame | hend
      · exact ⟨n, hsame.trans hn⟩
      · exact ⟨n + 1, by rw [hend, hn, List.append_assoc, ← List.replicate_succ']⟩

/-! ## Collecting with no kill -/

/-- What has come of the call that began when the pickup was as the first one, if the signal
is still untripped: it has in hand what was there and has come, as far as it is off the
channel, or it has given all of it, and there is no more to come. -/
def Collects (p q : Pickup α) : Prop :=
  ∃ more, q.sent = p.sent ++ more ∧
    ((q.yields = p.yields ∧ ∃ got stage, q.call = some (.collect got, stage) ∧
        got ++ q.data.items = p.data.items ++ more) ∨
      (IsDry q.data ∧ q.yields[p.yields.length]? = some (.all (p.data.items ++ more))))

/-- What has been given stays, and more is added only by a receiver that makes a move. -/
theorem yields_step (h : Step p q) {n : Nat} {y : Yield α} (hy : p.yields[n]? = some y) :
    q.yields[n]? = some y := by
  cases h with
  | move hmove =>
    cases hmove with
    | move call stage hcall m hm =>
      rcases m with ⟨stage' | answer, data⟩
      · exact hy
      · show (p.conclude answer data (call.goOn answer)).yields[n]? = some y
        cases call.goOn answer with
        | inl yield =>
          show (p.yields ++ [yield])[n]? = some y
          rw [List.getElem?_append_left (List.getElem?_eq_some_iff.mp hy).1, hy]
        | inr call' => exact hy
  | _ => exact hy

theorem Collects.step {s : Pickup α} (hc : Collects p q) (h : Step q s)
    (ht : q.isTripped = false) : Collects p s := by
  obtain ⟨more, hmore, ⟨hyields, got, stage, hcall, hgot⟩ | ⟨hdry, hall⟩⟩ := hc
  · cases h with
    | send a =>
      refine ⟨more ++ [a], ?_, .inl ⟨hyields, got, stage, hcall, ?_⟩⟩
      · show q.sent ++ [a] = _
        rw [hmore, List.append_assoc]
      · show got ++ (q.data.items ++ [a]) = _
        rw [← List.append_assoc, hgot, List.append_assoc]
    | ask call hfree =>
      rw [hfree] at hcall
      cases hcall
    | move hmove =>
      cases hmove with
      | move call stage' hcall' m hm =>
        rw [hcall] at hcall'
        cases hcall'
        rcases moves_cases hm with ⟨-, -, rfl⟩ | ⟨rfl, hwhy⟩ | ⟨-, a, rest, hitems, rfl⟩
        · exact ⟨more, hmore, .inl ⟨hyields, got, .waiting, rfl, hgot⟩⟩
        · -- with no kill there is only one reason to end
          have hdry : IsDry q.data := by
            rcases hwhy with hkilled | hdry
            · rw [ht] at hkilled
              cases hkilled
            · exact hdry
          refine ⟨more, hmore, .inr ⟨hdry, ?_⟩⟩
          show (q.yields ++ [Yield.all got])[p.yields.length]? = _
          rw [hyields, List.getElem?_concat_length, ← hgot, hdry.2, List.append_nil]
        · refine ⟨more, hmore, .inl ⟨hyields, got ++ [a], .looking, rfl, ?_⟩⟩
          show got ++ [a] ++ rest = _
          rw [← hgot, hitems, List.append_assoc]
          rfl
    | _ => exact ⟨more, hmore, .inl ⟨hyields, got, stage, hcall, hgot⟩⟩
  · -- nobody is left who could send
    obtain ⟨hdry', hsent⟩ := isDry_step h hdry
    exact ⟨more, hsent.trans hmore, .inr ⟨hdry', yields_step h hall⟩⟩

theorem collects_steps (hk : Kept p) (hfree : p.call = none)
    (h : Steps (p.ask (.collect [])) q) (ht : q.isTripped = false) : Collects p q := by
  have hka : Kept (p.ask (.collect [])) := hk.step (.ask p (.collect []) hfree rfl)
  induction h with
  | refl =>
    refine ⟨[], (List.append_nil _).symm, .inl ⟨rfl, [], .looking, rfl, ?_⟩⟩
    rw [List.append_nil]
    rfl
  | @tail r q hsteps hstep ih =>
    obtain ⟨c, hc⟩ := (hka.steps hsteps).told
    -- had the signal been tripped before, it would be tripped now
    have hr : r.isTripped = false := by
      by_contra htripped
      rw [isTripped_step hc hstep (Bool.not_eq_false _ ▸ htripped)] at ht
      cases ht
    exact (ih hr).step hstep hr

/-! ## A receiver by itself -/

/-- Whether there is nothing to be had for now: the channel is empty, somebody may still send,
and nobody has killed. -/
def IsIdle (p : Pickup α) : Prop :=
  p.data.items = [] ∧ p.data.isDisconnected = false ∧ p.isTripped = false

/-- How many moves a receiver can still make by itself at most: one to look and one to get an
answer, for every item and for the end. -/
def left (p : Pickup α) : Nat :=
  2 * p.data.items.length + p.call.elim 0 fun c => if c.2 = .looking then 2 else 1

/-- The receiver can make no move while there is nothing to be had, and only then. -/
theorem stuck_iff (hcall : p.call = some (call, stage)) :
    (∀ q, ¬ Move p q) ↔ stage = .waiting ∧ p.IsIdle := by
  have hnil : (∀ q, ¬ Move p q) ↔ stage.moves p.data p.isTripped = [] := by
    rw [List.eq_nil_iff_forall_not_mem]
    constructor
    · intro hstuck m hm
      exact hstuck _ (.move p call stage hcall m hm)
    · intro hno q hmove
      cases hmove with
      | move call' stage' hcall' m hm =>
        rw [hcall] at hcall'
        cases hcall'
        exact hno m hm
  rw [hnil]
  exact moves_eq_nil_iff

theorem left_move (h : Move p q) : q.left < p.left := by
  cases h with
  | move call stage hcall m hm =>
    have hp : p.left = 2 * p.data.items.length + if stage = .looking then 2 else 1 := by
      unfold left
      rw [hcall]
      rfl
    rcases moves_cases hm with ⟨rfl, -, rfl⟩ | ⟨rfl, -⟩ | ⟨rfl, a, rest, hitems, rfl⟩
    · rw [hp]
      exact Nat.lt_succ_self _
    · -- the end is a result for every call
      have hq : (p.proceed call (.inr none, p.data)).left = 2 * p.data.items.length := by
        cases call <;> rfl
      rw [hq, hp]
      split <;> omega
    · have hq (data : Channel α) :
          (p.proceed call (.inr (some a), data)).left ≤ 2 * data.items.length + 2 := by
        cases call with
        | next => exact Nat.le_add_right _ _
        | collect got => exact Nat.le_refl _
      rw [hp, hitems, List.length_cons, if_neg nofun]
      exact Nat.lt_succ_of_le (hq { p.data with items := rest })

/-- What has come of the call that was under way in the first pickup. -/
def Comes (p q : Pickup α) : Outcome α × Channel α → Prop
  | (.inl yield, data) => q.call = none ∧ q.yields = p.yields ++ [yield] ∧ q.data = data
  | (.inr call, data) =>
    q.call = some (call, .waiting) ∧ q.yields = p.yields ∧ q.data = data ∧ q.IsIdle

theorem select_done {tripped : Bool} {rest : Channel α}
    (h : select data tripped = (.done answer, rest)) :
    (.inr answer, rest) ∈ Stage.waiting.moves data tripped := by
  unfold select at h
  unfold Stage.moves
  cases hready : ready data tripped with
  | nil => simp [hready] at h
  | cons first others =>
    rw [hready] at h
    obtain ⟨hanswer, rfl⟩ := Prod.mk.inj h
    cases hanswer
    exact List.mem_cons_self

theorem select_blocked {tripped : Bool} {rest : Channel α}
    (h : select data tripped = (.blocked, rest)) :
    rest = data ∧ data.items = [] ∧ data.isDisconnected = false ∧ tripped = false := by
  unfold select at h
  cases hready : ready data tripped with
  | nil =>
    rw [hready] at h
    have hmoves : Stage.waiting.moves data tripped = [] := by
      unfold Stage.moves
      rw [hready]
      rfl
    exact ⟨(Prod.mk.inj h).2.symm, (moves_eq_nil_iff.mp hmoves).2⟩
  | cons first others =>
    rw [hready] at h
    cases (Prod.mk.inj h).1

/-- A receiver that waits is given what `select` gives. -/
theorem move_select {rest : Channel α} (hcall : p.call = some (call, .waiting))
    (h : select p.data p.isTripped = (.done answer, rest)) :
    Move p (p.conclude answer rest (call.goOn answer)) :=
  .move p call .waiting hcall _ (select_done h)

/-- A receiver that looks first is given what `next` gives. -/
theorem moves_next {rest : Channel α} (hcall : p.call = some (call, .looking))
    (h : next p.data p.isTripped = (.done answer, rest)) :
    Moves p (p.conclude answer rest (call.goOn answer)) := by
  unfold next at h
  split at h
  next ht =>
    cases h
    refine .single (.move p call .looking hcall (.inr none, p.data) ?_)
    rw [ht]
    exact List.mem_cons_self
  next ht =>
    have hwait : Move p (p.proceed call (.inl .waiting, p.data)) := by
      refine .move p call .looking hcall _ ?_
      rw [Bool.eq_false_iff.mpr ht]
      exact List.mem_cons_self
    have hget := move_select (p := p.proceed call (.inl .waiting, p.data)) rfl h
    refine .tail (.single hwait) ?_
    cases hgo : call.goOn answer with
    | inl yield => rwa [hgo] at hget
    | inr call' => rwa [hgo] at hget

theorem moves_blocked {rest : Channel α} (hcall : p.call = some (call, .looking))
    (h : next p.data p.isTripped = (.blocked, rest)) :
    Move p (p.proceed call (.inl .waiting, p.data)) ∧ rest = p.data ∧ p.IsIdle := by
  unfold next at h
  split at h
  next => cases (Prod.mk.inj h).1
  next ht =>
    refine ⟨.move p call .looking hcall _ ?_, select_blocked h⟩
    rw [Bool.eq_false_iff.mpr ht]
    exact List.mem_cons_self

section

variable {tripped : Bool} {got : List α} {rest : Channel α}

theorem collect_item {a : α} (h : next data tripped = (.done (some a), rest)) :
    collect tripped got data = collect tripped (got ++ [a]) rest := by
  rw [collect]
  split
  next h' => cases h.symm.trans h'; rfl
  next h' => cases h.symm.trans h'
  next h' => cases h.symm.trans h'

theorem collect_ended (h : next data tripped = (.done none, rest)) :
    collect tripped got data = (.inl (.all got), rest) := by
  rw [collect]
  split
  next h' => cases h.symm.trans h'
  next h' => cases h.symm.trans h'; rfl
  next h' => cases h.symm.trans h'

theorem collect_blocked (h : next data tripped = (.blocked, rest)) :
    collect tripped got data = (.inr (.collect got), rest) := by
  rw [collect]
  split
  next h' => cases h.symm.trans h'
  next h' => cases h.symm.trans h'
  next h' => cases h.symm.trans h'; rfl

end

/-- `Killable.collect` is one of the ways of a receiver that collects. -/
theorem comes_collect (tripped : Bool) (got : List α) (data : Channel α) :
    ∀ p : Pickup α, p.call = some (.collect got, .looking) → p.isTripped = tripped →
      p.data = data → ∃ q, Moves p q ∧ Comes p q (collect tripped got data) := by
  induction got, data using collect.induct tripped with
  | case1 got data a rest hnext ih =>
    rintro p hcall rfl rfl
    obtain ⟨q, hmoves, hcomes⟩ := ih (p.conclude (some a) rest (.inr (.collect (got ++ [a]))))
      rfl rfl rfl
    rw [collect_item hnext]
    exact ⟨q, (moves_next hcall hnext).trans hmoves, hcomes⟩
  | case2 got data rest hnext =>
    rintro p hcall rfl rfl
    rw [collect_ended hnext]
    exact ⟨_, moves_next hcall hnext, rfl, rfl, rfl⟩
  | case3 got data rest hnext =>
    rintro p hcall rfl rfl
    obtain ⟨hmove, rfl, hidle⟩ := moves_blocked hcall hnext
    rw [collect_blocked hnext]
    exact ⟨_, .single hmove, rfl, rfl, rfl, hidle⟩

theorem comes_start (hcall : p.call = some (call, .looking)) :
    ∃ q, Moves p q ∧ Comes p q (call.start p.data p.isTripped) := by
  cases call with
  | collect got => exact comes_collect p.isTripped got p.data p hcall rfl rfl
  | next =>
    unfold Call.start
    rcases hnext : next p.data p.isTripped with ⟨⟨- | a⟩ | -, rest⟩
    · exact ⟨_, moves_next hcall hnext, rfl, rfl, rfl⟩
    · exact ⟨_, moves_next hcall hnext, rfl, rfl, rfl⟩
    · obtain ⟨hmove, rfl, hidle⟩ := moves_blocked hcall hnext
      exact ⟨_, .single hmove, rfl, rfl, rfl, hidle⟩

theorem comes_resume (hcall : p.call = some (call, .waiting)) :
    ∃ q, Moves p q ∧ Comes p q (call.resume p.data p.isTripped) := by
  unfold Call.resume
  cases call with
  | next =>
    rcases hselect : select p.data p.isTripped with ⟨⟨- | a⟩ | -, rest⟩
    · exact ⟨_, .single (move_select hcall hselect), rfl, rfl, rfl⟩
    · exact ⟨_, .single (move_select hcall hselect), rfl, rfl, rfl⟩
    · obtain ⟨rfl, hidle⟩ := select_blocked hselect
      exact ⟨p, .refl, hcall, rfl, rfl, hidle⟩
  | collect got =>
    rcases hselect : select p.data p.isTripped with ⟨⟨- | a⟩ | -, rest⟩
    · exact ⟨_, .single (move_select hcall hselect), rfl, rfl, rfl⟩
    · have hfirst := move_select hcall hselect
      obtain ⟨q, hmoves, hcomes⟩ := comes_start
        (p := p.conclude (some a) rest (.inr (.collect (got ++ [a])))) rfl
      exact ⟨q, .head hfirst hmoves, hcomes⟩
    · obtain ⟨rfl, hidle⟩ := select_blocked hselect
      exact ⟨p, .refl, hcall, rfl, rfl, hidle⟩

/-! ## All of it -/

/-- What the receiver of a channel and a signal can rely on. -/
structure Proper (p : Pickup α) : Prop where
  /-- What has been yielded and what is on the channel are what has been sent. -/
  conserved : p.yielded ++ p.data.items = p.sent
  /-- What requests gave is first what has been yielded, and from then on nothing. -/
  answered : ∃ n, p.given = p.yielded.map some ++ List.replicate n none
  /-- The end is given for a reason, and takes nothing off. -/
  reason : ∀ q, Move p q → q.given = p.given ++ [none] →
    q.data = p.data ∧ (p.isTripped = true ∨ IsDry p.data)
  /-- A request is stuck while there is nothing to be had, and only then. -/
  stuck : ∀ call stage, p.call = some (call, stage) →
    ((∀ q, ¬ Move p q) ↔ stage = .waiting ∧ p.IsIdle)
  /-- A request that finds the signal tripped gives the end, whatever happens meanwhile, and
  nothing is taken off. -/
  refuses : ∀ call, p.call = some (call, .looking) → p.isTripped = true → ∀ q, Steps p q →
    NoMore p q ∧ (q.given = p.given → q.isTripped = true ∧ q.call = p.call)
  /-- After an end there are only ends, and nobody gets stuck any more. -/
  final : none ∈ p.given → ∀ q, Steps p q → NoMore p q ∧ ¬ q.IsIdle
  /-- With no kill, collecting gives all items up to the close. -/
  collects : p.call = none → ∀ q, Steps (p.ask (.collect [])) q → q.isTripped = false →
    p.yields.length < q.yields.length →
      IsDry q.data ∧ ∃ more, q.sent = p.sent ++ more ∧
        q.yields[p.yields.length]? = some (.all (p.data.items ++ more))
  /-- A receiver by itself comes to an end. -/
  halts : ∀ q, Move p q → q.left < p.left
  /-- What a call does by itself is one way to go. -/
  alone : ∀ call stage, p.call = some (call, stage) → ∃ q, Moves p q ∧ Comes p q
    (match stage with
      | .looking => call.start p.data p.isTripped
      | .waiting => call.resume p.data p.isTripped)

theorem reason_of_move (h : Move p q) (hgiven : q.given = p.given ++ [none]) :
    q.data = p.data ∧ (p.isTripped = true ∨ IsDry p.data) := by
  cases h with
  | move call stage hcall m hm =>
    rw [data_proceed]
    rcases moves_cases hm with ⟨-, -, rfl⟩ | ⟨rfl, hwhy⟩ | ⟨-, a, rest, -, rfl⟩
    · cases List.self_eq_append_right.mp hgiven
    · exact ⟨rfl, hwhy⟩
    · rw [given_proceed] at hgiven
      cases List.append_cancel_left hgiven

theorem IsOver.not_isIdle (h : IsOver p) : ¬ IsIdle p := by
  rintro ⟨-, hconnected, huntripped⟩
  rcases h with ⟨ht, -⟩ | hdry
  · rw [ht] at huntripped
    cases huntripped
  · rw [hdry.1] at hconnected
    cases hconnected

/-- Senders, killers and the receiver may do what they want, and in any order. -/
theorem items_yielded (h : Reachable p) : Proper p := by
  have hk := h.kept
  refine {
    conserved := hk.conserved
    answered := ?answered
    reason := fun q => reason_of_move
    stuck := fun call stage => stuck_iff
    refuses := ?refuses
    final := ?final
    collects := ?collects
    halts := fun q => left_move
    alone := ?alone }
  case answered =>
    obtain ⟨n, hn, -⟩ := hk.answered
    exact ⟨n, hn⟩
  case refuses =>
    intro call hcall ht q hq
    refine ⟨((isOver_of_looking hcall ht).steps hk hq).2, fun hsame => ?_⟩
    rcases refused_steps hk hcall ht hq with ⟨htq, hcallq, -⟩ | ⟨n, hn⟩
    · exact ⟨htq, hcallq⟩
    · rw [hsame] at hn
      cases List.self_eq_append_right.mp hn
  case final =>
    intro hnone q hq
    obtain ⟨n, hn, hover⟩ := hk.answered
    have hpos : 0 < n := by
      rw [hn] at hnone
      rcases List.mem_append.mp hnone with hitem | hend
      · obtain ⟨a, -, ha⟩ := List.mem_map.mp hitem
        cases ha
      · exact Nat.pos_of_ne_zero (List.mem_replicate.mp hend).1
    obtain ⟨hoverq, hno⟩ := (hover hpos).steps hk hq
    exact ⟨hno, hoverq.not_isIdle⟩
  case collects =>
    intro hfree q hq ht hlater
    obtain ⟨more, hmore, ⟨hyields, -⟩ | ⟨hdry, hall⟩⟩ := collects_steps hk hfree hq ht
    · rw [hyields] at hlater
      exact absurd hlater (Nat.lt_irrefl _)
    · exact ⟨hdry, more, hmore, hall⟩
  case alone =>
    intro call stage hcall
    cases stage with
    | looking => exact comes_start hcall
    | waiting => exact comes_resume hcall

/-- The signal trips while a request waits, which takes the item that is there all the same.
The next one leaves the other item on the channel. -/
theorem items_yielded_killed_while_waiting :
    ∃ p : Pickup Nat, p.given = [some 1, none] ∧ p.data.items = [2] ∧ Reachable p ∧
      Proper p := by
  have hsent : Reachable ((({} : Pickup Nat).send 1).send 2) :=
    (Relation.ReflTransGen.single (.send _ 1 (by decide))).tail (.send _ 2 (by decide))
  have hwaits := (hsent.tail (.ask _ .next rfl rfl)).tail
    (.move (.move _ .next .looking rfl (.inl .waiting, ⟨[1, 2], 1⟩) List.mem_cons_self))
  have hkilled := hwaits.tail (.happen _ (.own .kill) List.mem_cons_self)
  have hitem := hkilled.tail
    (.move (.move _ .next .waiting rfl (.inr (some 1), ⟨[2], 1⟩) List.mem_cons_self))
  have hend := (hitem.tail (.ask _ .next rfl rfl)).tail
    (.move (.move _ .next .looking rfl (.inr none, ⟨[2], 1⟩) List.mem_cons_self))
  exact ⟨_, rfl, rfl, hend, items_yielded hend⟩

end Pickup

end NodeGraph.Killable
