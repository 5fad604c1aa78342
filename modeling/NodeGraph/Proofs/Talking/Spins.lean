import Mathlib.Data.List.Basic
import NodeGraph.Component.Talker

/-!
# What a talker asks of its middleware

A talker asks its middleware for two things only, to log and to send. `Done` follows a list
of such deeds through the states of a middleware, which may be any: its sends succeed and
fail as it likes, and it may well write down what it has been asked for. So what is said here
of the deeds of a talker is said of all that it does.

What it says is a list of utterances, each a line of the log and then a send, whatever comes
of that.

> `Spun`: a spin says the greetings from the talker's number on, one for each look that has
> not seen the signal tripped. It goes on after a greeting that has been sent, and such a
> greeting is counted; one that could not be sent is the last, and it is not.
>
> `spin_spun`: so it is for every spin.
-/

namespace NodeGraph.Talker

variable {β ε : Type} [Middleware β ε]

/-! ## Deeds -/

/-- Something that is asked of a middleware. -/
inductive Deed where
  | log (logger : Logger) (entry : Entry)
  /-- A text is to be sent, and this comes of it. -/
  | send (publisher : Publisher Text) (message : Text) (result : Except Error Unit)

/-- Whether the deeds, one after the other and with what has come of them, lead from one state
to another. -/
def Done (b : β) : List Deed → β → Prop
  | [], b' => b' = b
  | .log logger entry :: deeds, b' => Done (Middleware.log b logger entry) deeds b'
  | .send publisher message result :: deeds, b' =>
    (Middleware.send b publisher message).1 = result ∧
      Done (Middleware.send b publisher message).2 deeds b'

/-- A text that has been said, and what has come of it. -/
structure Utterance where
  text : String
  result : Except Error Unit

/-- What it is to say a text. -/
def Utterance.deeds (t : Talker) (u : Utterance) : List Deed :=
  [.log t.logger (.info u.text), .send t.publisher ⟨u.text⟩ u.result]

/-- The texts that have been sent, in order. -/
def sent (heard : List Utterance) : List String :=
  (heard.filter fun u => u.result.isOk).map Utterance.text

/-- The greetings of the numbers below one. -/
def greetings (n : Nat) : List String := (List.range n).map greeting

/-! ## One spin -/

/-- How a spin can have ended, from what it has seen of its signal, what has been heard and
the number it has arrived at. A spin that goes on has used up its glimpses. -/
def Ended (seen : List Glimpse) (heard : List Utterance) (count : Nat) :
    Option (Except Error Nat) → Prop
  | none => (∀ u ∈ heard, u.result = .ok ()) ∧ heard.length = seen.length ∧
    ∀ glimpse ∈ seen, glimpse = ⟨false, false⟩
  | some (.ok n) => n = count ∧ (∀ u ∈ heard, u.result = .ok ()) ∧
    ∃ glimpse ∈ seen, glimpse.before = true ∨ glimpse.after = true
  | some (.error e) => ∃ earlier, heard = earlier ++ [⟨greeting count, .error e⟩] ∧
    ∀ u ∈ earlier, u.result = .ok ()

/-- What has been heard in a spin, and how it has changed the talker. -/
structure Spun (t : Talker) (seen : List Glimpse) (heard : List Utterance)
    (result : Option (Except Error Nat)) (t' : Talker) : Prop where
  same : t'.publisher = t.publisher ∧ t'.logger = t.logger
  greets : heard.map Utterance.text = (List.range' t.count heard.length).map greeting
  /-- The number goes up with what has been sent. -/
  counts : greetings t.count ++ sent heard = greetings t'.count
  /-- The looks at the signal before a greeting have not seen it tripped. -/
  unseen : ∀ i < heard.length, (∃ glimpse, seen[i]? = some glimpse ∧ glimpse.before = false) ∧
    ∀ j < i, seen[j]? = some ⟨false, false⟩
  ended : Ended seen heard t'.count result

theorem greetings_succ (n : Nat) : greetings (n + 1) = greetings n ++ [greeting n] := by
  unfold greetings
  rw [List.range_succ, List.map_append]
  rfl

section

variable {t t' : Talker} {seen : List Glimpse} {glimpse : Glimpse} {heard : List Utterance}
  {result : Option (Except Error Nat)}

/-- Nothing has been seen, or the first look has been the last. -/
theorem spun_silent (hended : Ended seen [] t.count result) : Spun t seen [] result t where
  same := ⟨rfl, rfl⟩
  greets := rfl
  counts := List.append_nil _
  unseen := fun _ hi => absurd hi (Nat.not_lt_zero _)
  ended := hended

/-- A greeting could not be sent. -/
theorem spun_failed (hbefore : glimpse.before = false) (e : Error) :
    Spun t (glimpse :: seen) [⟨greeting t.count, .error e⟩] (some (.error e)) t where
  same := ⟨rfl, rfl⟩
  greets := rfl
  counts := List.append_nil _
  unseen := by
    intro i hi
    obtain rfl := Nat.lt_one_iff.mp hi
    exact ⟨⟨glimpse, rfl, hbefore⟩, fun j hj => absurd hj (Nat.not_lt_zero j)⟩
  ended := ⟨[], rfl, nofun⟩

/-- A greeting has been sent, and the signal trips before the next. -/
theorem spun_last (hbefore : glimpse.before = false) (hafter : glimpse.after = true) :
    Spun t (glimpse :: seen) [⟨greeting t.count, .ok ()⟩] (some (.ok (t.count + 1)))
      { t with count := t.count + 1 } where
  same := ⟨rfl, rfl⟩
  greets := rfl
  counts := (greetings_succ t.count).symm
  unseen := by
    intro i hi
    obtain rfl := Nat.lt_one_iff.mp hi
    exact ⟨⟨glimpse, rfl, hbefore⟩, fun j hj => absurd hj (Nat.not_lt_zero j)⟩
  ended := by
    refine ⟨rfl, fun u hu => ?_, glimpse, List.mem_cons_self, .inr hafter⟩
    rw [List.mem_singleton.mp hu]

/-- A greeting has been sent, and the spin goes on. -/
theorem Spun.cons (h : Spun { t with count := t.count + 1 } seen heard result t') :
    Spun t (⟨false, false⟩ :: seen) (⟨greeting t.count, .ok ()⟩ :: heard) result t' where
  same := h.same
  greets := by
    rw [List.map_cons, h.greets, List.length_cons, List.range'_succ, List.map_cons]
  counts := by
    rw [← h.counts, greetings_succ, List.append_assoc]
    rfl
  unseen
    | 0, _ => ⟨⟨_, rfl, rfl⟩, fun j hj => absurd hj (Nat.not_lt_zero j)⟩
    | i + 1, hi => by
      obtain ⟨hlook, hearlier⟩ := h.unseen i (Nat.lt_of_succ_lt_succ hi)
      refine ⟨hlook, fun j hj => ?_⟩
      cases j with
      | zero => rfl
      | succ j => exact hearlier j (Nat.lt_of_succ_lt_succ hj)
  ended := by
    have hended := h.ended
    match result with
    | none =>
      obtain ⟨hok, hlength, hquiet⟩ := hended
      exact ⟨List.forall_mem_cons.mpr ⟨rfl, hok⟩, congrArg Nat.succ hlength,
        List.forall_mem_cons.mpr ⟨rfl, hquiet⟩⟩
    | some (.ok n) =>
      obtain ⟨hn, hok, trip, hmem, htrip⟩ := hended
      exact ⟨hn, List.forall_mem_cons.mpr ⟨rfl, hok⟩, trip, List.mem_cons_of_mem _ hmem, htrip⟩
    | some (.error e) =>
      obtain ⟨earlier, rfl, hok⟩ := hended
      exact ⟨_ :: earlier, rfl, List.forall_mem_cons.mpr ⟨rfl, hok⟩⟩

end

/-- Whatever a middleware makes of it, to say a text is to log it and to send it. -/
theorem say_done (b : β) (t : Talker) (text : String) :
    Done b (Utterance.deeds t ⟨text, (say b t text).1⟩) (say b t text).2 := ⟨rfl, rfl⟩

theorem Done.append {b b' b'' : β} {deeds later : List Deed} (h : Done b deeds b')
    (hlater : Done b' later b'') : Done b (deeds ++ later) b'' := by
  induction deeds generalizing b with
  | nil =>
    cases h
    exact hlater
  | cons deed deeds ih =>
    cases deed with
    | log logger entry => exact ih h
    | send publisher message result => exact ⟨h.1, ih h.2⟩

theorem spin_spun (b : β) (t : Talker) (seen : List Glimpse) :
    ∃ heard, Done b (heard.flatMap (Utterance.deeds t)) (spin b t seen).2.2 ∧
      Spun t seen heard (spin b t seen).1 (spin b t seen).2.1 := by
  induction seen generalizing b t with
  | nil => exact ⟨[], rfl, spun_silent ⟨nofun, rfl, nofun⟩⟩
  | cons glimpse seen ih =>
    obtain ⟨before, after⟩ := glimpse
    unfold spin
    cases before with
    | true => exact ⟨[], rfl, spun_silent ⟨rfl, nofun, _, List.mem_cons_self, .inl rfl⟩⟩
    | false =>
      have hdone := say_done b t (greeting t.count)
      rcases hsay : say b t (greeting t.count) with ⟨e | ⟨⟩, b₁⟩
      · rw [hsay] at hdone
        exact ⟨[⟨greeting t.count, .error e⟩], hdone, spun_failed rfl e⟩
      · rw [hsay] at hdone
        cases after with
        | true => exact ⟨[⟨greeting t.count, .ok ()⟩], hdone, spun_last rfl rfl⟩
        | false =>
          obtain ⟨heard, hrest, hspun⟩ := ih b₁ { t with count := t.count + 1 }
          exact ⟨⟨greeting t.count, .ok ()⟩ :: heard, hdone.append hrest, hspun.cons⟩

end NodeGraph.Talker
