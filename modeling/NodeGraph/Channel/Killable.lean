import NodeGraph.Channel.Basic

/-!
# Receiving until a signal trips

A killable receiver takes items off a channel until the channel is disconnected
or a signal trips. It looks at the signal first and gives up at once if that has
tripped; otherwise it waits for either side, and when both are ready it may go
either way. `Stage.moves` lists what a receiver may do next, with which others
may interleave their own steps; it blocks exactly as long as that list is empty.

`next` and `collect` run a receiver with nobody else at work, until it gives its
result or blocks. Where it has a choice they take the first one.
-/

namespace NodeGraph.Killable

variable {α : Type}

/-- What a receiver that waits for `data` and a signal may give next, with what
is left of the channel: the oldest item, the end of a disconnected channel, or
the end because the signal has tripped. -/
def ready (data : Channel α) (tripped : Bool) : List (Option α × Channel α) :=
  (match data.receive with
    | (.item a, rest) => [(some a, rest)]
    | (.disconnected, rest) => [(none, rest)]
    | (.empty, _) => [])
  ++ (if tripped then [(none, data)] else [])

/-- Where a receiver stands that has been asked for an item. -/
inductive Stage where
  /-- About to look at the signal. -/
  | looking
  /-- Waiting for either side. -/
  | waiting
deriving DecidableEq, Repr

/-- What a receiver may do next, with what is left of the channel: reach another
stage, or give an item or the end. -/
def Stage.moves (data : Channel α) (tripped : Bool) :
    Stage → List ((Stage ⊕ Option α) × Channel α)
  | .looking => [(if tripped then .inr none else .inl .waiting, data)]
  | .waiting => (ready data tripped).map fun (result, rest) => (.inr result, rest)

/-- How a receiver stands. -/
inductive Progress (α : Type) where
  /-- An item, or the end. -/
  | done (result : Option α)
  /-- Nothing is ready. -/
  | blocked
deriving DecidableEq, Repr

/-- Waits until something is ready, and takes the first choice. -/
def select (data : Channel α) (tripped : Bool) : Progress α × Channel α :=
  match ready data tripped with
  | (result, rest) :: _ => (.done result, rest)
  | [] => (.blocked, data)

/-- Asks for the next item: the signal comes before anything that waits. -/
def next (data : Channel α) (tripped : Bool) : Progress α × Channel α :=
  if tripped then (.done none, data) else select data tripped

/-- An item that comes is the oldest one, and the others stay. -/
theorem items_of_select {data rest : Channel α} {tripped : Bool} {a : α}
    (h : select data tripped = (.done (some a), rest)) : data.items = a :: rest.items := by
  cases hd : data.items with
  | nil =>
    cases hs : data.isDisconnected <;> cases tripped <;>
      simp [select, ready, Channel.receive, hd, hs] at h
  | cons b bs =>
    simp only [select, ready, Channel.receive, hd, List.cons_append, Prod.mk.injEq,
      Progress.done.injEq, Option.some.injEq] at h
    rw [h.1, ← h.2]

/-- The same for a receiver that looks at the signal first. -/
theorem items_of_next {data rest : Channel α} {tripped : Bool} {a : α}
    (h : next data tripped = (.done (some a), rest)) : data.items = a :: rest.items := by
  cases tripped with
  | true => simp [next] at h
  | false => exact items_of_select h

/-- A call that is under way. -/
inductive Call (α : Type) where
  /-- One item is wanted. -/
  | next
  /-- All items are wanted, and these have come. -/
  | collect (got : List α)
deriving DecidableEq, Repr

/-- What a call gives in the end. -/
inductive Yield (α : Type) where
  | item (a : α)
  | ended
  | all (as : List α)
deriving DecidableEq, Repr

/-- A call that gave its result, or one that waits. -/
abbrev Outcome (α : Type) := Yield α ⊕ Call α

/-- Asks for one item after the other until there is none to be had. -/
def collect (tripped : Bool) (got : List α) (data : Channel α) : Outcome α × Channel α :=
  match _h : next data tripped with
  | (.done (some a), rest) => collect tripped (got ++ [a]) rest
  | (.done none, rest) => (.inl (.all got), rest)
  | (.blocked, rest) => (.inr (.collect got), rest)
termination_by data.items.length
decreasing_by simp [items_of_next _h]

/-- How a call for one item stands. -/
def Progress.toOutcome : Progress α → Outcome α
  | .done (some a) => .inl (.item a)
  | .done none => .inl .ended
  | .blocked => .inr .next

/-- Begins a call. -/
def Call.start (data : Channel α) (tripped : Bool) : Call α → Outcome α × Channel α
  | .next =>
    let (progress, rest) := Killable.next data tripped
    (progress.toOutcome, rest)
  | .collect got => Killable.collect tripped got data

/-- Lets a call that waits go on: it looks at both sides, and if it wants more
it asks again. -/
def Call.resume (data : Channel α) (tripped : Bool) : Call α → Outcome α × Channel α
  | .next =>
    let (progress, rest) := select data tripped
    (progress.toOutcome, rest)
  | .collect got =>
    match select data tripped with
    | (.done (some a), rest) => Killable.collect tripped (got ++ [a]) rest
    | (.done none, rest) => (.inl (.all got), rest)
    | (.blocked, rest) => (.inr (.collect got), rest)

end NodeGraph.Killable
