import NodeGraph.World.Step

/-!
# A talker that spins among the other threads

A talker spins on the calling thread and waits between its rounds. What it has
sent is delivered while it waits, so a queue that holds a single message loses
none if the talker is slow. The other threads come to rest in every wait that
takes any time at all; a wait of no length leaves them none, and everything
piles up until the spin is over.
-/

namespace NodeGraph.World

variable {β μ : Type} [Middleware β (Arrival μ)]

/-- Lets some time pass on the calling thread. -/
def pass (w : World β μ) (time : Duration) : World β μ :=
  if time.nanoseconds = 0 then w else w.settle

/-- Makes a talker spin along what it sees of its signal, with a wait between
any two rounds. Each round is one of `Talker.spin`. -/
def spinTalker (w : World β μ) (t : Talker) (period : Duration) :
    List Glimpse → Option (Except Error Nat) × Talker × World β μ
  | [] => (none, t, w)
  | glimpse :: glimpses =>
    match t.spin w.net [glimpse] with
    | (some outcome, t, net) => (some outcome, t, { w with net })
    | (none, t, net) => spinTalker (({ w with net } : World β μ).pass period) t period glimpses

end NodeGraph.World
