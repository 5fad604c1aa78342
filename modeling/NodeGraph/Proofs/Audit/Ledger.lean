import Mathlib.Data.List.Nodup
import Mathlib.Data.List.Perm.Basic
import NodeGraph.Graph.Registry

/-!
# The ledger: what a graph has handed out, and what became of it

Whoever keeps a graph sees nodes, handles and messages go in and out, and could
write down each of them without ever looking into the graph's own tables. A
`Ledger` is such a book. It knows every node that was ever registered and every
registration a handle was given for, by the node that asked and the name it
asked for, and it knows which nodes were shut down and which handles were
dropped. From that alone it says what *should* be registered: a grant is *open*
as long as its handle is held and its node is up (`isOpen`), and the members of
a topic are its open grants in the order they were given (`members`).

For each subscription the ledger also keeps the story of its queue: the letters
that went out on its topic while it was open (`window`), the payloads its thread
took (`taken`) and what the subscriber made of them (`heard`).

Nothing here speaks of the tables of `Graph`; that they agree with the ledger is
proved elsewhere. The lemmas below say how dropping, shutting down and granting
move `members`: each is a filter, or one entry more.
-/

namespace NodeGraph

open Wire (Bytes)

universe u

/-- A message as it went out on a topic: the type that wrote it, the message
itself and the payload that came of it. -/
structure Letter where
  {α : Type}
  type : MessageType α
  message : α
  topic : String
  payload : Bytes
  packed : type.pack message = .ok payload

/-! ## Grants -/

/-- A registration that was given to a node, by the handle it was given. -/
structure Grant (τ : Type u) where
  /-- The node that asked. -/
  node : Node
  /-- The name it asked for, as the node wrote it. -/
  asked : String
  handle : Registration
  item : τ

namespace Grant

variable {τ : Type u}

/-- A grant goes by the number of its handle. -/
def id (c : Grant τ) : Nat := c.handle.id

/-- The global name that was asked for. -/
def target (c : Grant τ) : String := Name.resolve c.node.name c.asked

/-- What a topic should know of the grant. -/
def member (c : Grant τ) : Member := ⟨c.id, c.node.id⟩

/-- The same grant with something else known about it. -/
def update (change : τ → τ) (c : Grant τ) : Grant τ := { c with item := change c.item }

@[simp] theorem update_id (change : τ → τ) (c : Grant τ) : (c.update change).id = c.id := rfl

@[simp] theorem update_item (change : τ → τ) (c : Grant τ) :
    (c.update change).item = change c.item := rfl

end Grant

/-- A subscription and the story of its queue so far. -/
structure Intake (ε : Type) where
  {α : Type}
  type : MessageType α
  capacity : Nat
  /-- What the subscriber makes of a message. -/
  callback : α → ε
  /-- What went out on the topic while the subscription was open. -/
  window : List Letter := []
  /-- The payloads that the delivery thread has taken off the queue. -/
  taken : List Bytes := []
  /-- What the subscriber has been handed. -/
  heard : List ε := []

namespace Intake

variable {ε : Type}

/-- What the subscriber is handed for a payload, if the payload can be read. -/
def read (s : Intake ε) (payload : Bytes) : Except Wire.Fault ε :=
  (s.type.unpack payload).map s.callback

/-- One letter more went out. -/
def witness (s : Intake ε) (letter : Letter) : Intake ε :=
  { s with window := s.window ++ [letter] }

/-- The next step of the delivery thread of `feed`, as the subscriber sees it:
a held payload is handed over if it can be read, else the next one is taken. -/
def advance (s : Intake ε) (feed : Feed ε) : Intake ε :=
  match feed.held with
  | some payload => { s with heard := s.heard ++ (feed.receive payload).toOption.toList }
  | none => { s with taken := s.taken ++ feed.pending.take 1 }

end Intake

/-- The right to send, of whatever type. -/
structure Outlet where
  {α : Type}
  publisher : Publisher α

/-- What a service was offered with. -/
structure Offer where
  typeName : String
  md5 : String
  handler : Handler

/-- The service that an offer should put on the graph. -/
def Grant.service (c : Grant Offer) : Service where
  name := c.target
  id := c.id
  node := c.node.id
  typeName := c.item.typeName
  md5 := c.item.md5
  handler := c.item.handler

/-! ## The ledger -/

/-- What has been handed out on a graph, and what became of it. -/
structure Ledger (ε : Type) where
  /-- Every node that was ever registered. -/
  nodes : List Node := []
  subscriptions : List (Grant (Intake ε)) := []
  publications : List (Grant Outlet) := []
  offers : List (Grant Offer) := []
  /-- The numbers of the nodes that were shut down. -/
  down : List Nat := []
  /-- The numbers of the registrations whose handles were dropped. -/
  dropped : List Nat := []

namespace Ledger

variable {ε : Type} {τ : Type u}

/-- The nodes that are up. -/
def live (l : Ledger ε) : List Node := l.nodes.filter fun n => n.id ∉ l.down

/-- Whether a grant still stands: its handle is held and its node is up. -/
def isOpen (l : Ledger ε) (c : Grant τ) : Bool := c.id ∉ l.dropped ∧ c.node.id ∉ l.down

/-- The grants that still stand. -/
def opened (l : Ledger ε) (cs : List (Grant τ)) : List (Grant τ) := cs.filter l.isOpen

/-- What a topic should know of the open grants on it. -/
def members (l : Ledger ε) (cs : List (Grant τ)) (topic : String) : List Member :=
  ((l.opened cs).filter (·.target = topic)).map Grant.member

/-- Who should be subscribed to a topic. -/
def subscribersOf (l : Ledger ε) (topic : String) : List Member := l.members l.subscriptions topic

/-- Who should be publishing on a topic. -/
def publishersOf (l : Ledger ε) (topic : String) : List Member := l.members l.publications topic

/-- The services that should be on offer. -/
def services (l : Ledger ε) : List Service := (l.opened l.offers).map Grant.service

/-- Every handle that was ever given. -/
def handles (l : Ledger ε) : List Registration :=
  l.subscriptions.map Grant.handle ++
    (l.publications.map Grant.handle ++ l.offers.map Grant.handle)

/-- Every number that was ever given out to somebody. -/
def ids (l : Ledger ε) : List Nat := l.nodes.map Node.id ++ l.handles.map Registration.id

/-- A handle that was given and has not been dropped. -/
def Holds (l : Ledger ε) (r : Registration) : Prop := r ∈ l.handles ∧ r.id ∉ l.dropped

/-! ## Entries -/

/-- A node has been registered. -/
def enter (l : Ledger ε) (node : Node) : Ledger ε := { l with nodes := l.nodes ++ [node] }

/-- A node has been shut down. -/
def shutDown (l : Ledger ε) (node : Nat) : Ledger ε := { l with down := l.down ++ [node] }

/-- A subscription has been granted. -/
def subscribe (l : Ledger ε) (c : Grant (Intake ε)) : Ledger ε :=
  { l with subscriptions := l.subscriptions ++ [c] }

/-- A publisher has been granted. -/
def publish (l : Ledger ε) (c : Grant Outlet) : Ledger ε :=
  { l with publications := l.publications ++ [c] }

/-- A service has been granted. -/
def offer (l : Ledger ε) (c : Grant Offer) : Ledger ε := { l with offers := l.offers ++ [c] }

/-- A handle has been dropped. -/
def drop (l : Ledger ε) (id : Nat) : Ledger ε := { l with dropped := l.dropped ++ [id] }

/-- A letter has gone out: every open subscription on its topic sees it. -/
def post (l : Ledger ε) (letter : Letter) : Ledger ε :=
  { l with
    subscriptions := l.subscriptions.map fun c =>
      c.update fun s => if l.isOpen c ∧ c.target = letter.topic then s.witness letter else s }

/-- The delivery thread of a feed has made its next step. -/
def turn (l : Ledger ε) (feed : Feed ε) : Ledger ε :=
  { l with
    subscriptions := l.subscriptions.map fun c =>
      c.update fun s => if c.id = feed.id then s.advance feed else s }

/-- Letters are entered with the subscriptions, and nowhere else. -/
theorem exists_foldl_post (letters : List Letter) (l : Ledger ε) :
    ∃ subscriptions, letters.foldl post l = { l with subscriptions } := by
  induction letters generalizing l with
  | nil => exact ⟨l.subscriptions, rfl⟩
  | cons letter letters ih =>
    obtain ⟨subscriptions, h⟩ := ih (l.post letter)
    exact ⟨subscriptions, h⟩

/-! ## Open grants -/

theorem isOpen_iff {l : Ledger ε} {c : Grant τ} :
    l.isOpen c = true ↔ c.id ∉ l.dropped ∧ c.node.id ∉ l.down := by
  unfold isOpen
  exact decide_eq_true_iff

/-- Neither a drop nor a shutdown opens a grant. -/
theorem isOpen_of_drop {l : Ledger ε} {c : Grant τ} {id : Nat}
    (h : (l.drop id).isOpen c = true) : l.isOpen c = true := by
  obtain ⟨hdropped, hdown⟩ := isOpen_iff.mp h
  exact isOpen_iff.mpr ⟨fun hmem => hdropped (List.mem_append_left _ hmem), hdown⟩

theorem isOpen_of_shutDown {l : Ledger ε} {c : Grant τ} {node : Nat}
    (h : (l.shutDown node).isOpen c = true) : l.isOpen c = true := by
  obtain ⟨hdropped, hdown⟩ := isOpen_iff.mp h
  exact isOpen_iff.mpr ⟨hdropped, fun hmem => hdown (List.mem_append_left _ hmem)⟩

theorem mem_opened {l : Ledger ε} {cs : List (Grant τ)} {c : Grant τ} :
    c ∈ l.opened cs ↔ c ∈ cs ∧ l.isOpen c = true :=
  List.mem_filter

theorem mem_live {l : Ledger ε} {n : Node} : n ∈ l.live ↔ n ∈ l.nodes ∧ n.id ∉ l.down := by
  unfold live
  rw [List.mem_filter, decide_eq_true_iff]

theorem mem_members {l : Ledger ε} {cs : List (Grant τ)} {topic : String} {m : Member} :
    m ∈ l.members cs topic ↔ ∃ c ∈ cs, l.isOpen c = true ∧ c.target = topic ∧ c.member = m := by
  unfold members
  rw [List.mem_map]
  constructor
  · intro hex
    obtain ⟨c, hc, hm⟩ := hex
    rw [List.mem_filter, mem_opened, decide_eq_true_iff] at hc
    exact ⟨c, hc.1.1, hc.1.2, hc.2, hm⟩
  · intro hex
    obtain ⟨c, hc, hopen, ht, hm⟩ := hex
    refine ⟨c, ?_, hm⟩
    rw [List.mem_filter, mem_opened, decide_eq_true_iff]
    exact ⟨⟨hc, hopen⟩, ht⟩

/-- A grant with an open standing gets in at the end of its topic and nowhere
else. -/
theorem members_append {l : Ledger ε} {cs : List (Grant τ)} {c : Grant τ} (topic : String)
    (h : l.isOpen c = true) :
    l.members (cs ++ [c]) topic =
      if topic = c.target then l.members cs topic ++ [c.member] else l.members cs topic := by
  unfold members opened
  rw [List.filter_append, List.filter_cons_of_pos h, List.filter_nil, List.filter_append,
    List.map_append]
  by_cases ht : topic = c.target
  · rw [if_pos ht, ht]
    simp
  · rw [if_neg ht]
    have hne : c.target ≠ topic := fun he => ht he.symm
    simp [hne]

/-- Dropping a handle takes the grant of that number off the open ones. -/
theorem opened_drop (l : Ledger ε) (cs : List (Grant τ)) (id : Nat) :
    (l.drop id).opened cs = (l.opened cs).filter (·.id ≠ id) := by
  unfold opened
  rw [List.filter_filter]
  apply List.filter_congr
  intro c _
  rw [Bool.eq_iff_iff, Bool.and_eq_true, isOpen_iff, isOpen_iff, decide_eq_true_iff]
  simp only [drop, List.mem_append, List.mem_singleton, not_or]
  constructor
  · intro hboth
    obtain ⟨⟨hd, hne⟩, hn⟩ := hboth
    exact ⟨hne, hd, hn⟩
  · intro hboth
    obtain ⟨hne, hd, hn⟩ := hboth
    exact ⟨⟨hd, hne⟩, hn⟩

/-- Shutting a node down takes all that it holds off the open grants. -/
theorem opened_shutDown (l : Ledger ε) (cs : List (Grant τ)) (node : Nat) :
    (l.shutDown node).opened cs = (l.opened cs).filter (·.node.id ≠ node) := by
  unfold opened
  rw [List.filter_filter]
  apply List.filter_congr
  intro c _
  rw [Bool.eq_iff_iff, Bool.and_eq_true, isOpen_iff, isOpen_iff, decide_eq_true_iff]
  simp only [shutDown, List.mem_append, List.mem_singleton, not_or]
  constructor
  · intro hboth
    obtain ⟨hd, hn, hne⟩ := hboth
    exact ⟨hne, hd, hn⟩
  · intro hboth
    obtain ⟨hne, hd, hn⟩ := hboth
    exact ⟨hd, hn, hne⟩

/-- What is known of a grant besides its standing does not move it. -/
theorem opened_update (l : Ledger ε) (cs : List (Grant τ)) (f : Grant τ → τ → τ) :
    l.opened (cs.map fun c => c.update (f c)) = (l.opened cs).map fun c => c.update (f c) := by
  unfold opened
  rw [List.filter_map]
  rfl

/-- A filter on the grants that looks at their members only is a filter on the
members. -/
private theorem members_filter (cs : List (Grant τ)) (topic : String) (p : Member → Bool) :
    ((cs.filter fun c => p c.member).filter (·.target = topic)).map Grant.member =
      ((cs.filter (·.target = topic)).map Grant.member).filter p := by
  rw [List.filter_map, List.filter_filter, List.filter_filter]
  congr 1
  exact List.filter_congr fun c _ => Bool.and_comm _ _

theorem members_drop (l : Ledger ε) (cs : List (Grant τ)) (topic : String) (id : Nat) :
    (l.drop id).members cs topic = (l.members cs topic).filter (·.id ≠ id) := by
  unfold members
  rw [opened_drop]
  exact members_filter _ topic fun m => decide (m.id ≠ id)

theorem members_shutDown (l : Ledger ε) (cs : List (Grant τ)) (topic : String) (node : Nat) :
    (l.shutDown node).members cs topic = (l.members cs topic).filter (·.node ≠ node) := by
  unfold members
  rw [opened_shutDown]
  exact members_filter _ topic fun m => decide (m.node ≠ node)

theorem members_update (l : Ledger ε) (cs : List (Grant τ)) (topic : String)
    (f : Grant τ → τ → τ) :
    l.members (cs.map fun c => c.update (f c)) topic = l.members cs topic := by
  unfold members
  rw [opened_update, List.filter_map, List.map_map]
  rfl

theorem live_shutDown (l : Ledger ε) (node : Nat) :
    (l.shutDown node).live = l.live.filter (·.id ≠ node) := by
  unfold live shutDown
  rw [List.filter_filter]
  apply List.filter_congr
  intro n _
  rw [Bool.eq_iff_iff, Bool.and_eq_true, decide_eq_true_iff, decide_eq_true_iff,
    decide_eq_true_iff, List.mem_append, List.mem_singleton, not_or]
  exact And.comm

/-! ## Numbers -/

theorem mem_handles {l : Ledger ε} {r : Registration} :
    r ∈ l.handles ↔ (∃ c ∈ l.subscriptions, c.handle = r) ∨
      (∃ c ∈ l.publications, c.handle = r) ∨ ∃ c ∈ l.offers, c.handle = r := by
  unfold handles
  rw [List.mem_append, List.mem_append, List.mem_map, List.mem_map, List.mem_map]

theorem ids_enter (l : Ledger ε) (node : Node) : (l.enter node).ids.Perm (node.id :: l.ids) := by
  unfold ids enter
  rw [List.map_append, List.append_assoc]
  exact List.perm_middle

theorem handles_subscribe (l : Ledger ε) (c : Grant (Intake ε)) :
    (l.subscribe c).handles.Perm (c.handle :: l.handles) := by
  unfold handles subscribe
  rw [List.map_append, List.append_assoc]
  exact List.perm_middle

theorem handles_publish (l : Ledger ε) (c : Grant Outlet) :
    (l.publish c).handles.Perm (c.handle :: l.handles) := by
  unfold handles publish
  rw [List.map_append, List.append_assoc, ← List.append_assoc,
    ← List.append_assoc (l.subscriptions.map Grant.handle)]
  exact List.perm_middle

theorem handles_offer (l : Ledger ε) (c : Grant Offer) :
    (l.offer c).handles.Perm (c.handle :: l.handles) := by
  unfold handles offer
  rw [List.map_append, ← List.append_assoc, ← List.append_assoc]
  refine (List.perm_append_comm).trans ?_
  rw [List.append_assoc]
  rfl

/-- A registration more among the handles is a number more among the numbers. -/
theorem ids_of_handles {l l' : Ledger ε} {r : Registration} (hn : l'.nodes = l.nodes)
    (h : l'.handles.Perm (r :: l.handles)) : l'.ids.Perm (r.id :: l.ids) := by
  unfold ids
  rw [hn]
  refine ((h.map Registration.id).append_left _).trans ?_
  rw [List.map_cons]
  exact List.perm_middle

@[simp] theorem handles_post (l : Ledger ε) (letter : Letter) :
    (l.post letter).handles = l.handles := by
  unfold handles post
  rw [List.map_map]
  rfl

@[simp] theorem handles_turn (l : Ledger ε) (feed : Feed ε) :
    (l.turn feed).handles = l.handles := by
  unfold handles turn
  rw [List.map_map]
  rfl

end Ledger

end NodeGraph
