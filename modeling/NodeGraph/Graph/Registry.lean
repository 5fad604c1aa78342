import NodeGraph.Graph.Basic

/-!
# Registering and dropping

Every registration gets the next number. It is refused if the name is taken: a
node by a live node, a service by another one, a topic by another message type.
A refused subscription or publisher has used up its number all the same.

Dropping a handle takes back what it stands for and nothing else. A topic goes
with its last member, and a node takes with it all that it still has
registered. Handles that are left over from a node find nothing to take back.

A callback or a handler may keep handles for its work. If it is refused it goes,
and takes with it what it keeps.
-/

namespace NodeGraph.Graph

variable {ε : Type}

/-! ## Registering -/

/-- Registers a node under a name that no live node has. -/
def register (g : Graph ε) (name : String) : Except Error Node × Graph ε :=
  let name := Name.resolve "/" name
  if g.nodes.any (·.name = name) then (.error (Cause.nameTaken name), g)
  else
    let node : Node := ⟨g.lastId + 1, name⟩
    let g := { g with lastId := node.id, nodes := g.nodes ++ [node] }
    (.ok node, g.note (.registered name))

/-- Makes sure that a topic exists and carries messages with that sum. -/
def ensureTopic (g : Graph ε) (name typeName md5 : String) : Except Error (Graph ε) :=
  match g.topic? name with
  | none => .ok { g with topics := g.topics ++ [{ name, typeName, md5 }] }
  | some t =>
    if t.md5 = md5 then .ok g
    else .error (Cause.typeMismatch name t.typeName typeName)

/-- Changes the topic of a name. -/
def modifyTopic (g : Graph ε) (name : String) (change : Topic → Topic) : Graph ε :=
  { g with topics := g.topics.map fun t => if t.name = name then change t else t }

/-- Puts a subscription of a node on a topic. The queue is part of the feed, which
hands each message to `receive`. -/
def addSubscriber {α : Type} (g : Graph ε) (node : Node) (topic : String) (capacity : Nat)
    (type : MessageType α) (receive : α → ε) : Except Error Registration × Graph ε :=
  let topic := Name.resolve node.name topic
  let id := g.lastId + 1
  let g := { g with lastId := id }
  match g.ensureTopic topic type.name type.md5 with
  | .error e => (.error e, g)
  | .ok g =>
    let g := g.modifyTopic topic (·.addSubscriber ⟨id, node.id⟩)
    let feed : Feed ε :=
      { id, topic, queue := { capacity },
        receive := fun payload => (type.unpack payload).map receive }
    (.ok (.subscriber topic id), { g with feeds := g.feeds ++ [feed] })

/-- Announces that a node will send messages on a topic. -/
def publish {α : Type} (g : Graph ε) (node : Node) (topic : String) (type : MessageType α) :
    Except Error (Publisher α) × Graph ε :=
  let topic := Name.resolve node.name topic
  let id := g.lastId + 1
  let g := { g with lastId := id }
  match g.ensureTopic topic type.name type.md5 with
  | .error e => (.error e, g)
  | .ok g =>
    (.ok ⟨id, node.id, topic, type⟩, g.modifyTopic topic (·.addPublisher ⟨id, node.id⟩))

/-- Puts a service on offer under a name that nobody else offers. -/
def addService {ρ σ : Type} (g : Graph ε) (node : Node) (service : String)
    (type : ServiceType ρ σ) (answer : ρ → Act (Except String σ)) (owns : List Handle) :
    Except Error Registration × Graph ε :=
  let name := Name.resolve node.name service
  if (g.service? name).isSome then (.error (Cause.duplicate name), g)
  else
    let id := g.lastId + 1
    let entry : Service :=
      { name, id, node := node.id, typeName := type.name, md5 := type.md5,
        handler := .ofTyped type answer owns }
    (.ok (.service name id), { g with lastId := id, services := g.services ++ [entry] })

/-! ## Dropping -/

/-- Removes a topic if nobody uses it any more. -/
def pruneTopic (g : Graph ε) (name : String) : Graph ε :=
  { g with topics := g.topics.filter fun t => t.name ≠ name || t.isUsed }

/-- Takes back a registration, if it is still there. -/
def unregister (g : Graph ε) : Registration → Graph ε
  | .subscriber topic id =>
    let g := { g with feeds := g.feeds.close [id] }
    (g.modifyTopic topic (·.withoutSubscriber id)).pruneTopic topic
  | .publisher topic id => (g.modifyTopic topic (·.withoutPublisher id)).pruneTopic topic
  | .service name id =>
    { g with services := g.services.filter fun s => s.name ≠ name || s.id ≠ id }

/-- The numbers of a node's subscriptions. -/
def subscriptionsOf (g : Graph ε) (node : Nat) : List Nat :=
  ((g.topics.flatMap (·.subscribers)).filter (·.node = node)).map (·.id)

/-- Removes a node with everything it has registered. -/
def removeNode (g : Graph ε) (node : Node) : Graph ε :=
  let g := { g with
    nodes := g.nodes.filter (·.name ≠ node.name)
    services := g.services.filter (·.node ≠ node.id)
    topics := (g.topics.map (Topic.withoutNode · node.id)).filter Topic.isUsed
    feeds := g.feeds.close (g.subscriptionsOf node.id) }
  g.note (.unregistered node.name)

/-- Drops a handle. Loggers have nothing to take back. -/
def drop (g : Graph ε) : Handle → Graph ε
  | .node node => g.removeNode node
  | .logger _ => g
  | .registration registration => g.unregister registration

/-- Drops some handles one after the other. -/
def dropEach (g : Graph ε) (handles : List Handle) : Graph ε := handles.foldl drop g

/-! ## Callbacks and handlers that keep handles -/

/-- If nothing has been granted, what would have been kept is dropped. -/
def orDropping {τ : Type} (owns : List Handle) :
    Except Error τ × Graph ε → Except Error τ × Graph ε
  | (.ok granted, g) => (.ok granted, g)
  | (.error e, g) => (.error e, g.dropEach owns)

/-- What is granted or refused is up to the registry. -/
@[simp] theorem fst_orDropping {τ : Type} (owns : List Handle) (r : Except Error τ × Graph ε) :
    (orDropping owns r).1 = r.1 := by
  obtain ⟨e | granted, g⟩ := r <;> rfl

/-- If nothing is kept, that is all. -/
@[simp] theorem orDropping_nil {τ : Type} (r : Except Error τ × Graph ε) :
    orDropping [] r = r := by
  obtain ⟨e | granted, g⟩ := r <;> rfl

/-- What is granted is granted as it is. -/
theorem orDropping_eq_ok_iff {τ : Type} {owns : List Handle} {r : Except Error τ × Graph ε}
    {granted : τ} {g : Graph ε} :
    orDropping owns r = (.ok granted, g) ↔ r = (.ok granted, g) := by
  obtain ⟨e | granted', g'⟩ := r
  · exact iff_of_false (fun h => nomatch h) fun h => nomatch h
  · exact Iff.rfl

/-- Subscribes a node to a topic. The callback keeps some handles for its work. -/
def subscribe {α : Type} (g : Graph ε) (node : Node) (topic : String) (capacity : Nat)
    (type : MessageType α) (receive : α → ε) (owns : List Handle) :
    Except Error Registration × Graph ε :=
  orDropping owns (g.addSubscriber node topic capacity type receive)

/-- Offers a service. The handler keeps some handles for its work. -/
def advertise {ρ σ : Type} (g : Graph ε) (node : Node) (service : String)
    (type : ServiceType ρ σ) (answer : ρ → Act (Except String σ)) (owns : List Handle) :
    Except Error Registration × Graph ε :=
  orDropping owns (g.addService node service type answer owns)

end NodeGraph.Graph
