import NodeGraph.Master.Basic

/-!
# Registering with a master

A client is registered under its path, if the path is legal and the master can be
reached. Names of topics and services are looked up by the client that uses
them.

What a client has registered stays until it is taken back itself: closing the
client takes nothing else along. A subscription takes its callback along and a
service its handler, and what these keep is let go of: the registrations among it
are taken back as well, and of the clients that they held on to the numbers are
given.
-/

namespace NodeGraph.Master

variable {ε : Type}

/-! ## Registering -/

/-- Connects a client under a name, and gives its full name. -/
def connect (m : Master ε) (id : Nat) (name : String) : Except ClientFault String × Master ε :=
  match Path.ofNode m.arguments name with
  | .error fault => (.error (.path fault), m)
  | .ok path =>
    if m.isReachable then
      match path.remappings m.arguments with
      | .error fault => (.error (.path fault), m)
      | .ok remaps => (.ok path.toText, { m with clients := m.clients ++ [{ id, path, remaps }] })
    else (.error .unreachable, m)

/-- Ends the connection of a client. -/
def close (m : Master ε) (id : Nat) : Master ε :=
  { m with clients := m.clients.filter (·.id ≠ id) }

/-- Subscribes a client to a topic. -/
def subscribe {α : Type} (m : Master ε) (client : Nat) (topic : String) (capacity : Nat)
    (type : MessageType α) (receive : α → ε) (owns : List Handle) :
    Except ClientFault Registration × Master ε :=
  match m.locate client topic with
  | .error fault => (.error fault, m)
  | .ok topic =>
    let conflict := (m.subscribedType? client topic).filter (· ≠ type.name)
    match conflict with
    | some old => (.error (.subscriberType type.name old topic), m)
    | none =>
      let id := m.lastId + 1
      let entry : Subscription := ⟨id, client, topic, type.name, type.md5, owns⟩
      let feed : Feed ε :=
        { id, topic, queue := { capacity },
          receive := fun payload => (type.unpack payload).map receive }
      (.ok (.subscriber topic id),
        { m with lastId := id, subscriptions := m.subscriptions ++ [entry],
                 feeds := m.feeds ++ [feed] })

/-- Announces that a client will send messages on a topic. -/
def publish {α : Type} (m : Master ε) (client : Nat) (topic : String) (type : MessageType α) :
    Except ClientFault (Publisher α) × Master ε :=
  match m.locate client topic with
  | .error fault => (.error fault, m)
  | .ok topic =>
    let conflict := (m.publishedType? client topic).filter (· ≠ type.name)
    match conflict with
    | some old => (.error (.publisherType type.name old), m)
    | none =>
      let id := m.lastId + 1
      let entry : Publication := ⟨id, client, topic, type.name⟩
      (.ok ⟨id, client, topic, type⟩,
        { m with lastId := id, publications := m.publications ++ [entry] })

/-- Offers a service, taking its name over from whoever offered it before. -/
def service {ρ σ : Type} (m : Master ε) (client : Nat) (service : String)
    (type : ServiceType ρ σ) (answer : ρ → Act (Except String σ)) (owns : List Handle) :
    Except ClientFault Registration × Master ε :=
  match m.locate client service with
  | .error fault => (.error fault, m)
  | .ok name =>
    if m.provisions.any fun p => p.node = client && p.name = name then
      (.error .duplicateService, m)
    else
      let id := m.lastId + 1
      let entry : Provision := ⟨id, client, name, type.md5, .ofTyped type answer owns⟩
      (.ok (.service name id),
        { m with lastId := id, provisions := m.provisions ++ [entry],
                 providers := (name, id) :: m.providers.filter (·.1 ≠ name) })

/-! ## Taking back -/

/-- The handles that go with a registration. -/
def kept (m : Master ε) : Registration → List Handle
  | .subscriber _ id => (m.subscriptions.filter (·.id = id)).flatMap (·.owns)
  | .publisher _ _ => []
  | .service _ id => (m.provisions.filter (·.id = id)).flatMap (·.handler.owns)

/-- Takes a registration back. Calls to a service go nowhere if they went to it, and
elsewhere still if the name has been taken over. -/
def remove (m : Master ε) : Registration → Master ε
  | .subscriber _ id =>
    { m with
      subscriptions := m.subscriptions.filter (·.id ≠ id)
      feeds := m.feeds.close [id] }
  | .publisher _ id => { m with publications := m.publications.filter (·.id ≠ id) }
  | .service _ id =>
    { m with
      provisions := m.provisions.filter (·.id ≠ id)
      providers := m.providers.filter (·.2 ≠ id) }

/-- How many callbacks and handlers there are. -/
def size (m : Master ε) : Nat := m.subscriptions.length + m.provisions.length

theorem size_remove_le (m : Master ε) (r : Registration) : (m.remove r).size ≤ m.size := by
  unfold size remove
  split
  · exact Nat.add_le_add_right (List.length_filter_le _ _) _
  · exact Nat.le_refl _
  · exact Nat.add_le_add_left (List.length_filter_le _ _) _

theorem size_remove_lt {m : Master ε} {r : Registration} (h : m.kept r ≠ []) :
    (m.remove r).size < m.size := by
  unfold kept at h
  unfold size remove
  split
  next id =>
    -- something was kept by a subscription that goes
    obtain ⟨x, hx⟩ := List.exists_mem_of_ne_nil _ h
    obtain ⟨s, hs, -⟩ := List.mem_flatMap.mp hx
    obtain ⟨hmem, hid⟩ := List.mem_filter.mp hs
    refine Nat.add_lt_add_right (List.length_filter_lt_length_iff_exists.mpr ⟨s, hmem, ?_⟩) _
    simpa using hid
  next => exact absurd rfl h
  next id =>
    obtain ⟨x, hx⟩ := List.exists_mem_of_ne_nil _ h
    obtain ⟨p, hp, -⟩ := List.mem_flatMap.mp hx
    obtain ⟨hmem, hid⟩ := List.mem_filter.mp hp
    refine Nat.add_lt_add_left (List.length_filter_lt_length_iff_exists.mpr ⟨p, hmem, ?_⟩) _
    simpa using hid

/-- Lets go of handles one after the other, and of what went with a registration right
after it. The numbers are those of the clients that are let go of. -/
def letGo (m : Master ε) : List Handle → List Nat × Master ε
  | [] => ([], m)
  | .node node :: rest => let (clients, m) := m.letGo rest; (node.id :: clients, m)
  | .logger logger :: rest => let (clients, m) := m.letGo rest; (logger.node :: clients, m)
  | .registration registration :: rest =>
    if _h : m.kept registration = [] then (m.remove registration).letGo rest
    else (m.remove registration).letGo (m.kept registration ++ rest)
termination_by handles => (m.size, handles.length)
decreasing_by
  · exact Prod.Lex.right _ (by simp)
  · exact Prod.Lex.right _ (by simp)
  · have hle := m.size_remove_le registration
    rcases Nat.lt_or_eq_of_le hle with hlt | heq
    · exact Prod.Lex.left _ _ hlt
    · rw [heq]
      exact Prod.Lex.right _ (by simp)
  · exact Prod.Lex.left _ _ (size_remove_lt _h)

/-- Takes a registration back, and lets go of what goes with it. -/
def withdraw (m : Master ε) (registration : Registration) : List Nat × Master ε :=
  m.letGo [.registration registration]

end NodeGraph.Master
