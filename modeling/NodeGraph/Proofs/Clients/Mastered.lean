import NodeGraph.Master.Library
import NodeGraph.Proofs.Clients.Lasting

/-!
# Clients of a master of their own

A library that keeps the master to itself shows all there is to see. Its clients are those that
the master has, what has been published for them are the records, and callbacks and handlers are
kept by their subscriptions and provisions.

> `Master.lasting`: seen in this way, its clients last.

What goes with a registration may be registrations again, whose callbacks and handlers go in
turn. `letGo` goes along that recursion, and nothing gets lost on the way (`letGo_spec`).
-/

namespace NodeGraph

/-- What a record says. -/
def Record.report (record : Record) : Report :=
  ⟨record.name, ⟨record.level, record.msg, ⟨record.file, record.line⟩⟩⟩

namespace Master

variable {ε : Type}

/-- The handles that callbacks and handlers keep. -/
def keepsakes (m : Master ε) : List Handle :=
  m.subscriptions.flatMap (·.owns) ++ m.provisions.flatMap (·.handler.owns)

/-- All there is to see. -/
def outlook : Outlook (Master ε) where
  registered? m client := (m.client? client).map (·.path.toText)
  published m := m.records.map (·.2.report)
  kept := keepsakes

/-! ## Nothing gets lost -/

/-- What some of them own, and what the others own. -/
theorem flatMap_perm {α : Type} (number : α → Nat) (id : Nat) (owns : α → List Handle)
    (entries : List α) : (entries.flatMap owns).Perm
      ((entries.filter fun x => number x = id).flatMap owns ++
        (entries.filter fun x => number x ≠ id).flatMap owns) := by
  rw [← List.flatMap_append]
  simp only [ne_eq, decide_not]
  exact (List.filter_append_perm (fun x => decide (number x = id)) entries).symm.flatMap_right _

/-- What goes with a registration has been kept, and everything else still is. -/
theorem keepsakes_remove (m : Master ε) (registration : Registration) :
    m.keepsakes.Perm (m.kept registration ++ (m.remove registration).keepsakes) := by
  cases registration with
  | publisher topic id => exact .refl _
  | subscriber topic id =>
    refine ((flatMap_perm (·.id) id _ m.subscriptions).append_right _).trans ?_
    rw [List.append_assoc]
    rfl
  | service name id =>
    refine ((flatMap_perm (·.id) id _ m.provisions).append_left _).trans ?_
    exact List.perm_append_comm_assoc ..

/-- All that is let go of was kept or is in the list, and nothing else has changed. -/
theorem letGo_spec (m : Master ε) (handles : List Handle) : ∃ gone,
    m.keepsakes.Perm (gone ++ (m.letGo handles).2.keepsakes) ∧
    (m.letGo handles).1.Perm ((owners (handles ++ gone)).map (·.id)) ∧
    (m.letGo handles).2.clients = m.clients ∧ (m.letGo handles).2.records = m.records := by
  fun_induction letGo m handles with
  | case1 m => exact ⟨[], .refl _, .refl _, rfl, rfl⟩
  | case2 m node rest clients m' hrest ih =>
    obtain ⟨gone, hkept, hclients, hsame⟩ := ih
    rw [hrest] at hkept hclients hsame
    exact ⟨gone, hkept, hclients.cons _, hsame⟩
  | case3 m logger rest clients m' hrest ih =>
    obtain ⟨gone, hkept, hclients, hsame⟩ := ih
    rw [hrest] at hkept hclients hsame
    exact ⟨gone, hkept, hclients.cons _, hsame⟩
  | case4 m registration rest hnone ih =>
    obtain ⟨gone, hkept, hclients, hsame⟩ := ih
    have hremove := m.keepsakes_remove registration
    rw [hnone, List.nil_append] at hremove
    refine ⟨gone, hremove.trans hkept, hclients, hsame.1.trans ?_, hsame.2.trans ?_⟩
    · cases registration <;> rfl
    · cases registration <;> rfl
  | case5 m registration rest hsome ih =>
    obtain ⟨gone, hkept, hclients, hsame⟩ := ih
    refine ⟨m.kept registration ++ gone, ?_, hclients.trans ?_, hsame.1.trans ?_,
      hsame.2.trans ?_⟩
    · rw [List.append_assoc]
      exact (m.keepsakes_remove registration).trans (hkept.append_left _)
    · rw [List.append_assoc]
      exact (owners_perm (List.perm_append_comm_assoc ..)).map _
    · cases registration <;> rfl
    · cases registration <;> rfl

/-! ## What is asked of it -/

theorem registered_congr {m m' : Master ε} (h : m'.clients = m.clients) :
    outlook.registered? m' = outlook.registered? m :=
  congrArg (fun cs : List Client => fun id => (cs.find? (·.id = id)).map (·.path.toText)) h

theorem registered_connect {m : Master ε} (client : Client)
    (hnone : outlook.registered? m client.id = none) :
    outlook.registered? { m with clients := m.clients ++ [client] } =
      Function.update (outlook.registered? m) client.id (some client.path.toText) := by
  funext id
  show ((m.clients ++ [client]).find? (·.id = id)).map _ = _
  rw [List.find?_append, List.find?_singleton]
  by_cases hid : id = client.id
  · subst hid
    have hfind : m.clients.find? (·.id = client.id) = none := Option.map_eq_none_iff.mp hnone
    rw [Function.update_self, hfind, if_pos (decide_eq_true rfl)]
    rfl
  · rw [Function.update_of_ne hid, if_neg (by simpa using Ne.symm hid), Option.or_none]
    rfl

theorem registered_close (m : Master ε) (id : Nat) :
    outlook.registered? (m.close id) = Function.update (outlook.registered? m) id none := by
  funext other
  show ((m.clients.filter (·.id ≠ id)).find? (·.id = other)).map _ = _
  rw [List.find?_filter]
  by_cases hid : other = id
  · subst hid
    rw [Function.update_self]
    refine Option.map_eq_none_iff.mpr (List.find?_eq_none.mpr fun c _ => ?_)
    simp
  · rw [Function.update_of_ne hid]
    refine congrArg (Option.map _) (congrArg (List.find? · m.clients) (funext fun c => ?_))
    by_cases hc : c.id = other
    · simp [hc, hid]
    · simp [hc]

theorem takes_subscribe {α : Type} (m : Master ε) (client : Nat) (topic : String)
    (capacity : Nat) (type : MessageType α) (receive : α → ε) (owns : List Handle) :
    outlook.Takes m owns (m.subscribe client topic capacity type receive owns) := by
  unfold subscribe
  cases m.locate client topic with
  | error fault => exact ⟨fun h => (nomatch h), fun _ => .refl _ m⟩
  | ok topic =>
    dsimp only
    cases (m.subscribedType? client topic).filter (· ≠ type.name) with
    | some old => exact ⟨fun h => (nomatch h), fun _ => .refl _ m⟩
    | none =>
      refine ⟨fun _ => ⟨rfl, rfl, ?_⟩, fun h => nomatch h⟩
      show (List.flatMap _ (m.subscriptions ++ [_]) ++ _).Perm _
      rw [List.flatMap_append, List.flatMap_singleton, List.append_assoc]
      exact List.perm_append_comm_assoc ..

theorem takes_service {ρ σ : Type} (m : Master ε) (client : Nat) (service : String)
    (type : ServiceType ρ σ) (answer : ρ → Act (Except String σ)) (owns : List Handle) :
    outlook.Takes m owns (m.service client service type answer owns) := by
  unfold Master.service
  cases m.locate client service with
  | error fault => exact ⟨fun h => (nomatch h), fun _ => .refl _ m⟩
  | ok name =>
    dsimp only
    by_cases htwice : (m.provisions.any fun p => p.node = client && p.name = name) = true
    · rw [if_pos htwice]
      exact ⟨fun h => (nomatch h), fun _ => .refl _ m⟩
    · rw [if_neg htwice]
      refine ⟨fun _ => ⟨rfl, rfl, ?_⟩, fun h => nomatch h⟩
      show (_ ++ List.flatMap _ (m.provisions ++ [_])).Perm _
      rw [List.flatMap_append, List.flatMap_singleton, ← List.append_assoc]
      exact List.perm_append_comm

/-- A client is heard if the master knows it. -/
theorem published_log (m : Master ε) (client : Nat) (entry : Entry) :
    outlook.published (m.log client entry) =
        outlook.published m ++ outlook.heard m client entry ∧
      outlook.registered? (m.log client entry) = outlook.registered? m ∧
      outlook.kept (m.log client entry) = outlook.kept m := by
  unfold Outlook.heard
  show _ = _ ++ (((m.client? client).map _).map _).toList ∧ _
  unfold Master.log
  cases m.client? client with
  | none => exact ⟨(List.append_nil _).symm, rfl, rfl⟩
  | some c => exact ⟨List.map_append, rfl, rfl⟩

theorem same_publish {α : Type} (m : Master ε) (client : Nat) (topic : String)
    (type : MessageType α) : outlook.Same m (m.publish client topic type).2 := by
  unfold publish
  cases m.locate client topic with
  | error fault => exact .refl _ m
  | ok topic =>
    dsimp only
    cases (m.publishedType? client topic).filter (· ≠ type.name) with
    | some old => exact .refl _ m
    | none => exact ⟨rfl, rfl, rfl⟩

theorem same_send {α : Type} (m : Master ε) (p : Publisher α) (message : α) :
    outlook.Same m (m.send p message).2 := by
  unfold send
  cases p.type.pack message with
  | error fault => exact .refl _ m
  | ok payload => exact ⟨rfl, rfl, rfl⟩

/-- A request finds its way without anything being done. -/
theorem snd_request {ρ σ : Type} (name : String) (type : ServiceType ρ σ) (request : ρ)
    (m : Master ε) : (Master.request name type request m).2 = m := by
  unfold Master.request
  cases m.provider? name with
  | none => rfl
  | some p =>
    dsimp only
    by_cases hsum : p.md5 = type.md5
    · rw [if_pos hsum]
      cases type.request.pack request <;> rfl
    · rw [if_neg hsum]

/-- What connecting can come to. -/
theorem connect_cases (m : Master ε) (id : Nat) (name : String) :
    (∃ fault, m.connect id name = (.error fault, m)) ∨
      ∃ path remaps, m.connect id name =
        (.ok path.toText, { m with clients := m.clients ++ [{ id, path, remaps }] }) := by
  unfold connect
  cases Path.ofNode m.arguments name with
  | error fault => exact .inl ⟨_, rfl⟩
  | ok path =>
    dsimp only
    by_cases hreachable : m.isReachable = true
    · rw [if_pos hreachable]
      cases path.remappings m.arguments with
      | error fault => exact .inl ⟨_, rfl⟩
      | ok remaps => exact .inr ⟨path, remaps, rfl⟩
    · rw [if_neg hreachable]
      exact .inl ⟨_, rfl⟩

/-! ## The laws -/

/-- **Clients of a master last.** -/
theorem lasting : outlook.Lasting (β := Master ε) where
  connected m id name full m' hnone h := by
    obtain ⟨fault, hrefused⟩ | ⟨path, remaps, hconnect⟩ := m.connect_cases id name
    · exact absurd (congrArg Prod.fst (hrefused.symm.trans h)) nofun
    · obtain ⟨hfull, rfl⟩ := Prod.mk.inj (hconnect.symm.trans h)
      obtain rfl := Except.ok.inj hfull
      exact ⟨registered_connect ⟨id, path, remaps⟩ hnone, rfl, rfl⟩
  unconnected m id name fault m' h := by
    obtain ⟨fault', hrefused⟩ | ⟨path, remaps, hconnect⟩ := m.connect_cases id name
    · obtain ⟨-, rfl⟩ := Prod.mk.inj (hrefused.symm.trans h)
      exact .refl _ m
    · exact absurd (congrArg Prod.fst (hconnect.symm.trans h)) nofun
  closed m client := ⟨registered_close m client, rfl, rfl⟩
  logged := published_log
  asked m client service type := .refl _ m
  requested m client service type requests m' h request m'' := by
    have hrequests : (m.locate client service).map (Master.request · type) = .ok requests :=
      congrArg Prod.fst h
    cases hlocate : m.locate client service with
    | error fault =>
      rw [hlocate] at hrequests
      cases hrequests
    | ok name =>
      rw [hlocate] at hrequests
      obtain rfl := Except.ok.inj hrequests
      rw [snd_request]
      exact .refl _ m''
  published m client topic capacity type := m.same_publish client topic type
  sent := same_send
  subscribed := takes_subscribe
  offered := takes_service
  withdrawn m registration := by
    obtain ⟨gone, hkept, hclients, hsame, hrecords⟩ := m.letGo_spec [.registration registration]
    exact ⟨gone, hkept, hclients, registered_congr hsame, congrArg (List.map _) hrecords⟩

end Master

end NodeGraph
