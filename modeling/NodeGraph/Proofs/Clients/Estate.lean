import Mathlib.Logic.Relation
import NodeGraph.Proofs.Clients.Lasting

/-!
# What becomes of handles

An `Estate` is all that a process has with its client library: the clients with their holders,
and the handles that are in somebody's hands, be it those of a program or of a component.
Handles that callbacks and handlers keep are in the hands of the library, until the registration
is withdrawn or the library has refused to take them.

`Operation` says what may come next. A node is used only while it is there, a logger is made from
a handle of the same client, what a callback or a handler is to keep is taken out of the hands
that held it, and what is dropped has to be in somebody's hands. Loggers may log whether they are
there or not. What others do with the library is their affair, and handles may change hands at
any time.

> `operations_advance`: a call is looked up, and whatever its handler does then is an operation
> like any other.
>
> `Operation.keeps`, `Operations.keeps`: no operation upsets that clients are registered exactly
> as long as somebody owns them, and nobody comes back who was gone.
>
> `Reachable.sound`: so it is in every estate that comes of any number of operations, in any
> order, if nobody had connected before.
-/

namespace NodeGraph

/-- The number of the node that a handle is. -/
def Handle.node? : Handle → Option Nat
  | .node n => some n.id
  | .logger _ => none
  | .registration _ => none

/-- What a process has with its client library, and what is in somebody's hands. -/
structure Estate (β : Type) where
  shared : Shared β
  hands : List Handle := []

namespace Estate

variable {β ε : Type} [ClientLibrary β ε]

/-! ## Operations -/

/-- What comes of something that was asked for: it is in somebody's hands if it was granted. -/
def grant {τ : Type} (handle : τ → Handle) (hands : List Handle) :
    Except Error τ × Shared β → Estate β
  | (.ok granted, shared) => ⟨shared, handle granted :: hands⟩
  | (.error _, shared) => ⟨shared, hands⟩

/-- Registers a node. -/
def register (e : Estate β) (name : String) : Estate β :=
  grant .node e.hands (e.shared.register name)

/-- Makes a logger for a node. -/
def lend (e : Estate β) (node : Node) : Estate β :=
  ⟨(e.shared.logger node).2, .logger (e.shared.logger node).1 :: e.hands⟩

/-- Subscribes a node to a topic. The callback takes the handles it is to keep out of the
hands that held them and leaves the others. -/
def subscribe {α : Type} (e : Estate β) (node : Node) (topic : String) (capacity : Nat)
    (type : MessageType α) (receive : α → ε) (owns others : List Handle) : Estate β :=
  grant .registration others (e.shared.subscribe node topic capacity type receive owns)

/-- Offers a service. The handler does the same. -/
def advertise {ρ σ : Type} (e : Estate β) (node : Node) (service : String)
    (type : ServiceType ρ σ) (answer : ρ → Act (Except String σ)) (owns others : List Handle) :
    Estate β :=
  grant .registration others (e.shared.advertise node service type answer owns)

/-- Makes a node a publisher on a topic. -/
def publish {α : Type} (e : Estate β) (node : Node) (topic : String) (capacity : Nat)
    (type : MessageType α) : Estate β :=
  grant (fun p : Publisher α => .registration p.registration) e.hands
    (e.shared.publish node topic capacity type)

/-- Sends a message. -/
def send {α : Type} (e : Estate β) (p : Publisher α) (message : α) : Estate β :=
  ⟨(e.shared.send p message).2, e.hands⟩

/-- Logs an entry. -/
def log (e : Estate β) (logger : Logger) (entry : Entry) : Estate β :=
  ⟨e.shared.log logger entry, e.hands⟩

/-- Looks up who answers a call. -/
def dispatch {ρ σ : Type} (e : Estate β) (node : Node) (service : String)
    (type : ServiceType ρ σ) (request : ρ) : Estate β :=
  ⟨(e.shared.dispatch node service type request).2, e.hands⟩

/-- Drops a handle. -/
def drop (e : Estate β) (handle : Handle) : Estate β :=
  ⟨e.shared.drop handle, e.hands.erase handle⟩

variable (view : Outlook β)

/-- All handles that there are. -/
def handles (e : Estate β) : List Handle := e.hands ++ view.kept e.shared.library

/-- Something that somebody does. -/
inductive Operation (e : Estate β) : Estate β → Prop where
  | register (name : String) : Operation e (e.register name)
  | lend (node : Node) (h : node ∈ owners (e.handles view)) : Operation e (e.lend node)
  | subscribe {α : Type} (node : Node) (topic : String) (capacity : Nat)
    (type : MessageType α) (receive : α → ε) (owns others : List Handle)
    (h : .node node ∈ e.handles view) (hhands : e.hands.Perm (owns ++ others)) :
    Operation e (e.subscribe node topic capacity type receive owns others)
  | advertise {ρ σ : Type} (node : Node) (service : String) (type : ServiceType ρ σ)
    (answer : ρ → Act (Except String σ)) (owns others : List Handle)
    (h : .node node ∈ e.handles view) (hhands : e.hands.Perm (owns ++ others)) :
    Operation e (e.advertise node service type answer owns others)
  | publish {α : Type} (node : Node) (topic : String) (capacity : Nat) (type : MessageType α)
    (h : .node node ∈ e.handles view) : Operation e (e.publish node topic capacity type)
  | send {α : Type} (p : Publisher α) (message : α) : Operation e (e.send p message)
  | log (logger : Logger) (entry : Entry) : Operation e (e.log logger entry)
  | dispatch {ρ σ : Type} (node : Node) (service : String) (type : ServiceType ρ σ)
    (request : ρ) : Operation e (e.dispatch node service type request)
  | drop (handle : Handle) (h : handle ∈ e.hands) : Operation e (e.drop handle)
  | others (library : β) (journal : List Line) (hands : List Handle)
    (hregistered : view.registered? library = view.registered? e.shared.library)
    (hhands : (e.handles view).Perm (hands ++ view.kept library)) :
    Operation e ⟨{ e.shared with library, journal }, hands⟩

/-- Any number of operations, one after the other. -/
abbrev Operations : Estate β → Estate β → Prop := Relation.ReflTransGen (Operation view)

/-- What operations make out of a library that nobody has connected with. -/
def Reachable (e : Estate β) : Prop :=
  ∃ library, (∀ client, view.registered? library client = none) ∧ view.kept library = [] ∧
    Operations view ⟨{ library }, []⟩ e

/-- Whether what is used for the next thing in a course of action is there to be used. -/
def Allows {α : Type} (e : Estate β) : Act α → Prop
  | .lend node _ => node ∈ owners (e.handles view)
  | .publish node _ _ _ _ => .node node ∈ e.handles view
  | .drop handle _ => handle ∈ e.hands
  | _ => True

/-- Whatever a handler does is an operation. -/
theorem operations_advance {α : Type} {e : Estate β} {act : Act α} (h : e.Allows view act) :
    ∃ b, Operations view e b ∧ b.shared = (Middleware.advance e.shared act).2 := by
  have hgrant : ∀ {τ : Type} (handle : τ → Handle) (hands : List Handle)
      (r : Except Error τ × Shared β), (grant handle hands r).shared = r.2 := by
    intro τ handle hands r
    obtain ⟨e | granted, shared⟩ := r <;> rfl
  cases act with
  | done result => exact ⟨e, .refl, rfl⟩
  | names next => exact ⟨e, .refl, rfl⟩
  | register name next => exact ⟨_, .single (.register name), hgrant ..⟩
  | lend node next => exact ⟨_, .single (.lend node h), rfl⟩
  | log logger entry next => exact ⟨_, .single (.log logger entry), rfl⟩
  | publish node topic capacity type next =>
    exact ⟨_, .single (.publish node topic capacity type h), hgrant ..⟩
  | send publisher message next => exact ⟨_, .single (.send publisher message), rfl⟩
  | call node service type request next =>
    exact ⟨_, .single (.dispatch node service type request), rfl⟩
  | drop handle next => exact ⟨_, .single (.drop handle h), rfl⟩

/-! ## Clients and their owners -/

/-- Clients are registered as long as they are owned, and a node is one handle. -/
structure Sound (e : Estate β) : Prop where
  tended : Tended view e.shared (owners (e.handles view))
  sole : ((e.handles view).filterMap Handle.node?).Nodup

/-- Numbers go up, and nobody is back who was gone. -/
structure Later (e b : Estate β) : Prop where
  lastId : e.shared.lastId ≤ b.shared.lastId
  old : ∀ node ∈ owners (b.handles view), node.id ≤ e.shared.lastId →
    node ∈ owners (e.handles view)

/-- Both of it is kept up. -/
structure Keeps (e b : Estate β) : Prop where
  sound : b.Sound view
  later : e.Later view b

variable {view} {e b c : Estate β}

theorem Later.refl (e : Estate β) : e.Later view e := ⟨Nat.le_refl _, fun _ hnode _ => hnode⟩

theorem Later.trans (h : e.Later view b) (h' : b.Later view c) : e.Later view c :=
  ⟨Nat.le_trans h.lastId h'.lastId, fun node hnode hle =>
    h.old node (h'.old node hnode (Nat.le_trans hle h.lastId)) hle⟩

theorem Keeps.refl (h : e.Sound view) : e.Keeps view e := ⟨h, .refl e⟩

theorem Keeps.trans (h : e.Keeps view b) (h' : b.Keeps view c) : e.Keeps view c :=
  ⟨h'.sound, h.later.trans h'.later⟩

/-! ## What stays and what goes -/

variable {s s' : Shared β} {hands hands' : List Handle}

/-- What counts are the handles there are, in whatever hands, and how clients are registered. -/
theorem Sound.transfer (h : Sound view ⟨s, hands⟩)
    (hperm : (hands ++ view.kept s.library).Perm (hands' ++ view.kept s'.library))
    (hregistered : view.registered? s'.library = view.registered? s.library)
    (hholds : s'.holds = s.holds) (hlast : s'.lastId = s.lastId) :
    Keeps view ⟨s, hands⟩ ⟨s', hands'⟩ where
  sound :=
    { tended := (h.tended.perm (owners_perm hperm)).of_registered hregistered hholds hlast
      sole := (hperm.filterMap _).nodup_iff.mp h.sole }
  later := ⟨Nat.le_of_eq hlast.symm, fun _ hnode _ => (owners_perm hperm).mem_iff.mpr hnode⟩

theorem Sound.perm (h : Sound view ⟨s, hands⟩) (hperm : hands.Perm hands') :
    Keeps view ⟨s, hands⟩ ⟨s, hands'⟩ :=
  h.transfer (hperm.append_right _) rfl rfl rfl

/-- Where no difference is to be seen there is none. -/
theorem Sound.same {library : β} (h : e.Sound view) (hsame : view.Same e.shared.library library) :
    Keeps view e ⟨{ e.shared with library }, e.hands⟩ :=
  h.transfer (hsame.kept ▸ .refl _) hsame.registered rfl rfl

/-- Registrations come and go without anybody owning more or less. -/
theorem sound_registration_iff (registration : Registration) :
    Sound view ⟨s, .registration registration :: hands⟩ ↔ Sound view ⟨s, hands⟩ :=
  ⟨fun h => ⟨h.tended, h.sole⟩, fun h => ⟨h.tended, h.sole⟩⟩

theorem Keeps.registration (h : Keeps view e ⟨s, hands⟩) (registration : Registration) :
    Keeps view e ⟨s, .registration registration :: hands⟩ :=
  ⟨(sound_registration_iff registration).mpr h.sound, h.later.lastId, h.later.old⟩

variable (hlasting : view.Lasting)

include hlasting

/-- An owner lets go. -/
theorem letGo_keeps {handle : Handle} {node : Node} (h : Sound view ⟨s, handle :: hands⟩)
    (howner : handle.owner? = some node) :
    Keeps view ⟨s, handle :: hands⟩ ⟨s.letGo node.id, hands⟩ := by
  have hkept : view.kept (s.letGo node.id).library = view.kept s.library := by
    show view.kept (if s.holds.count node.id = 1 then _ else s.library) = _
    split
    · exact (hlasting.closed s.library node.id).kept
    · rfl
  have hhandles : handles view ⟨s.letGo node.id, hands⟩ = hands ++ view.kept s.library :=
    congrArg (hands ++ ·) hkept
  have howners : owners (handles view ⟨s, handle :: hands⟩) =
      node :: owners (hands ++ view.kept s.library) :=
    List.filterMap_cons_some howner
  have htended := h.tended
  rw [howners] at htended
  refine ⟨⟨hhandles ▸ htended.letGo hlasting, ?_⟩, Nat.le_refl _, fun other hother _ => ?_⟩
  · rw [hhandles]
    exact h.sole.sublist ((List.sublist_cons_self _ _).filterMap _)
  · rw [hhandles] at hother
    rw [howners]
    exact List.mem_cons_of_mem _ hother

/-- Several owners let go, in whatever order. -/
theorem letGo_each_keeps {gone : List Handle} {clients : List Nat}
    (h : Sound view ⟨s, gone ++ hands⟩) (hclients : clients.Perm ((owners gone).map (·.id))) :
    Keeps view ⟨s, gone ++ hands⟩ ⟨clients.foldl Shared.letGo s, hands⟩ := by
  induction clients generalizing s gone with
  | nil =>
    have hnone : owners gone = [] := List.map_eq_nil_iff.mp hclients.nil_eq.symm
    have howners : owners (handles view ⟨s, gone ++ hands⟩) = owners (handles view ⟨s, hands⟩) := by
      unfold handles
      rw [List.append_assoc, owners_append, hnone, List.nil_append]
    have hsublist : (handles view ⟨s, hands⟩).Sublist (handles view ⟨s, gone ++ hands⟩) :=
      (List.sublist_append_right gone hands).append_right _
    exact ⟨⟨howners ▸ h.tended, h.sole.sublist (hsublist.filterMap _)⟩, Nat.le_refl _,
      fun node hnode _ => howners ▸ hnode⟩
  | cons client clients ih =>
    obtain ⟨node, hnode, rfl⟩ := List.mem_map.mp (hclients.subset List.mem_cons_self)
    obtain ⟨handle, hhandle, howner⟩ := mem_owners.mp hnode
    have hperm := List.perm_cons_erase hhandle
    have howners : (owners gone).Perm (node :: owners (gone.erase handle)) :=
      (owners_perm hperm).trans (.of_eq (List.filterMap_cons_some howner))
    have hfirst := h.perm (hperm.append_right hands)
    have hnext := letGo_keeps hlasting hfirst.sound howner
    exact (hfirst.trans hnext).trans
      (ih hnext.sound (hclients.trans (howners.map _)).cons_inv)

/-- What was kept for a registration goes when it is withdrawn. -/
theorem withdraw_keeps (h : Sound view ⟨s, hands⟩) (registration : Registration) :
    Keeps view ⟨s, hands⟩ ⟨s.drop (.registration registration), hands⟩ := by
  obtain ⟨gone, hkept, hclients, hregistered, -⟩ := hlasting.withdrawn s.library registration
  -- for a moment it is in nobody's hands
  have hgone : Keeps view ⟨s, hands⟩
      ⟨{ s with library := (ClientLibrary.withdraw s.library registration).2 }, gone ++ hands⟩ := by
    refine h.transfer ?_ hregistered rfl rfl
    rw [List.append_assoc]
    exact (hkept.append_left hands).trans (List.perm_append_comm_assoc ..)
  exact hgone.trans (letGo_each_keeps hlasting hgone.sound hclients)

theorem drop_keeps {handle : Handle} (h : Sound view ⟨s, handle :: hands⟩) :
    Keeps view ⟨s, handle :: hands⟩ ⟨s.drop handle, hands⟩ := by
  cases handle with
  | node node => exact letGo_keeps hlasting h rfl
  | logger logger => exact letGo_keeps hlasting h rfl
  | registration registration =>
    have hrest := (sound_registration_iff registration).mp h
    obtain ⟨hsound, hlater⟩ := withdraw_keeps hlasting hrest registration
    exact ⟨hsound, hlater.lastId, hlater.old⟩

theorem dropEach_keeps {gone : List Handle} (h : Sound view ⟨s, gone ++ hands⟩) :
    Keeps view ⟨s, gone ++ hands⟩ ⟨s.dropEach gone, hands⟩ := by
  induction gone generalizing s with
  | nil => exact .refl h
  | cons handle gone ih =>
    have hfirst := drop_keeps hlasting h
    exact hfirst.trans (ih hfirst.sound)

/-! ## What is granted -/

theorem register_keeps (h : e.Sound view) (name : String) : e.Keeps view (e.register name) := by
  cases hconnect : ClientLibrary.connect e.shared.library (e.shared.lastId + 1) name with
  | mk result library =>
    cases result with
    | error fault =>
      have hregister : e.register name = ⟨{ e.shared with library }, e.hands⟩ := by
        simp only [register, Shared.register, hconnect, grant]
      rw [hregister]
      exact h.same (hlasting.unconnected _ _ _ _ _ hconnect)
    | ok full =>
      have hregister : e.register name =
          ⟨⟨library, e.shared.lastId + 1, (e.shared.lastId + 1) :: e.shared.holds,
            e.shared.journal ++ [.registered full]⟩,
          .node ⟨e.shared.lastId + 1, full⟩ :: e.hands⟩ := by
        simp only [register, Shared.register, hconnect, grant]
      -- nobody is known by a number that has not been given yet
      have hnew : ∀ node ∈ owners (e.handles view), node.id ≠ e.shared.lastId + 1 := by
        intro node hnode
        have := h.tended.bound node hnode
        omega
      have hturns := hlasting.connected _ _ _ _ _
        ((h.tended.registered_eq_none_iff _).mpr hnew) hconnect
      have hhandles : (e.register name).handles view =
          .node ⟨e.shared.lastId + 1, full⟩ :: e.handles view := by
        rw [hregister]
        exact congrArg (List.cons _) (congrArg (e.hands ++ ·) hturns.kept)
      have howners : owners ((e.register name).handles view) =
          ⟨e.shared.lastId + 1, full⟩ :: owners (e.handles view) := by
        rw [hhandles]
        rfl
      refine ⟨⟨?_, ?_⟩, ?_, fun node hnode hle => ?_⟩
      · rw [howners, hregister]
        exact h.tended.enter hturns
      · rw [hhandles]
        refine List.nodup_cons.mpr ⟨fun hmem => ?_, h.sole⟩
        obtain ⟨handle, hhandle, hid⟩ := List.mem_filterMap.mp hmem
        cases handle with
        | node node =>
          exact hnew node (mem_owners.mpr ⟨_, hhandle, rfl⟩) (Option.some.inj hid)
        | logger logger => cases hid
        | registration registration => cases hid
      · rw [hregister]
        exact Nat.le_succ _
      · rw [howners] at hnode
        rcases List.mem_cons.mp hnode with rfl | hnode
        · exact absurd hle (Nat.not_succ_le_self _)
        · exact hnode

omit hlasting in
theorem lend_keeps (h : e.Sound view) {node : Node} (hnode : node ∈ owners (e.handles view)) :
    e.Keeps view (e.lend node) := by
  refine ⟨⟨h.tended.hold hnode, h.sole⟩, Nat.le_refl _, fun other hother _ => ?_⟩
  rcases List.mem_cons.mp hother with rfl | hother
  · exact hnode
  · exact hother

/-- What a callback or a handler was to keep is kept by the library if it was granted, and
dropped if it was refused. -/
theorem orDropping_keeps {owns others : List Handle} {r : Except ClientFault Registration × β}
    (h : e.Sound view) (hhands : e.hands.Perm (owns ++ others))
    (htakes : view.Takes e.shared.library owns r) :
    e.Keeps view (grant .registration others (e.shared.orDropping owns r)) := by
  obtain ⟨fault | granted, library⟩ := r
  · have hmoved := h.perm hhands
    have hsame := hmoved.sound.same (htakes.refused rfl)
    exact (hmoved.trans hsame).trans (dropEach_keeps hlasting hsame.sound)
  · obtain ⟨hregistered, -, hkept⟩ := htakes.granted rfl
    have hgranted : e.Keeps view ⟨{ e.shared with library }, others⟩ := by
      refine h.transfer ?_ hregistered rfl rfl
      refine (hhands.append_right _).trans ?_
      rw [List.append_assoc]
      exact (List.perm_append_comm_assoc ..).trans (hkept.symm.append_left others)
    exact hgranted.registration granted

omit hlasting in
theorem snd_orDropping_nil {τ : Type} (s : Shared β) (r : Except ClientFault τ × β) :
    (s.orDropping [] r).2 = { s with library := r.2 } := by
  obtain ⟨fault | granted, library⟩ := r <;> rfl

theorem publish_keeps {α : Type} (h : e.Sound view) (node : Node) (topic : String)
    (capacity : Nat) (type : MessageType α) :
    e.Keeps view (e.publish node topic capacity type) := by
  have hsame := h.same (hlasting.published e.shared.library node.id topic capacity type)
  unfold publish Shared.publish
  cases hpublish : ClientLibrary.publish e.shared.library node.id topic capacity type with
  | mk result library =>
    rw [hpublish] at hsame
    cases result with
    | error fault => exact hsame
    | ok publisher => exact hsame.registration publisher.registration

/-! ## Any number of operations -/

/-- **No operation upsets the count,** and nobody comes back. -/
theorem Operation.keeps (h : e.Sound view) (hop : e.Operation view b) : e.Keeps view b := by
  cases hop with
  | register name => exact register_keeps hlasting h name
  | lend node hnode => exact lend_keeps h hnode
  | subscribe node topic capacity type receive owns others _ hhands =>
    exact orDropping_keeps hlasting h hhands (hlasting.subscribed ..)
  | advertise node service type answer owns others _ hhands =>
    exact orDropping_keeps hlasting h hhands (hlasting.offered ..)
  | publish node topic capacity type _ =>
    exact publish_keeps hlasting h node topic capacity type
  | send p message =>
    have hsend : e.send p message =
        ⟨{ e.shared with library := (ClientLibrary.send e.shared.library p message).2 },
          e.hands⟩ := congrArg (Estate.mk · e.hands) (snd_orDropping_nil ..)
    rw [hsend]
    exact h.same (hlasting.sent e.shared.library p message)
  | log logger entry =>
    obtain ⟨-, hregistered, hkept⟩ := hlasting.logged e.shared.library logger.node entry
    exact h.transfer (.of_eq (congrArg (e.hands ++ ·) hkept.symm)) hregistered rfl rfl
  | dispatch node service type request =>
    have hsame := h.same (Shared.same_dispatch hlasting e.shared node service type request)
    rw [← Shared.snd_dispatch] at hsame
    exact hsame
  | drop handle hhandle =>
    have hfirst := h.perm (List.perm_cons_erase hhandle)
    exact hfirst.trans (drop_keeps hlasting hfirst.sound)
  | others library journal hands hregistered hhands =>
    exact h.transfer hhands hregistered rfl rfl

/-- Nor do several of them. -/
theorem Operations.keeps (h : e.Sound view) (hops : Operations view e b) : e.Keeps view b := by
  induction hops with
  | refl => exact .refl h
  | tail _ hop ih => exact ih.trans (hop.keeps hlasting ih.sound)

/-- Whatever can be reached is sound. -/
theorem Reachable.sound (h : e.Reachable view) : e.Sound view := by
  obtain ⟨library, hnobody, hkept, hops⟩ := h
  have hnone : handles view ⟨{ library }, []⟩ = [] := hkept
  have hstart : Sound view ⟨{ library }, []⟩ := by
    refine ⟨⟨?_, fun node => ?_, fun node hnode => ?_⟩, ?_⟩
    · rw [hnone]
      exact .refl []
    · rw [hnone]
      exact iff_of_false (fun hname => by rw [hnobody] at hname; cases hname) List.not_mem_nil
    · rw [hnone] at hnode
      cases hnode
    · rw [hnone]
      exact List.nodup_nil
  exact (Operations.keeps hlasting hstart hops).sound

end Estate

end NodeGraph
