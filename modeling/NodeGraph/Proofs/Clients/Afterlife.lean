import NodeGraph.Component.Server
import NodeGraph.Proofs.Clients.Estate
import NodeGraph.Proofs.Clients.Mastered

/-!
# What is left of a node

Whoever shuts a node down is promised that it is registered no more, and that its handles stop
working (`Ceased`). Here the node is dropped, and with it one hold on its client. The client may
have other owners: loggers that were made for the node, in somebody's hands or kept by a
callback or a handler.

> `shutdown_outlived`: with any library whose clients last, the promise is kept exactly if no
> logger of the node was left when it was shut down. As long as one is, the node stays registered
> and whatever is logged for it is published, and no longer.
-/

namespace NodeGraph

variable {β ε : Type} [ClientLibrary β ε] {view : Outlook β}

/-- What whoever shuts a node down is promised. -/
structure Outlook.Ceased (view : Outlook β) (s : Shared β) (node : Node) : Prop where
  unregistered : view.registered? s.library node.id = none
  silent : ∀ logger : Logger, logger.node = node.id → ∀ entry,
    view.published (s.log logger entry).library = view.published s.library

namespace Estate

/-- Whether a handle is left that holds on to the client of a node. -/
def Remains (view : Outlook β) (e : Estate β) (node : Node) : Prop :=
  node ∈ owners (e.handles view)

instance (view : Outlook β) (e : Estate β) (node : Node) : Decidable (e.Remains view node) :=
  inferInstanceAs (Decidable (_ ∈ _))

variable {e b : Estate β} {node : Node}

/-- A node that was known is registered as long as it has an owner. -/
theorem registered_of_later (h : e.Sound view) (hnode : e.Remains view node)
    (hkeeps : e.Keeps view b) :
    view.registered? b.shared.library node.id =
      if b.Remains view node then some node.name else none := by
  by_cases hleft : b.Remains view node
  · rw [if_pos hleft]
    exact (hkeeps.sound.tended.registered node).mpr hleft
  · rw [if_neg hleft]
    cases hname : view.registered? b.shared.library node.id with
    | none => rfl
    | some name =>
      -- an owner of the client is one that there was before, when it had this name
      have howner := (hkeeps.sound.tended.registered ⟨node.id, name⟩).mp hname
      have hbefore := hkeeps.later.old _ howner (h.tended.bound node hnode)
      exact absurd (h.tended.eq_of_id hbefore hnode rfl ▸ howner) hleft

/-- A name is registered as long as some node of that name has an owner. -/
theorem Sound.exists_registered_iff (h : e.Sound view) (name : String) :
    (∃ client, view.registered? e.shared.library client = some name) ↔
      ∃ node, node.name = name ∧ e.Remains view node := by
  constructor
  · intro hsome
    obtain ⟨client, hclient⟩ := hsome
    exact ⟨⟨client, name⟩, rfl, (h.tended.registered ⟨client, name⟩).mp hclient⟩
  · intro hsome
    obtain ⟨node, rfl, hleft⟩ := hsome
    exact ⟨node.id, (h.tended.registered node).mpr hleft⟩

/-! ## Shutting down -/

/-- A node that is dropped leaves what its loggers hold. -/
theorem remains_drop_iff (hlasting : view.Lasting) (h : e.Sound view)
    (hnode : .node node ∈ e.hands) :
    (e.drop (.node node)).Remains view node ↔
      .logger ⟨node.id, node.name⟩ ∈ e.handles view := by
  have hkept : view.kept (e.drop (.node node)).shared.library = view.kept e.shared.library := by
    show view.kept (if e.shared.holds.count node.id = 1 then _ else e.shared.library) = _
    split
    · exact (hlasting.closed e.shared.library node.id).kept
    · rfl
  have hperm : (e.handles view).Perm (.node node :: (e.drop (.node node)).handles view) := by
    unfold handles
    rw [hkept]
    exact (List.perm_cons_erase hnode).append_right _
  -- there is no second handle that is the node
  have hsole : (.node node :: (e.drop (.node node)).handles view).filterMap Handle.node? |>.Nodup :=
    (hperm.filterMap _).nodup_iff.mp h.sole
  constructor
  · intro hleft
    obtain ⟨handle, hmem, howner⟩ := mem_owners.mp hleft
    cases handle with
    | registration registration => cases howner
    | logger logger =>
      obtain rfl := Option.some.inj howner
      exact hperm.mem_iff.mpr (List.mem_cons_of_mem _ hmem)
    | node other =>
      obtain rfl := Option.some.inj howner
      have hagain : other.id ∈ ((e.drop (.node other)).handles view).filterMap Handle.node? :=
        List.mem_filterMap.mpr ⟨_, hmem, rfl⟩
      exact absurd hagain (List.nodup_cons.mp hsole).1
  · intro hlogger
    rcases List.mem_cons.mp (hperm.mem_iff.mp hlogger) with heq | hmem
    · cases heq
    · exact mem_owners.mpr ⟨_, hmem, rfl⟩

/-- **A node outlives its shutdown by its loggers.** From its shutdown on it is registered as
long as a handle is left that holds on to its client, its name as long as that is true of some
node of that name, and whatever is logged for it is published in the meantime and no longer. Once
nobody holds on to it any more that is so for good. So what was promised is kept exactly if there
was no logger of it, in anybody's hands or kept by any callback or handler. -/
theorem shutdown_outlived (hlasting : view.Lasting) (h : e.Reachable view)
    (hnode : .node node ∈ e.hands) :
    (∀ b, Operations view (e.drop (.node node)) b →
      view.registered? b.shared.library node.id =
        (if b.Remains view node then some node.name else none) ∧
      (∀ name, (∃ client, view.registered? b.shared.library client = some name) ↔
        ∃ other, other.name = name ∧ b.Remains view other) ∧
      (∀ logger entry, logger.node = node.id →
        view.published (b.log logger entry).shared.library = view.published b.shared.library ++
          if b.Remains view node then [⟨node.name, entry⟩] else []) ∧
      (¬ b.Remains view node → ∀ c, Operations view b c → ¬ c.Remains view node)) ∧
    ((∀ b, Operations view (e.drop (.node node)) b → view.Ceased b.shared node) ↔
      .logger ⟨node.id, node.name⟩ ∉ e.handles view) := by
  have hs := h.sound hlasting
  have hremains : e.Remains view node := mem_owners.mpr ⟨_, List.mem_append_left _ hnode, rfl⟩
  have hdropped : e.Operation view (e.drop (.node node)) := .drop (.node node) hnode
  have hregistered : ∀ b, Operations view (e.drop (.node node)) b →
      view.registered? b.shared.library node.id =
        if b.Remains view node then some node.name else none :=
    fun b hops => registered_of_later hs hremains (Operations.keeps hlasting hs (.head hdropped hops))
  have hsaid : ∀ b, Operations view (e.drop (.node node)) b → ∀ logger entry,
      logger.node = node.id →
        view.published (b.log logger entry).shared.library = view.published b.shared.library ++
          if b.Remains view node then [⟨node.name, entry⟩] else [] := by
    intro b hops logger entry hlogger
    refine (hlasting.logged b.shared.library logger.node entry).1.trans (congrArg (_ ++ ·) ?_)
    unfold Outlook.heard
    rw [hlogger, hregistered b hops]
    split <;> rfl
  have hnever : ∀ b c, Operations view (e.drop (.node node)) b → ¬ b.Remains view node →
      Operations view b c → ¬ c.Remains view node := by
    intro b c hops hnone hafter hleft
    have hkeeps := Operations.keeps hlasting hs (.head hdropped hops)
    have hlater := (Operations.keeps hlasting hkeeps.sound hafter).later
    exact hnone (hlater.old node hleft
      (Nat.le_trans (hs.tended.bound node hremains) hkeeps.later.lastId))
  refine ⟨fun b hops => ⟨hregistered b hops, ?_, hsaid b hops, fun hnone c => hnever b c hops hnone⟩,
    fun hceased hlogger => ?_, fun hnone b hops => ?_⟩
  · exact (Operations.keeps hlasting hs (.head hdropped hops)).sound.exists_registered_iff
  · have hleft := (remains_drop_iff hlasting hs hnode).mpr hlogger
    have hname := hregistered _ .refl
    rw [if_pos hleft, (hceased _ .refl).unregistered] at hname
    cases hname
  · have hleft : ¬ b.Remains view node :=
      hnever _ b .refl (fun hleft => hnone ((remains_drop_iff hlasting hs hnode).mp hleft)) hops
    refine ⟨(hregistered b hops).trans (if_neg hleft), fun logger hlogger entry => ?_⟩
    have hsilent := hsaid b hops logger entry hlogger
    rw [if_neg hleft, List.append_nil] at hsilent
    exact hsilent

/-! ## A server -/

/-- A node that is to serve. -/
def adder : Node := ⟨2, "/add_two_ints_server"⟩

/-- A server whose handler keeps a logger, and somebody who watches what is logged. -/
def serving : Estate (Master Unit) :=
  let watcher : Node := ⟨1, "/watcher"⟩
  let e := ((⟨{ library := {} }, []⟩ : Estate (Master Unit)).register "watcher").subscribe watcher
    "/rosout" 10 Record.type (fun _ => ()) [] [.node watcher]
  let e := (e.register "add_two_ints_server").lend adder
  e.advertise adder Addition.serviceName Addition.service
    (AdditionServer.answer ⟨adder.id, adder.name⟩) [.logger ⟨adder.id, adder.name⟩]
    [.node adder, .registration (.subscriber "/rosout" 1), .node watcher]

theorem serving_reachable : serving.Reachable Master.outlook := by
  refine ⟨{}, fun _ => rfl, rfl, ?_⟩
  unfold serving
  refine .tail (.tail (.tail (.tail (.tail .refl (.register "watcher"))
    (.subscribe _ "/rosout" 10 Record.type _ [] _ ?_ ?_)) (.register "add_two_ints_server"))
    (.lend adder ?_))
    (.advertise adder Addition.serviceName Addition.service _ _ _ ?_ ?_)
  · decide
  · exact .refl _
  · decide
  · decide
  · exact .refl _

/-- The promise is not kept for that server, whose handler has a logger of it. -/
theorem shutdown_outlived_serving :
    Master.outlook.Lasting (β := Master Unit) ∧ serving.Reachable Master.outlook ∧
      .node adder ∈ serving.hands ∧
      ¬ ∀ b, Operations Master.outlook (serving.drop (.node adder)) b →
        Master.outlook.Ceased b.shared adder := by
  have hnode : .node adder ∈ serving.hands := by decide
  refine ⟨Master.lasting, serving_reachable, hnode, fun hceased => ?_⟩
  exact (shutdown_outlived Master.lasting serving_reachable hnode).2.mp hceased (by decide)

/-- Right after the server was shut down its name is still registered, and what is logged for
it is published and reaches whoever watches. -/
theorem serving_not_ceased :
    Master.outlook.Lasting (β := Master Unit) ∧ serving.Reachable Master.outlook ∧
      .node adder ∈ serving.hands ∧
      (let s := (serving.drop (.node adder)).shared
      let late := s.log ⟨adder.id, adder.name⟩ (.info "late")
      Master.outlook.registered? s.library adder.id = some adder.name ∧
        Master.outlook.published late.library = [⟨adder.name, .info "late"⟩] ∧
        late.library.feeds.map (·.pending.length) = [1] ∧
        ¬ Master.outlook.Ceased s adder) := by
  refine ⟨Master.lasting, serving_reachable, by decide, by decide, by decide, by decide,
    fun hceased => ?_⟩
  exact absurd hceased.unregistered (by decide)

end Estate

end NodeGraph
