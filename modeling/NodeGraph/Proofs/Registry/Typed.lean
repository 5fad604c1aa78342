import NodeGraph.Proofs.Delivery.Feeds

/-!
# Topics carry one type

Sending compares no sums, and logging sends without being registered at all. Even
so nothing of another type gets into a queue:

> `Agrees`: whoever has an open grant on a topic wants, or writes, the sum that the
> topic stores.
>
> `Sends`: a payload on a subscription was written with the sum that it wants, by
> a publisher on its topic or as a log record.

The argument for a publisher is not local. It is used while it is held and its
node is up, so its grant is open; an open grant keeps its topic in being, and a
topic's sum changes only when the topic is made anew. A publisher whose node is
gone may well name a topic that has come back with another sum, but its node is
not alive. `sends_of_vouched` says this for one letter, `typed_beat` keeps it up.
-/

namespace NodeGraph

open Wire (Bytes)

universe u

variable {ε : Type} {τ : Type u}

/-- The grants that are open agree with their topics on a sum. -/
def Agrees (topics : List Topic) (l : Ledger ε) (cs : List (Grant τ)) (sum : τ → String) :
    Prop :=
  ∀ t ∈ topics, ∀ c ∈ cs, l.isOpen c = true → c.target = t.name → sum c.item = t.md5

namespace Agrees

variable {topics topics' base : List Topic} {l l' : Ledger ε} {cs : List (Grant τ)}
  {sum : τ → String}

/-- Nothing changes as long as topics keep their sums and nobody new is open. -/
theorem mono (h : Agrees topics l cs sum)
    (htopics : ∀ t' ∈ topics', ∃ t ∈ topics, t.name = t'.name ∧ t.md5 = t'.md5)
    (hopen : ∀ c ∈ cs, l'.isOpen c = true → l.isOpen c = true) : Agrees topics' l' cs sum := by
  intro t' ht' c hc hc' htarget
  obtain ⟨t, ht, hname, hsum⟩ := htopics t' ht'
  rw [← hsum]
  exact h t ht c hc (hopen c hc hc') (htarget.trans hname.symm)

/-- A topic that has just been made has no grants to disagree with. -/
theorem ensured (h : Agrees topics l cs sum) {name md5 : String} {t : Topic}
    (hb : Ensured topics name md5 base t)
    (hused : ∀ c ∈ cs, l.isOpen c = true → ∃ r ∈ topics, r.name = c.target) :
    Agrees base l cs sum := by
  obtain ⟨-, hname, -, hfrom⟩ := hb.mem_base
  intro s hs c hc hopen htarget
  rcases hfrom s hs with hold | ⟨rfl, -, -, hnone⟩
  · exact h s hold c hc hopen htarget
  · -- an open grant under that name would have kept the topic in being
    obtain ⟨r, hr, hrname⟩ := hused c hc hopen
    exact absurd (hrname.trans (htarget.trans hname)) (hnone r hr)

/-- One grant more that agrees. -/
theorem append (h : Agrees topics l cs sum) {c : Grant τ}
    (hc : ∀ t ∈ topics, c.target = t.name → sum c.item = t.md5) :
    Agrees topics l (cs ++ [c]) sum := by
  intro t ht d hd hopen htarget
  rcases List.mem_append.mp hd with hold | hnew
  · exact h t ht d hold hopen htarget
  · rw [List.mem_singleton.mp hnew] at htarget ⊢
    exact hc t ht htarget

/-- The story of a subscription has nothing to do with its sum. -/
theorem update (h : Agrees topics l cs sum) (f : Grant τ → τ → τ)
    (hsum : ∀ c item, sum (f c item) = sum item) :
    Agrees topics l (cs.map fun c => c.update (f c)) sum := by
  intro t ht d hd hopen htarget
  obtain ⟨c, hc, rfl⟩ := List.mem_map.mp hd
  rw [Grant.update_item, hsum]
  exact h t ht c hc hopen htarget

/-- Changing the members of topics leaves their sums. -/
theorem changed (h : Agrees topics l cs sum) {name : String} {change : Topic → Topic}
    (hname : ∀ t, (change t).name = t.name) (hsum : ∀ t, (change t).md5 = t.md5) :
    Agrees (topics.map (changeTopic name change)) l cs sum := by
  refine h.mono ?_ fun _ _ hopen => hopen
  intro t' ht'
  obtain ⟨t, ht, rfl⟩ := List.mem_map.mp ht'
  refine ⟨t, ht, (changeTopic_name hname t).symm, ?_⟩
  unfold changeTopic
  split
  · exact (hsum t).symm
  · rfl

end Agrees

/-- Of all that are sure to be there, the topic made sure of has the sum that was
asked for. -/
theorem Ensured.md5_eq {topics base : List Topic} {name md5 : String} {t s : Topic}
    (h : Ensured topics name md5 base t) (hnames : (topics.map Topic.name).Nodup) (hs : s ∈ base)
    (hname : name = s.name) : md5 = s.md5 := by
  obtain ⟨ht, htname, hsum, -⟩ := h.mem_base
  have hst : s = t :=
    List.inj_on_of_nodup_map (h.names_base hnames) hs ht (hname.symm.trans htname.symm)
  rw [hst]
  exact hsum.symm

/-- The sum that a subscription wants. -/
def Intake.md5 (s : Intake ε) : String := s.type.md5

/-- The sum that a publisher writes. -/
def Outlet.md5 (o : Outlet) : String := o.publisher.type.md5

/-- Where a payload on a subscription may come from: a publisher on its topic that
writes the sum it wants, or the log, if that is what it subscribes to. -/
def Ledger.Sends (l : Ledger ε) (c : Grant (Intake ε)) (payload : Bytes) : Prop :=
  (∃ d ∈ l.publications, d.target = c.target ∧ d.item.md5 = c.item.md5 ∧
    ∃ message : d.item.α, d.item.publisher.type.pack message = .ok payload) ∨
  (c.target = Record.topic ∧ Record.type.md5 = c.item.md5 ∧
    ∃ record : Record, Record.type.pack record = .ok payload)

theorem Ledger.Sends.mono {l l' : Ledger ε} {c : Grant (Intake ε)} {payload : Bytes}
    (h : l.Sends c payload) (hsub : ∀ d ∈ l.publications, d ∈ l'.publications) :
    l'.Sends c payload := by
  rcases h with ⟨d, hd, hrest⟩ | hlog
  · exact .inl ⟨d, hsub d hd, hrest⟩
  · exact .inr hlog

/-- Dropping handles makes no topics, and changes the sum of none. -/
theorem exists_of_mem_topics_drop {g : Graph ε} {handle : Handle} {t' : Topic}
    (h : t' ∈ (g.drop handle).topics) : ∃ t ∈ g.topics, t.name = t'.name ∧ t.md5 = t'.md5 := by
  have hmem : t'.label ∈ g.labels := (g.labels_drop handle).subset (List.mem_map_of_mem h)
  obtain ⟨t, ht, hlabel⟩ := List.mem_map.mp hmem
  unfold Topic.label at hlabel
  rw [Prod.mk.injEq, Prod.mk.injEq] at hlabel
  exact ⟨t, ht, hlabel.1, hlabel.2.2⟩

namespace Audit

variable {a b : Audit ε}

/-- All that has to do with types, in one state. -/
structure Typed (a : Audit ε) : Prop where
  subscriptions : Agrees a.graph.topics a.ledger a.ledger.subscriptions Intake.md5
  publications : Agrees a.graph.topics a.ledger a.ledger.publications Outlet.md5
  sends : ∀ c ∈ a.ledger.subscriptions, ∀ payload ∈ c.item.payloads, a.ledger.Sends c payload

/-- An open grant keeps its topic in being. -/
theorem exists_topic_of_subscription (hs : Sound a) {c : Grant (Intake ε)}
    (hc : c ∈ a.ledger.subscriptions) (hopen : a.ledger.isOpen c = true) :
    ∃ t ∈ a.graph.topics, t.name = c.target := by
  refine (hs.exact.topics.exists_iff c.target).mpr (.inl ?_)
  exact List.ne_nil_of_mem (Ledger.mem_members.mpr ⟨c, hc, hopen, rfl, rfl⟩)

theorem exists_topic_of_publication (hs : Sound a) {c : Grant Outlet}
    (hc : c ∈ a.ledger.publications) (hopen : a.ledger.isOpen c = true) :
    ∃ t ∈ a.graph.topics, t.name = c.target := by
  refine (hs.exact.topics.exists_iff c.target).mpr (.inr ?_)
  exact List.ne_nil_of_mem (Ledger.mem_members.mpr ⟨c, hc, hopen, rfl, rfl⟩)

/-- A publisher that is held and whose node is alive has an open grant. -/
theorem isOpen_of_alive (hs : Sound a) {c : Grant Outlet} (hc : c ∈ a.ledger.publications)
    (held : c.id ∉ a.ledger.dropped)
    (halive : a.graph.isAlive c.item.publisher.node = true) : a.ledger.isOpen c = true := by
  obtain ⟨n, hn, hid⟩ := hs.isAlive_iff.mp halive
  have hid : n.id = c.node.id := hid.trans (hs.coherent.publication c hc).2.1
  exact Ledger.isOpen_iff.mpr ⟨held, hid ▸ (Ledger.mem_live.mp hn).2⟩

/-- Whatever goes out on a topic has the topic's sum. -/
theorem sends_of_vouched (hs : Sound a) (h : Typed a) {t : Topic} (ht : t ∈ a.graph.topics)
    {letter : Letter} (hname : t.name = letter.topic) (hv : a.Vouched t letter)
    {c : Grant (Intake ε)} (hc : c ∈ a.ledger.subscriptions) (hopen : a.ledger.isOpen c = true)
    (htarget : c.target = letter.topic) : a.ledger.Sends c letter.payload := by
  have hwants : c.item.md5 = t.md5 :=
    h.subscriptions t ht c hc hopen (htarget.trans hname.symm)
  cases hv with
  | sent d hd held halive message payload hpack =>
    -- the publisher's own grant has kept the topic, and so its sum
    have hdopen := isOpen_of_alive hs hd held halive
    have hdtarget : d.target = d.item.publisher.topic :=
      (hs.coherent.publication d hd).2.2.symm
    have hwrites : d.item.md5 = t.md5 :=
      h.publications t ht d hd hdopen (hdtarget.trans hname.symm)
    exact .inl ⟨d, hd, hdtarget.trans htarget.symm, hwrites.trans hwants.symm, message, hpack⟩
  | logged record payload hpack hsum =>
    exact .inr ⟨htarget, hsum.symm.trans hwants.symm, record, hpack⟩

theorem typed_subscribe (hs : Sound a) (h : Typed a) {c : Grant (Intake ε)} {base : List Topic}
    {t : Topic} (hnew : c.item.window = [])
    (hbase : Ensured a.graph.topics c.target c.item.type.md5 base t) {g : Graph ε}
    (hg : g.topics = base.map (changeTopic c.target (·.addSubscriber c.member))) :
    Typed ⟨g, a.ledger.subscribe c⟩ := by
  have hsubs : Agrees base a.ledger (a.ledger.subscriptions ++ [c]) Intake.md5 :=
    (h.subscriptions.ensured hbase fun d => exists_topic_of_subscription hs).append
      fun s => hbase.md5_eq hs.exact.topics.names
  have hpubs : Agrees base a.ledger a.ledger.publications Outlet.md5 :=
    h.publications.ensured hbase fun d => exists_topic_of_publication hs
  refine ⟨?_, ?_, ?_⟩
  · show Agrees g.topics _ _ _
    rw [hg]
    exact hsubs.changed (fun _ => rfl) fun _ => rfl
  · show Agrees g.topics _ _ _
    rw [hg]
    exact hpubs.changed (fun _ => rfl) fun _ => rfl
  · intro d hd payload hp
    rcases List.mem_append.mp hd with hold | hfresh
    · exact h.sends d hold payload hp
    · rw [List.mem_singleton.mp hfresh, Intake.payloads, hnew] at hp
      exact absurd hp List.not_mem_nil

theorem typed_publish (hs : Sound a) (h : Typed a) {c : Grant Outlet} {base : List Topic}
    {t : Topic} (hbase : Ensured a.graph.topics c.target c.item.publisher.type.md5 base t)
    {g : Graph ε} (hg : g.topics = base.map (changeTopic c.target (·.addPublisher c.member))) :
    Typed ⟨g, a.ledger.publish c⟩ := by
  have hsubs : Agrees base a.ledger a.ledger.subscriptions Intake.md5 :=
    h.subscriptions.ensured hbase fun d => exists_topic_of_subscription hs
  have hpubs : Agrees base a.ledger (a.ledger.publications ++ [c]) Outlet.md5 :=
    (h.publications.ensured hbase fun d => exists_topic_of_publication hs).append
      fun s => hbase.md5_eq hs.exact.topics.names
  refine ⟨?_, ?_, ?_⟩
  · show Agrees g.topics _ _ _
    rw [hg]
    exact hsubs.changed (fun _ => rfl) fun _ => rfl
  · show Agrees g.topics _ _ _
    rw [hg]
    exact hpubs.changed (fun _ => rfl) fun _ => rfl
  · intro d hd payload hp
    exact (h.sends d hd payload hp).mono fun e he => List.mem_append_left _ he

theorem typed_post (hs : Sound a) (h : Typed a) {letter : Letter} {t : Topic}
    (ht : a.graph.topic? letter.topic = some t) (hv : a.Vouched t letter) :
    Typed ⟨a.graph.fanOut t letter.payload, a.ledger.post letter⟩ := by
  obtain ⟨hmem, hname⟩ := mem_of_find?_topic ht
  refine ⟨?_, h.publications, ?_⟩
  · refine h.subscriptions.update _ fun c s => ?_
    split <;> rfl
  · intro d hd payload hp
    obtain ⟨c, hc, rfl⟩ := List.mem_map.mp hd
    by_cases hon : a.ledger.isOpen c = true ∧ c.target = letter.topic
    · simp only [if_pos hon] at hp ⊢
      have hp : payload ∈ (c.item.window ++ [letter]).map Letter.payload := hp
      rw [List.map_append] at hp
      rcases List.mem_append.mp hp with hold | hlast
      · exact h.sends c hc payload hold
      · rw [List.mem_singleton.mp hlast]
        have hsends := sends_of_vouched hs h hmem hname hv hc hon.1 hon.2
        exact hsends
    · simp only [if_neg hon] at hp ⊢
      exact h.sends c hc payload hp

theorem typed_drop (h : Typed a) (handle : Handle) {l' : Ledger ε}
    (hsubs : l'.subscriptions = a.ledger.subscriptions)
    (hpubs : l'.publications = a.ledger.publications)
    (hsubsOpen : ∀ c : Grant (Intake ε), l'.isOpen c = true → a.ledger.isOpen c = true)
    (hpubsOpen : ∀ c : Grant Outlet, l'.isOpen c = true → a.ledger.isOpen c = true) :
    Typed ⟨a.graph.drop handle, l'⟩ := by
  refine ⟨?_, ?_, ?_⟩
  · show Agrees _ l' l'.subscriptions _
    rw [hsubs]
    exact h.subscriptions.mono (fun _ => exists_of_mem_topics_drop) fun c _ => hsubsOpen c
  · show Agrees _ l' l'.publications _
    rw [hpubs]
    exact h.publications.mono (fun _ => exists_of_mem_topics_drop) fun c _ => hpubsOpen c
  · intro c hc payload hp
    have hc : c ∈ a.ledger.subscriptions := hsubs ▸ hc
    exact (h.sends c hc payload hp).mono fun d hd => hpubs ▸ hd

theorem typed_beat (hb : Beat a b) (hs : Sound a) (h : Typed a) : Typed b := by
  cases hb with
  | journal => exact ⟨h.subscriptions, h.publications, h.sends⟩
  | skip => exact ⟨h.subscriptions, h.publications, h.sends⟩
  | enter => exact ⟨h.subscriptions, h.publications, h.sends⟩
  | subscribe c base t _ _ hnew hbase => exact typed_subscribe hs h hnew.1 hbase rfl
  | publish c base t _ _ _ _ hbase => exact typed_publish hs h hbase rfl
  | offer => exact ⟨h.subscriptions, h.publications, h.sends⟩
  | post letter t ht hv => exact typed_post hs h ht hv
  | drop r _ =>
    exact typed_drop h (.registration r) rfl rfl (fun _ => Ledger.isOpen_of_drop)
      fun _ => Ledger.isOpen_of_drop
  | shutDown node _ =>
    exact typed_drop h (.node node) rfl rfl (fun _ => Ledger.isOpen_of_shutDown)
      fun _ => Ledger.isOpen_of_shutDown
  | turn feed hfeed next hnext =>
    -- a thread moves payloads, but leaves the type and what went out
    have htype : ∀ s : Intake ε, (s.advance feed).md5 = s.md5 ∧
        (s.advance feed).payloads = s.payloads := by
      intro s
      unfold Intake.advance
      split <;> exact ⟨rfl, rfl⟩
    refine ⟨?_, h.publications, ?_⟩
    · refine h.subscriptions.update _ fun c s => ?_
      split
      · exact (htype s).1
      · rfl
    · intro d hd payload hp
      obtain ⟨c, hc, rfl⟩ := List.mem_map.mp hd
      by_cases hon : c.id = feed.id
      · simp only [if_pos hon] at hp ⊢
        have hp : payload ∈ (c.item.advance feed).payloads := hp
        rw [(htype c.item).2] at hp
        have hsends := h.sends c hc payload hp
        unfold Ledger.Sends at hsends ⊢
        rw [Grant.update_item, (htype c.item).1]
        exact hsends
      · simp only [if_neg hon] at hp ⊢
        exact h.sends c hc payload hp

theorem typed_start : Typed ({} : Audit ε) :=
  ⟨by simp [Agrees], by simp [Agrees], by simp⟩

theorem Reachable.typed (h : Reachable a) : Typed a :=
  Steps.preserve_sound h sound_start typed_beat typed_start

/-- **A topic carries one type.** In every reachable state those who subscribe to
a topic, and those who publish on it, were granted that for the sum which the
topic stores. All that ever went into the queue of a subscription, dropped or not,
was written with the sum that it was granted for. -/
theorem topics_typed (h : Reachable a) :
    (∀ t ∈ a.graph.topics,
      (∀ m ∈ t.subscribers, ∃ c ∈ a.ledger.subscriptions,
        c.member = m ∧ c.target = t.name ∧ c.item.md5 = t.md5) ∧
      ∀ m ∈ t.publishers, ∃ c ∈ a.ledger.publications,
        c.member = m ∧ c.target = t.name ∧ c.item.md5 = t.md5) ∧
    ∀ c ∈ a.ledger.subscriptions,
      (∀ payload ∈ c.item.payloads, a.ledger.Sends c payload) ∧
      ∀ f ∈ a.graph.feeds, f.id = c.id →
        ∀ payload ∈ c.item.taken ++ f.pending, a.ledger.Sends c payload := by
  have hs := h.sound
  have htyped := h.typed
  refine ⟨?_, ?_⟩
  · intro t ht
    refine ⟨?_, ?_⟩
    · intro m hm
      rw [hs.exact.topics.subscribers t ht] at hm
      obtain ⟨c, hc, hopen, htarget, hmember⟩ := Ledger.mem_members.mp hm
      exact ⟨c, hc, hmember, htarget, htyped.subscriptions t ht c hc hopen htarget⟩
    · intro m hm
      rw [hs.exact.topics.publishers t ht] at hm
      obtain ⟨c, hc, hopen, htarget, hmember⟩ := Ledger.mem_members.mp hm
      exact ⟨c, hc, hmember, htarget, htyped.publications t ht c hc hopen htarget⟩
  · intro c hc
    refine ⟨htyped.sends c hc, ?_⟩
    intro f hf hid payload hp
    obtain ⟨places, hkept⟩ := (h.fed.serves c hc f hf hid).kept
    exact htyped.sends c hc payload (hkept.mem_sent hp)

/-- After the succession somebody goes on with what is left of the old node: its
publisher of texts and its logger. Then the new publisher sends a pair. -/
def haunting : Audit String :=
  let a := succession.send (⟨3, 1, "/t", Text.type⟩ : Publisher Text) ⟨"x"⟩
  let a := a.log ⟨1, "/a"⟩ (.info "x")
  a.send (⟨7, 5, "/t", Addition.Pair.type⟩ : Publisher Addition.Pair) ⟨⟩

theorem haunting_reachable : Reachable haunting := by
  unfold haunting
  refine .tail (.tail (.tail succession_reachable
    (.operation (.send _
      ⟨⟨1, "/a"⟩, "t", .publisher "/t" 3, ⟨⟨3, 1, "/t", Text.type⟩⟩⟩ ⟨"x"⟩ ?_ ?_)))
    (.operation (.log _ ⟨1, "/a"⟩ (.info "x"))))
    (.operation (.send _
      ⟨⟨5, "/a"⟩, "t", .publisher "/t" 7, ⟨⟨7, 5, "/t", Addition.Pair.type⟩⟩⟩ ⟨⟩ ?_ ?_))
  · exact .head _
  · decide
  · exact .tail _ (.head _)
  · decide

/-- Only the pair has reached the new subscription. -/
theorem topics_typed_haunting :
    Reachable haunting ∧ haunting.ledger.subscriptions.map (fun c => c.item.payloads.length) =
      [0, 1] ∧
    ∀ c ∈ haunting.ledger.subscriptions, ∀ payload ∈ c.item.payloads,
      haunting.ledger.Sends c payload :=
  ⟨haunting_reachable, by decide +kernel,
    fun c hc => ((topics_typed haunting_reachable).2 c hc).1⟩

end Audit

end NodeGraph
