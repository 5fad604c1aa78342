import NodeGraph.Proofs.Delivery.Feeds

/-!
# Queues that have room

A queue evicts what does not fit. As long as all that arrives fits, whatever has gone
out to a subscription has been taken off its queue or still waits in it.

> `Goes`: a beat leaves a subscription with its feed as they are, brings one letter to
> both, or is a step of the thread.
>
> `Prolongs`: what any number of steps make of them. Some letters have arrived, and if
> there was room for them all the queue has lost nothing.

The letters are those that the window of the subscription has gained (`news`). The
queue may have been shorter in between, when its thread had taken something, but never
longer than what it was with all the letters (`Prolongs.length`): so the room there was
at the beginning is enough.
-/

namespace NodeGraph

open Wire (Bytes)

variable {ε : Type}

/-- Whether a queue takes that many payloads more and evicts nothing. -/
def Feed.HasRoom (f : Feed ε) (n : Nat) : Prop :=
  f.queue.capacity = 0 ∨ f.pending.length + n ≤ f.queue.capacity

instance (f : Feed ε) (n : Nat) : Decidable (f.HasRoom n) := inferInstanceAs (Decidable (_ ∨ _))

theorem Feed.HasRoom.mono {f : Feed ε} {m n : Nat} (h : f.HasRoom n) (hle : m ≤ n) :
    f.HasRoom m := h.imp_right fun hn => by omega

/-- What a queue holds that had room for one payload more. -/
theorem Feed.pending_push {f : Feed ε} (h : f.HasRoom 1) (payload : Bytes) :
    (f.push payload).pending = f.pending ++ [payload] := by
  show (f.queue.send payload).items = f.queue.items ++ [payload]
  rw [Lossy.items_send]
  split
  next => rfl
  next hlimit =>
    have hfits : f.queue.items.length + 1 ≤ f.queue.capacity := h.resolve_left hlimit
    rw [Nat.sub_eq_zero_of_le hfits, List.drop_zero]

theorem Feed.length_push (f : Feed ε) (payload : Bytes) :
    (f.push payload).pending.length ≤ f.pending.length + 1 := by
  show (f.queue.send payload).items.length ≤ f.queue.items.length + 1
  rw [Lossy.items_send]
  split
  · rw [List.length_append]
    exact Nat.le_refl _
  · rw [List.length_drop, List.length_append]
    exact Nat.sub_le _ _

/-! ## One beat -/

/-- What a beat makes of a subscription and its feed. -/
inductive Goes (c : Grant (Intake ε)) (f : Feed ε) : Grant (Intake ε) → Feed ε → Prop where
  | still (f' : Feed ε) (hcapacity : f'.queue.capacity = f.queue.capacity)
    (hpending : f'.pending = f.pending) : Goes c f c f'
  | arrive (letter : Letter) : Goes c f (c.update (·.witness letter)) (f.push letter.payload)
  | advance (next : Feed ε) (hnext : f.advance? = some next) :
    Goes c f (c.update (·.advance f)) next

namespace Audit

variable {a b : Audit ε} {c : Grant (Intake ε)} {f : Feed ε}

theorem goes_drop (hc : c ∈ a.ledger.subscriptions) (hf : f ∈ a.graph.feeds) (hid : f.id = c.id)
    (handle : Handle) {l' : Ledger ε} (hgrants : l'.subscriptions = a.ledger.subscriptions) :
    ∃ c' ∈ l'.subscriptions, ∃ f' ∈ (a.graph.drop handle).feeds, f'.id = c'.id ∧
      Goes c f c' f' := by
  refine ⟨c, hgrants ▸ hc, if f.id ∈ a.graph.closes handle then f.close else f, ?_, ?_,
    .still _ ?_ ?_⟩
  · rw [feeds_drop]
    exact List.mem_map_of_mem hf
  · split <;> exact hid
  · split <;> rfl
  · split <;> rfl

theorem goes_beat (hb : Beat a b) (hs : Sound a) (hfed : Fed a)
    (hc : c ∈ a.ledger.subscriptions) (hf : f ∈ a.graph.feeds) (hid : f.id = c.id) :
    ∃ c' ∈ b.ledger.subscriptions, ∃ f' ∈ b.graph.feeds, f'.id = c'.id ∧ Goes c f c' f' := by
  cases hb with
  | subscribe =>
    exact ⟨c, List.mem_append_left _ hc, f, List.mem_append_left _ hf, hid, .still f rfl rfl⟩
  | post letter t ht _ =>
    obtain ⟨hmem, hname⟩ := mem_of_find?_topic ht
    have hiff := mem_subscribers_iff hs hmem hc
    rw [← hid, hname] at hiff
    refine ⟨_, List.mem_map_of_mem hc, _, List.mem_map_of_mem hf, ?_, ?_⟩
    · split <;> exact hid
    · -- the topic lists the subscription exactly if the ledger lets it see the letter
      by_cases hon : f.id ∈ t.subscribers.map Member.id
      · simp only [if_pos hon, if_pos (hiff.mp hon)]
        exact .arrive letter
      · simp only [if_neg hon, if_neg fun hopen => hon (hiff.mpr hopen)]
        exact .still f rfl rfl
  | drop r _ => exact goes_drop hc hf hid (.registration r) rfl
  | shutDown node _ => exact goes_drop hc hf hid (.node node) rfl
  | turn feed hfeed next hnext =>
    refine ⟨_, List.mem_map_of_mem hc, _, List.mem_map_of_mem hf, ?_, ?_⟩
    · split
      next he => exact (Feed.id_of_advance? hnext).trans (he.symm.trans hid)
      next => exact hid
    · rw [← hid]
      by_cases he : f.id = feed.id
      · have hsame := hfed.feed_inj hs hf hfeed he
        subst hsame
        simp only [if_true]
        exact .advance next hnext
      · simp only [if_neg he]
        exact .still f rfl rfl
  | _ => exact ⟨c, hc, f, hf, hid, .still f rfl rfl⟩

end Audit

/-! ## Any number of steps -/

/-- A subscription to which more has gone out. -/
def Grant.later (c : Grant (Intake ε)) (more : List Letter) (taken : List Bytes)
    (heard : List ε) : Grant (Intake ε) :=
  { c with item := { c.item with window := c.item.window ++ more, taken, heard } }

theorem Grant.later_nil (c : Grant (Intake ε)) (taken : List Bytes) (heard : List ε) :
    c.later [] taken heard = { c with item := { c.item with taken, heard } } := by
  unfold later
  rw [List.append_nil]

theorem Grant.later_later (c : Grant (Intake ε)) (more more' : List Letter)
    (taken taken' : List Bytes) (heard heard' : List ε) :
    (c.later more taken heard).later more' taken' heard' =
      c.later (more ++ more') taken' heard' := by
  unfold later
  rw [List.append_assoc]

/-- What has become of a subscription and its feed since `more` has gone out to it. -/
structure Prolongs (c : Grant (Intake ε)) (f : Feed ε) (more : List Letter)
    (c' : Grant (Intake ε)) (f' : Feed ε) : Prop where
  /-- All but the story of the queue is as it was. -/
  grant : ∃ taken heard, c' = c.later more taken heard
  capacity : f'.queue.capacity = f.queue.capacity
  length : f'.pending.length ≤ f.pending.length + more.length
  whole : f.HasRoom more.length →
    c'.item.taken ++ f'.pending = c.item.taken ++ f.pending ++ more.map Letter.payload

namespace Prolongs

variable {c c' c'' : Grant (Intake ε)} {f f' f'' : Feed ε} {more more' : List Letter}

theorem refl (c : Grant (Intake ε)) (f : Feed ε) : Prolongs c f [] c f :=
  ⟨⟨c.item.taken, c.item.heard, (c.later_nil ..).symm⟩, rfl, Nat.le_refl _,
    fun _ => (List.append_nil _).symm⟩

theorem trans (h : Prolongs c f more c' f') (h' : Prolongs c' f' more' c'' f'') :
    Prolongs c f (more ++ more') c'' f'' := by
  have hlength := h.length
  have hlength' := h'.length
  refine ⟨?_, h'.capacity.trans h.capacity, ?_, fun hroom => ?_⟩
  · obtain ⟨taken, heard, rfl⟩ := h.grant
    obtain ⟨taken', heard', rfl⟩ := h'.grant
    exact ⟨taken', heard', c.later_later ..⟩
  · rw [List.length_append]
    omega
  · -- what is left of the room once the first letters are there is enough for the others
    unfold Feed.HasRoom at hroom
    rw [List.length_append] at hroom
    have hfirst : f.HasRoom more.length := hroom.imp_right fun hle => by omega
    have hsecond : f'.HasRoom more'.length := by
      unfold Feed.HasRoom
      rw [h.capacity]
      exact hroom.imp_right fun hle => by omega
    rw [h'.whole hsecond, h.whole hfirst, List.map_append, List.append_assoc]

theorem of_goes (h : Goes c f c' f') : ∃ more, Prolongs c f more c' f' := by
  cases h with
  | still f' hcapacity hpending =>
    refine ⟨[], (refl c f).grant, hcapacity, ?_, fun _ => ?_⟩
    · rw [hpending]
      exact Nat.le_refl _
    · rw [hpending]
      exact (List.append_nil _).symm
  | arrive letter =>
    refine ⟨[letter], ⟨c.item.taken, c.item.heard, rfl⟩, Lossy.capacity_send _ _,
      f.length_push _, fun hroom => ?_⟩
    rw [Feed.pending_push hroom, ← List.append_assoc]
    rfl
  | advance next hnext =>
    refine ⟨[], ?_, ?_, (Feed.pending_of_advance? hnext).length_le, fun _ => ?_⟩
    · refine ⟨(c.item.advance f).taken, (c.item.advance f).heard, ?_⟩
      rw [Grant.later_nil]
      unfold Grant.update Intake.advance
      split <;> rfl
    · rcases (Feed.advance?_cases hnext).2 with ⟨_, -, rfl⟩ | ⟨_, _, -, -, rfl⟩ | ⟨-, -, -, rfl⟩
      all_goals rfl
    · -- what is taken off the queue comes behind what was taken before
      rw [List.map_nil, List.append_nil, Grant.update_item]
      unfold Intake.advance
      rcases (Feed.advance?_cases hnext).2 with ⟨payload, hheld, rfl⟩ |
        ⟨payload, rest, hheld, hpending, rfl⟩ | ⟨hheld, hpending, -, rfl⟩
      · rw [hheld]
        rfl
      · rw [hheld, hpending]
        exact List.append_assoc ..
      · rw [hheld]
        show (c.item.taken ++ f.pending.take 1) ++ f.pending = _
        rw [hpending, List.take_nil, List.append_nil]

end Prolongs

/-! ## Letters that have arrived -/

/-- The letters that have gone out to the subscription of a number. -/
def Ledger.windowOf (l : Ledger ε) (id : Nat) : List Letter :=
  match l.subscriptions.find? (·.id = id) with
  | some c => c.item.window
  | none => []

namespace Ledger

variable {l : Ledger ε} {c : Grant (Intake ε)}

theorem windowOf_eq (hids : (l.subscriptions.map Grant.id).Nodup) (hc : c ∈ l.subscriptions) :
    l.windowOf c.id = c.item.window := by
  unfold windowOf
  cases hfind : l.subscriptions.find? (·.id = c.id) with
  | none => exact absurd (decide_eq_true rfl) (List.find?_eq_none.mp hfind c hc)
  | some d =>
    have hid := List.find?_some hfind
    rw [decide_eq_true_iff] at hid
    have hdc : d = c := List.inj_on_of_nodup_map hids (List.mem_of_find?_eq_some hfind) hc hid
    rw [hdc]

/-- A subscription after some letters have gone out: if it is open it has seen those on its
topic. -/
def shown (l : Ledger ε) (letters : List Letter) (c : Grant (Intake ε)) : Grant (Intake ε) :=
  c.later (if l.isOpen c then letters.filter (·.topic = c.target) else [])
    c.item.taken c.item.heard

theorem shown_nil (l : Ledger ε) (c : Grant (Intake ε)) : l.shown [] c = c := by
  unfold shown
  rw [List.filter_nil, ite_self]
  exact c.later_nil ..

theorem shown_cons (l : Ledger ε) (letter : Letter) (letters : List Letter)
    (c : Grant (Intake ε)) :
    (l.post letter).shown letters (l.shown [letter] c) = l.shown (letter :: letters) c := by
  show (l.shown [letter] c).later (if l.isOpen c then letters.filter (·.topic = c.target) else [])
    c.item.taken c.item.heard = _
  unfold shown
  rw [Grant.later_later]
  split
  next => rw [← List.filter_append, List.singleton_append]
  next => rfl

theorem post_eq (l : Ledger ε) (letter : Letter) :
    l.post letter = { l with subscriptions := l.subscriptions.map (l.shown [letter]) } := by
  unfold post
  congr 1
  refine List.map_congr_left fun c _ => ?_
  by_cases hsees : l.isOpen c = true ∧ c.target = letter.topic
  · obtain ⟨hopen, htopic⟩ := hsees
    unfold shown
    rw [if_pos hopen, List.filter_singleton, decide_eq_true htopic.symm]
    simp only [hopen, htopic, and_self, if_true]
    rfl
  · have hnone : (if l.isOpen c then [letter].filter (·.topic = c.target) else []) = [] := by
      split
      next hopen =>
        rw [List.filter_singleton, decide_eq_false fun htopic => hsees ⟨hopen, htopic.symm⟩]
        rfl
      next => rfl
    unfold shown
    rw [hnone]
    simp only [if_neg hsees]
    exact (c.later_nil ..).symm

/-- So any number of letters do nothing but that. -/
theorem posts_eq (letters : List Letter) (l : Ledger ε) :
    letters.foldl post l = { l with subscriptions := l.subscriptions.map (l.shown letters) } := by
  induction letters generalizing l with
  | nil =>
    rw [List.map_congr_left fun c _ => l.shown_nil c, List.map_id']
    rfl
  | cons letter letters ih =>
    have hshown : (l.post letter).subscriptions.map ((l.post letter).shown letters) =
        l.subscriptions.map (l.shown (letter :: letters)) := by
      rw [congrArg subscriptions (l.post_eq letter), List.map_map]
      exact List.map_congr_left fun c _ => l.shown_cons letter letters c
    rw [List.foldl_cons, ih (l.post letter), hshown]
    rfl

/-- What a thread does is no letter. -/
theorem windowOf_turn (l : Ledger ε) (feed : Feed ε) (id : Nat) :
    (l.turn feed).windowOf id = l.windowOf id := by
  have hfind : (l.turn feed).subscriptions.find? (·.id = id) =
      (l.subscriptions.find? (·.id = id)).map fun c =>
        c.update fun s => if c.id = feed.id then s.advance feed else s := List.find?_map
  unfold windowOf
  rw [hfind]
  cases l.subscriptions.find? (·.id = id) with
  | none => rfl
  | some c =>
    show (if c.id = feed.id then c.item.advance feed else c.item).window = c.item.window
    split
    · unfold Intake.advance
      split <;> rfl
    · rfl

end Ledger

namespace Audit

variable {a b : Audit ε} {c : Grant (Intake ε)} {f : Feed ε}

/-- What has gone out to a subscription between two moments. -/
def news (a b : Audit ε) (id : Nat) : List Letter :=
  (b.ledger.windowOf id).drop (a.ledger.windowOf id).length

/-- A queue never holds more than fits. -/
theorem Reachable.hasRoom (ha : Reachable a) (hf : f ∈ a.graph.feeds) : f.HasRoom 0 := by
  have hmem : f.id ∈ a.ledger.subscriptions.map Grant.id := ha.fed.ids ▸ List.mem_map_of_mem hf
  obtain ⟨c, hc, hid⟩ := List.mem_map.mp hmem
  have hserves := ha.fed.serves c hc f hf hid.symm
  obtain ⟨places, hkept⟩ := hserves.kept
  rw [← hserves.capacity] at hkept
  unfold Feed.HasRoom
  exact (Nat.eq_zero_or_pos _).imp_right hkept.short

/-- **Every subscription goes on with what has gone out to it**, and its queue with it. -/
theorem prolongs_steps (ha : Reachable a) (hsteps : Steps a b) (hc : c ∈ a.ledger.subscriptions)
    (hf : f ∈ a.graph.feeds) (hid : f.id = c.id) :
    ∃ c' ∈ b.ledger.subscriptions, ∃ f' ∈ b.graph.feeds, f'.id = c'.id ∧
      Prolongs c f (a.news b c.id) c' f' := by
  obtain ⟨-, c', hc', f', hf', hid', more, hmore⟩ := Steps.preserve_sound
    (P := fun a => Fed a ∧ ∃ c' ∈ a.ledger.subscriptions, ∃ f' ∈ a.graph.feeds, f'.id = c'.id ∧
      ∃ more, Prolongs c f more c' f') hsteps ha.sound
    (fun hb hs ⟨hfed, d, hd, g, hg, hdg, more, hmore⟩ => by
      obtain ⟨d', hd', g', hg', hdg', hgoes⟩ := goes_beat hb hs hfed hd hg hdg
      obtain ⟨more', hmore'⟩ := Prolongs.of_goes hgoes
      exact ⟨fed_beat hb hs hfed, d', hd', g', hg', hdg', _, hmore.trans hmore'⟩)
    ⟨ha.fed, c, hc, f, hf, hid, [], .refl c f⟩
  have hb : Reachable b := ha.trans hsteps
  have hnews : a.news b c.id = more := by
    obtain ⟨taken, heard, rfl⟩ := hmore.grant
    unfold news
    have hafter := Ledger.windowOf_eq (hb.sound.numbered.grants_nodup.1) hc'
    rw [Ledger.windowOf_eq ha.sound.numbered.grants_nodup.1 hc,
      show c.id = (c.later more taken heard).id from rfl, hafter]
    exact List.drop_left
  exact ⟨c', hc', f', hf', hid', hnews ▸ hmore⟩

/-- An open subscription sees the letters on its topic. -/
theorem news_posts (hs : Sound a) (hc : c ∈ a.ledger.subscriptions)
    (hopen : a.ledger.isOpen c = true) {letters : List Letter}
    (hb : b.ledger = letters.foldl Ledger.post a.ledger) :
    a.news b c.id = letters.filter (·.topic = c.target) := by
  have hids := hs.numbered.grants_nodup.1
  have hafter : b.ledger.subscriptions = a.ledger.subscriptions.map (a.ledger.shown letters) :=
    hb ▸ congrArg Ledger.subscriptions (Ledger.posts_eq letters a.ledger)
  have hids' : (b.ledger.subscriptions.map Grant.id).Nodup := by
    rw [hafter, List.map_map]
    exact hids
  have hshown : a.ledger.shown letters c ∈ b.ledger.subscriptions :=
    hafter ▸ List.mem_map_of_mem hc
  have hwindow := Ledger.windowOf_eq hids' hshown
  unfold news
  rw [Ledger.windowOf_eq hids hc, show c.id = (a.ledger.shown letters c).id from rfl, hwindow]
  unfold Ledger.shown
  rw [if_pos hopen]
  exact List.drop_left

end Audit

end NodeGraph
