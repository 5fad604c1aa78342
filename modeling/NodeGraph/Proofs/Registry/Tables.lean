import NodeGraph.Proofs.Audit.Numbers

/-!
# The topics of a graph are the ledger's

A topic comes with its first member and goes with its last. `Tabled` states this
against the ledger:

> topics have distinct names, each lists exactly the open grants on it in the
> order they were given, and there is a topic of a name exactly if there is an
> open grant on it.

A table changes in two ways. `Tabled.enroll` is for a new member, for whom the
topic may have to be made first; `Tabled.shrink` is for members that go, after
which unused topics are taken out. Both are stated for any change of topics that
does to each list of members what the ledger does to its own, so that publishers
and subscriptions, drops and shutdowns are all instances.
-/

namespace NodeGraph

variable {ε : Type}

/-- Whether anybody should be on a topic. -/
def Ledger.Uses (l : Ledger ε) (name : String) : Prop :=
  l.subscribersOf name ≠ [] ∨ l.publishersOf name ≠ []

/-- The topics are those in use, each with its members. -/
structure Tabled (topics : List Topic) (l : Ledger ε) : Prop where
  names : (topics.map Topic.name).Nodup
  subscribers : ∀ t ∈ topics, t.subscribers = l.subscribersOf t.name
  publishers : ∀ t ∈ topics, t.publishers = l.publishersOf t.name
  exists_iff : ∀ name, (∃ t ∈ topics, t.name = name) ↔ l.Uses name

theorem Topic.isUsed_iff {t : Topic} :
    t.isUsed = true ↔ t.subscribers ≠ [] ∨ t.publishers ≠ [] := by
  unfold isUsed
  rw [Bool.not_eq_true', Bool.and_eq_false_iff, List.isEmpty_eq_false_iff,
    List.isEmpty_eq_false_iff]
  exact Or.comm

@[simp] theorem changeTopic_name {name : String} {change : Topic → Topic}
    (h : ∀ t, (change t).name = t.name) (t : Topic) :
    (changeTopic name change t).name = t.name := by
  unfold changeTopic
  split
  · exact h t
  · rfl

/-- A topic that is found is there, under that name. -/
theorem mem_of_find?_topic {topics : List Topic} {name : String} {t : Topic}
    (h : topics.find? (·.name = name) = some t) : t ∈ topics ∧ t.name = name :=
  ⟨List.mem_of_find?_eq_some h, by simpa using List.find?_some h⟩

/-- Making sure of a topic adds at most a blank one, under the name in
question. -/
theorem Ensured.mem_base {topics base : List Topic} {name md5 : String} {t : Topic}
    (h : Ensured topics name md5 base t) :
    t ∈ base ∧ t.name = name ∧ t.md5 = md5 ∧ ∀ s ∈ base, s ∈ topics ∨
      (s = t ∧ s.subscribers = [] ∧ s.publishers = [] ∧ ∀ r ∈ topics, r.name ≠ name) := by
  cases h with
  | found t ht hsum =>
    obtain ⟨hmem, hname⟩ := mem_of_find?_topic ht
    exact ⟨hmem, hname, hsum, fun s hs => .inl hs⟩
  | made typeName hnone =>
    refine ⟨List.mem_append_right _ (List.mem_singleton_self _), rfl, rfl, fun s hs => ?_⟩
    rcases List.mem_append.mp hs with hold | hnew
    · exact .inl hold
    · rw [List.mem_singleton.mp hnew]
      refine .inr ⟨rfl, rfl, rfl, fun r hr he => ?_⟩
      have := List.find?_eq_none.mp hnone r hr
      exact this (decide_eq_true he)

theorem Ensured.subset_base {topics base : List Topic} {name md5 : String} {t s : Topic}
    (h : Ensured topics name md5 base t) (hs : s ∈ topics) : s ∈ base := by
  cases h with
  | found => exact hs
  | made => exact List.mem_append_left _ hs

theorem Ensured.names_base {topics base : List Topic} {name md5 : String} {t : Topic}
    (h : Ensured topics name md5 base t) (hnames : (topics.map Topic.name).Nodup) :
    (base.map Topic.name).Nodup := by
  cases h with
  | found => exact hnames
  | made typeName hnone =>
    rw [List.map_append, List.nodup_append]
    refine ⟨hnames, List.nodup_singleton _, ?_⟩
    intro n hn m hm hnm
    obtain ⟨s, hs, hsn⟩ := List.mem_map.mp hn
    have hne := List.find?_eq_none.mp hnone s hs
    exact hne (decide_eq_true ((hsn.trans hnm).trans (List.mem_singleton.mp hm)))

namespace Tabled

variable {topics base : List Topic} {l l' : Ledger ε}

/-- Every topic that is there is in use. -/
theorem isUsed (h : Tabled topics l) {t : Topic} (ht : t ∈ topics) : t.isUsed = true := by
  rw [Topic.isUsed_iff, h.subscribers t ht, h.publishers t ht]
  exact (h.exists_iff t.name).mp ⟨t, ht, rfl⟩

/-- The table stays right as long as members stay the same. -/
theorem congr (h : Tabled topics l)
    (hs : ∀ name, l'.subscribersOf name = l.subscribersOf name)
    (hp : ∀ name, l'.publishersOf name = l.publishersOf name) : Tabled topics l' := by
  refine ⟨h.names, ?_, ?_, ?_⟩
  · intro t ht
    rw [hs]
    exact h.subscribers t ht
  · intro t ht
    rw [hp]
    exact h.publishers t ht
  · intro name
    unfold Ledger.Uses
    rw [hs, hp]
    exact h.exists_iff name

/-- A topic that is made sure of has the members that the ledger gives it, none
if it is new. -/
theorem members_base (h : Tabled topics l) {name md5 : String} {t : Topic}
    (hb : Ensured topics name md5 base t) {s : Topic} (hs : s ∈ base) :
    s.subscribers = l.subscribersOf s.name ∧ s.publishers = l.publishersOf s.name := by
  obtain ⟨-, hname, -, hfrom⟩ := hb.mem_base
  rcases hfrom s hs with hold | ⟨rfl, hsub, hpub, hnone⟩
  · exact ⟨h.subscribers s hold, h.publishers s hold⟩
  · -- a name without a topic has no members either
    have hunused : ¬ l.Uses s.name := by
      intro huses
      obtain ⟨r, hr, hrn⟩ := (h.exists_iff s.name).mpr huses
      exact hnone r hr (hrn.trans hname)
    unfold Ledger.Uses at hunused
    rw [not_or, not_not, not_not] at hunused
    exact ⟨hsub.trans hunused.1.symm, hpub.trans hunused.2.symm⟩

/-- Whether a name has a topic does not depend on what is changed about it. -/
private theorem exists_map_iff {topics : List Topic} {F : Topic → Topic}
    (hname : ∀ t, (F t).name = t.name) (n : String) :
    (∃ s ∈ topics.map F, s.name = n) ↔ ∃ t ∈ topics, t.name = n := by
  constructor
  · intro hex
    obtain ⟨s, hs, rfl⟩ := hex
    obtain ⟨t, ht, rfl⟩ := List.mem_map.mp hs
    exact ⟨t, ht, (hname t).symm⟩
  · intro hex
    obtain ⟨t, ht, rfl⟩ := hex
    exact ⟨F t, List.mem_map_of_mem ht, hname t⟩

private theorem names_map {topics : List Topic} {F : Topic → Topic}
    (hname : ∀ t, (F t).name = t.name) :
    (topics.map F).map Topic.name = topics.map Topic.name := by
  rw [List.map_map]
  exact List.map_congr_left fun t _ => hname t

/-- A member more on `name`, entered by `change` into the topic that has been
made sure of. -/
theorem enroll (h : Tabled topics l) {name md5 : String} {t : Topic}
    (hb : Ensured topics name md5 base t) {change : Topic → Topic}
    (hname : ∀ t, (change t).name = t.name)
    (hs : ∀ s, s.subscribers = l.subscribersOf s.name →
      (changeTopic name change s).subscribers = l'.subscribersOf s.name)
    (hp : ∀ s, s.publishers = l.publishersOf s.name →
      (changeTopic name change s).publishers = l'.publishersOf s.name)
    (huses : ∀ n, l'.Uses n ↔ l.Uses n ∨ n = name) :
    Tabled (base.map (changeTopic name change)) l' := by
  have hname' : ∀ s, (changeTopic name change s).name = s.name := changeTopic_name hname
  obtain ⟨htb, htn, -, hfrom⟩ := hb.mem_base
  refine ⟨?_, ?_, ?_, ?_⟩
  · rw [names_map hname']
    exact hb.names_base h.names
  · intro s' hs'
    obtain ⟨s, hsb, rfl⟩ := List.mem_map.mp hs'
    rw [hname']
    exact hs s (h.members_base hb hsb).1
  · intro s' hs'
    obtain ⟨s, hsb, rfl⟩ := List.mem_map.mp hs'
    rw [hname']
    exact hp s (h.members_base hb hsb).2
  · intro n
    rw [exists_map_iff hname', huses, ← h.exists_iff]
    constructor
    · intro hex
      obtain ⟨s, hsb, hsn⟩ := hex
      rcases hfrom s hsb with hold | ⟨rfl, -⟩
      · exact .inl ⟨s, hold, hsn⟩
      · exact .inr (hsn.symm.trans htn)
    · intro hor
      rcases hor with ⟨s, hold, hsn⟩ | rfl
      · exact ⟨s, hb.subset_base hold, hsn⟩
      · exact ⟨t, htb, htn⟩

/-- Members that go, taken out by `F`, after which `keep` leaves the topics that
are still in use. -/
theorem shrink (h : Tabled topics l) {F : Topic → Topic} {keep : Topic → Bool}
    (hname : ∀ t, (F t).name = t.name)
    (hs : ∀ t ∈ topics, (F t).subscribers = l'.subscribersOf t.name)
    (hp : ∀ t ∈ topics, (F t).publishers = l'.publishersOf t.name)
    (hkeep : ∀ t ∈ topics, keep (F t) = (F t).isUsed) (hmono : ∀ n, l'.Uses n → l.Uses n) :
    Tabled ((topics.map F).filter keep) l' := by
  have hused : ∀ t ∈ topics, keep (F t) = true ↔ l'.Uses t.name := by
    intro t ht
    rw [hkeep t ht, Topic.isUsed_iff, hs t ht, hp t ht]
    rfl
  refine ⟨?_, ?_, ?_, ?_⟩
  · refine List.Nodup.sublist (List.Sublist.map _ List.filter_sublist) ?_
    rw [names_map hname]
    exact h.names
  · intro s hsf
    obtain ⟨t, ht, rfl⟩ := List.mem_map.mp (List.mem_filter.mp hsf).1
    rw [hname]
    exact hs t ht
  · intro s hsf
    obtain ⟨t, ht, rfl⟩ := List.mem_map.mp (List.mem_filter.mp hsf).1
    rw [hname]
    exact hp t ht
  · intro n
    constructor
    · intro hex
      obtain ⟨s, hsf, rfl⟩ := hex
      obtain ⟨hmap, hk⟩ := List.mem_filter.mp hsf
      obtain ⟨t, ht, rfl⟩ := List.mem_map.mp hmap
      rw [hname]
      exact (hused t ht).mp hk
    · intro huses
      obtain ⟨t, ht, rfl⟩ := (h.exists_iff n).mpr (hmono n huses)
      exact ⟨F t, List.mem_filter.mpr ⟨List.mem_map_of_mem ht, (hused t ht).mpr huses⟩,
        hname t⟩

end Tabled

/-! ## Labels -/

/-- What a topic is known by: its name, and the name and sum of the type it carries. -/
def Topic.label (t : Topic) : String × String × String := (t.name, t.typeName, t.md5)

namespace Graph

/-- The labels of all topics. -/
def labels (g : Graph ε) : List (String × String × String) := g.topics.map Topic.label

/-- Members come and go without a topic's label. -/
theorem labels_modifyTopic (g : Graph ε) (name : String) (change : Topic → Topic)
    (h : ∀ t, (change t).label = t.label) : (g.modifyTopic name change).labels = g.labels := by
  show (g.topics.map fun t => if t.name = name then change t else t).map Topic.label = _
  rw [List.map_map]
  apply List.map_congr_left
  intro t _
  simp only [Function.comp_apply]
  split
  · exact h t
  · rfl

/-- Dropping takes labels out and adds none. -/
theorem labels_drop (g : Graph ε) (handle : Handle) :
    (g.drop handle).labels.Sublist g.labels := by
  have hfilter : ∀ (topics : List Topic) (keep : Topic → Bool),
      ((topics.filter keep).map Topic.label).Sublist (topics.map Topic.label) :=
    fun topics keep => List.filter_sublist.map _
  rcases handle with node | logger | registration
  · refine (hfilter (g.topics.map (Topic.withoutNode · node.id)) _).trans ?_
    rw [List.map_map]
    exact List.Sublist.refl _
  · exact List.Sublist.refl _
  · rcases registration with ⟨topic, id⟩ | ⟨topic, id⟩ | ⟨name, id⟩
    · refine (hfilter (g.modifyTopic topic (·.withoutSubscriber id)).topics _).trans ?_
      have hkept := g.labels_modifyTopic topic (·.withoutSubscriber id) fun _ => rfl
      exact hkept ▸ List.Sublist.refl _
    · refine (hfilter (g.modifyTopic topic (·.withoutPublisher id)).topics _).trans ?_
      have hkept := g.labels_modifyTopic topic (·.withoutPublisher id) fun _ => rfl
      exact hkept ▸ List.Sublist.refl _
    · exact List.Sublist.refl _

end Graph

end NodeGraph
