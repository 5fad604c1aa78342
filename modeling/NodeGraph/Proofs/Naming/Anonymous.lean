import Mathlib.Data.List.Nodup
import Mathlib.Logic.Relation
import NodeGraph.Name.Options
import NodeGraph.Proofs.Registry.Refusal

/-!
# Anonymous names never collide

An anonymous name is made in three steps, and other calls may come between any two of them:
the clock is read, the next stamp is stored in one go, and the name is put together. The
stamp is worked out twice, the second time from what had been stored before. The clock may
show anything. What is stored and what the name will be is what `NodeOptions.resolveName`
gives at the stamp that the atomic step finds (`Caller.resolve`).

> `Kept`: stamps are stored in ascending order, each by one call, and a call that has
> stored its stamp bears it from then on.
>
> `Apart`: so all names that have been given out differ, and still do after they have been
> resolved, by whomever; and nobody who goes by one of them stands in the way of another.

Names differ by their stamps whatever they start with. The digits of a stamp are what comes
after the last underscore (`tail_suffix`), and resolving a name changes its front alone
(`toList_resolve`).
-/

namespace NodeGraph

/-! ## What a name ends with -/

namespace Stamper

/-- What comes after the last underscore of a text. -/
def tail (cs : List Char) : List Char := (cs.reverse.takeWhile (· ≠ '_')).reverse

theorem tail_append {front ds : List Char} (h : '_' ∉ ds) : tail (front ++ '_' :: ds) = ds := by
  have hall : ∀ c ∈ ds.reverse, decide (c ≠ '_') = true := by
    intro c hc
    refine decide_eq_true fun he => h ?_
    rw [← he]
    exact List.mem_reverse.mp hc
  unfold tail
  rw [List.reverse_append, List.reverse_cons, List.append_assoc,
    List.takeWhile_append_of_pos hall, List.reverse_append, List.reverse_reverse]
  rfl

theorem toList_suffix (pid stamp : Nat) :
    (suffix pid stamp).toList =
      ('_' :: Nat.toDigits 10 pid) ++ '_' :: Nat.toDigits 10 stamp := by
  unfold suffix
  rw [String.toList_append, String.toList_append, String.toList_append, Nat.toString_eq_repr,
    Nat.toString_eq_repr, Nat.toList_repr, Nat.toList_repr]
  exact List.append_assoc ('_' :: Nat.toDigits 10 pid) ['_'] _

/-- The stamp of a name can be read off its end. -/
theorem tail_suffix (front : List Char) (pid stamp : Nat) :
    tail (front ++ (suffix pid stamp).toList) = Nat.toDigits 10 stamp := by
  have hdigits : '_' ∉ Nat.toDigits 10 stamp := fun hmem =>
    absurd (Nat.isDigit_of_mem_toDigits (by decide) (by decide) hmem) (by decide)
  rw [toList_suffix, ← List.append_assoc]
  exact tail_append hdigits

/-- Texts that end in different stamps differ. -/
theorem stamp_eq {front front' : List Char} {pid pid' stamp stamp' : Nat}
    (h : front ++ (suffix pid stamp).toList = front' ++ (suffix pid' stamp').toList) :
    stamp = stamp' := by
  have hdigits : Nat.toDigits 10 stamp = Nat.toDigits 10 stamp' := by
    rw [← tail_suffix front pid, h, tail_suffix]
  have hread := congrArg (Nat.ofDigitChars 10 · 0) hdigits
  simpa using hread

/-- Resolving a name that has a suffix leaves the suffix at its end. -/
theorem toList_resolve (node base : String) (pid stamp : Nat) :
    ∃ front, (Name.resolve node (base ++ suffix pid stamp)).toList =
      front ++ (suffix pid stamp).toList := by
  unfold Name.resolve
  split
  next => exact ⟨base.toList, String.toList_append⟩
  next own hown =>
    -- the tilde is not the suffix's
    rw [String.toList_append] at hown
    cases hbase : base.toList with
    | nil =>
      rw [hbase, toList_suffix] at hown
      exact absurd (List.cons.inj hown).1 (by decide)
    | cons c rest =>
      rw [hbase] at hown
      refine ⟨Name.trimSlashes node.toList ++ '/' :: rest, ?_⟩
      rw [String.toList_ofList, ← (List.cons.inj hown).2, List.append_assoc]
      rfl
  next => exact ⟨'/' :: base.toList, by simp⟩

/-- The next stamp in 64 bits, where counting begins anew after the largest number. -/
def followingWord (last now : UInt64) : UInt64 :=
  if (last + 1).toNat ≤ now.toNat then now else last + 1

/-- In 64 bits the next stamp is the same, as long as the last one is not the largest
number there is. -/
theorem toNat_followingWord {last : UInt64} (now : UInt64) (h : last.toNat + 1 < UInt64.size) :
    (followingWord last now).toNat = following last.toNat now.toNat := by
  have hnext : (last + 1).toNat = last.toNat + 1 := by
    rw [UInt64.toNat_add, UInt64.toNat_one]
    exact Nat.mod_eq_of_lt h
  unfold followingWord following
  rw [hnext, Nat.max_def, apply_ite UInt64.toNat, hnext]

end Stamper

namespace Stamper

variable (s : Stamper) (now : Nat) (base : String)

theorem last_anonymous : (s.anonymous now base).2.last = following s.last now := rfl

theorem pid_anonymous : (s.anonymous now base).2.pid = s.pid := rfl

/-- The stamp in the name is the one that has been stored. -/
theorem name_anonymous :
    (s.anonymous now base).1 = base ++ suffix s.pid (s.anonymous now base).2.last := rfl

end Stamper

/-! ## Calls that others come between -/

/-- Where a call for an anonymous name stands. -/
inductive Caller.Stage where
  /-- It has read the clock. -/
  | asked
  /-- It has stored a stamp. What it found before that is all it goes by from now on. -/
  | stamped (found : Stamper)
  /-- It has put the name together. -/
  | named (name : String)
deriving DecidableEq, Repr

/-- A call for the name of an anonymous node. -/
structure Caller where
  options : NodeOptions
  /-- The command line that could say otherwise. -/
  arguments : List String
  /-- What the clock showed. -/
  now : Nat
  stage : Caller.Stage
  anonymous : options.isAnonymous = true
  unnamed : Arguments.valueOf? arguments "__name:=" = none
deriving DecidableEq, Repr

namespace Caller

/-- What comes of the call if its atomic step finds `found`: the name, and what is stored. -/
def resolve (c : Caller) (found : Stamper) : String × Stamper :=
  c.options.resolveName c.arguments found c.now

/-- Options that ask for an anonymous name get one, if no argument says otherwise. -/
theorem resolve_eq (c : Caller) (found : Stamper) :
    c.resolve found = found.anonymous c.now c.options.name := by
  unfold resolve NodeOptions.resolveName
  rw [c.unnamed]
  exact if_pos c.anonymous

theorem last_resolve (c : Caller) (found : Stamper) :
    (c.resolve found).2.last = Stamper.following found.last c.now := by
  rw [c.resolve_eq, Stamper.last_anonymous]

end Caller

/-- All calls of a process for anonymous names. -/
structure Naming where
  stamper : Stamper
  callers : List Caller := []
  /-- Which call stored which stamp, in the order in which they did. -/
  stored : List (Nat × Nat) := []
deriving DecidableEq, Repr

namespace Naming

/-- Somebody asks for a name, and reads the clock. -/
def ask (n : Naming) (c : Caller) : Naming :=
  { n with callers := n.callers ++ [{ c with stage := .asked }] }

/-- A call stores the next stamp. -/
def stamp (n : Naming) (i : Nat) (c : Caller) : Naming where
  stamper := (c.resolve n.stamper).2
  callers := n.callers.set i { c with stage := .stamped n.stamper }
  stored := n.stored ++ [(i, (c.resolve n.stamper).2.last)]

/-- A call puts its name together from what it found. -/
def name (n : Naming) (i : Nat) (c : Caller) (found : Stamper) : Naming :=
  { n with callers := n.callers.set i { c with stage := .named (c.resolve found).1 } }

/-- A step of any call. -/
inductive Step : Naming → Naming → Prop where
  | ask (n : Naming) (c : Caller) : Step n (n.ask c)
  | stamp (n : Naming) (i : Nat) (c : Caller) (h : n.callers[i]? = some c)
    (hstage : c.stage = .asked) : Step n (n.stamp i c)
  | name (n : Naming) (i : Nat) (c : Caller) (found : Stamper) (h : n.callers[i]? = some c)
    (hstage : c.stage = .stamped found) : Step n (n.name i c found)

/-- Any number of steps, one after the other. -/
abbrev Steps : Naming → Naming → Prop := Relation.ReflTransGen Step

/-- The name that a call has given out. -/
def Gives (n : Naming) (i : Nat) (name : String) : Prop :=
  ∃ c, n.callers[i]? = some c ∧ c.stage = .named name

/-- After a call that nobody comes between. -/
def whole (n : Naming) (c : Caller) : Naming where
  stamper := (c.options.resolveName c.arguments n.stamper c.now).2
  callers := n.callers ++
    [{ c with stage := .named (c.options.resolveName c.arguments n.stamper c.now).1 }]
  stored := n.stored ++
    [(n.callers.length, (c.options.resolveName c.arguments n.stamper c.now).2.last)]

/-- A call that nobody comes between gives out what a node gets for its options. -/
theorem steps_whole (n : Naming) (c : Caller) : Steps n (n.whole c) := by
  let i := n.callers.length
  let asked : Caller := { c with stage := .asked }
  let stamped : Caller := { c with stage := .stamped n.stamper }
  have hset : ∀ d e : Caller, (n.callers ++ [d]).set i e = n.callers ++ [e] := by simp [i]
  have hasked : (n.ask c).callers[i]? = some asked := List.getElem?_concat_length
  have hstamped : ((n.ask c).stamp i asked).callers[i]? = some stamped := by
    show ((n.callers ++ [asked]).set i stamped)[i]? = some stamped
    rw [hset]
    exact List.getElem?_concat_length
  have hsteps : Steps n (((n.ask c).stamp i asked).name i stamped n.stamper) :=
    .tail (.tail (.single (.ask n c)) (.stamp _ i asked hasked rfl))
      (.name _ i stamped n.stamper hstamped rfl)
  convert hsteps using 1
  simp only [whole, name, stamp, ask, hset]
  rfl

end Naming

/-! ## What every step keeps -/

/-- The stamp that a call has stored and goes by, before and after it is put into the
name. -/
inductive Caller.Bears (pid : Nat) (c : Caller) (stamp : Nat) : Prop where
  | stamped (found : Stamper) (hpid : found.pid = pid) (hstage : c.stage = .stamped found)
    (hstamp : (c.resolve found).2.last = stamp) : Bears pid c stamp
  | named (found : Stamper) (hpid : found.pid = pid) (hstage : c.stage = .named (c.resolve found).1)
    (hstamp : (c.resolve found).2.last = stamp) : Bears pid c stamp

namespace Naming

/-- What has been stored since the beginning, and who bears it. -/
structure Kept (s : Stamper) (n : Naming) : Prop where
  pid : n.stamper.pid = s.pid
  rising : (s.last :: n.stored.map Prod.snd).Pairwise (· < ·)
  last : ∀ v ∈ s.last :: n.stored.map Prod.snd, v ≤ n.stamper.last
  once : (n.stored.map Prod.fst).Nodup
  asked : ∀ i c, n.callers[i]? = some c → c.stage = .asked → i ∉ n.stored.map Prod.fst
  known : ∀ i ∈ n.stored.map Prod.fst, i < n.callers.length
  bears : ∀ i c, n.callers[i]? = some c → c.stage ≠ .asked →
    ∃ stamp, c.Bears s.pid stamp ∧ (i, stamp) ∈ n.stored ∧ c.now ≤ stamp

variable {s : Stamper} {n n' : Naming} {i j : Nat} {c c' d : Caller}

theorem kept_start (s : Stamper) : Kept s { stamper := s } where
  pid := rfl
  rising := List.pairwise_singleton _ _
  last := fun v hv => Nat.le_of_eq (List.mem_singleton.mp hv)
  once := List.nodup_nil
  asked := fun _ _ _ _ => List.not_mem_nil
  known := fun _ hi => absurd hi List.not_mem_nil
  bears := fun _ _ hc _ => absurd hc (by simp)

/-- After a change to one call, a call is that one or as it was. -/
theorem getElem?_callers_set (h : (n.callers.set i c')[j]? = some d) :
    j = i ∧ d = c' ∨ j ≠ i ∧ n.callers[j]? = some d := by
  rw [List.getElem?_set] at h
  split at h
  next he =>
    split at h
    next => exact .inl ⟨he.symm, (Option.some.inj h).symm⟩
    next => exact absurd h (by simp)
  next hne => exact .inr ⟨fun he => hne he.symm, h⟩

theorem kept_ask (h : Kept s n) (c' : Caller) : Kept s (n.ask c') := by
  have hcases : ∀ i c, (n.ask c').callers[i]? = some c →
      n.callers[i]? = some c ∨ i = n.callers.length ∧ c = { c' with stage := .asked } := by
    intro i c hc
    have hc : (n.callers ++ [{ c' with stage := .asked }])[i]? = some c := hc
    rw [List.getElem?_append] at hc
    split at hc
    next => exact .inl hc
    next hle =>
      obtain ⟨hlt, hget⟩ := List.getElem?_eq_some_iff.mp hc
      rw [List.length_singleton] at hlt
      exact .inr ⟨by omega, by rw [← hget, List.getElem_singleton]⟩
  refine ⟨h.pid, h.rising, h.last, h.once, ?_, ?_, ?_⟩
  · intro i c hc hstage
    rcases hcases i c hc with hold | ⟨rfl, -⟩
    · exact h.asked i c hold hstage
    · -- a number that has just been given has not been used
      exact fun hmem => absurd (h.known _ hmem) (Nat.lt_irrefl _)
  · intro i hi
    have hlt := h.known i hi
    show i < (n.callers ++ [_]).length
    rw [List.length_append]
    omega
  · intro i c hc hstage
    rcases hcases i c hc with hold | ⟨-, rfl⟩
    · exact h.bears i c hold hstage
    · exact absurd rfl hstage

theorem kept_stamp (h : Kept s n) (hc : n.callers[i]? = some c) (hstage : c.stage = .asked) :
    Kept s (n.stamp i c) := by
  let next := (c.resolve n.stamper).2.last
  have hnext : next = max (n.stamper.last + 1) c.now := c.last_resolve n.stamper
  have hlarger : ∀ v ∈ s.last :: n.stored.map Prod.snd, v < next := by
    intro v hv
    have hle := h.last v hv
    rw [hnext]
    exact Nat.lt_of_lt_of_le (Nat.lt_succ_of_le hle) (Nat.le_max_left _ _)
  have hvalues : s.last :: (n.stamp i c).stored.map Prod.snd =
      (s.last :: n.stored.map Prod.snd) ++ [next] := by
    show s.last :: (n.stored ++ [(i, next)]).map Prod.snd = _
    rw [List.map_append]
    rfl
  have hnumbers : (n.stamp i c).stored.map Prod.fst = n.stored.map Prod.fst ++ [i] :=
    List.map_append
  have hpid : (n.stamp i c).stamper.pid = s.pid := by
    show (c.resolve n.stamper).2.pid = s.pid
    rw [c.resolve_eq, Stamper.pid_anonymous, h.pid]
  refine ⟨hpid, ?_, ?_, ?_, ?_, ?_, ?_⟩
  · rw [hvalues, List.pairwise_append]
    refine ⟨h.rising, List.pairwise_singleton _ _, ?_⟩
    intro v hv w hw
    rw [List.mem_singleton.mp hw]
    exact hlarger v hv
  · intro v hv
    rw [hvalues] at hv
    rcases List.mem_append.mp hv with hold | hnew
    · exact Nat.le_of_lt (hlarger v hold)
    · exact Nat.le_of_eq (List.mem_singleton.mp hnew)
  · rw [hnumbers, List.nodup_append]
    refine ⟨h.once, List.nodup_singleton _, ?_⟩
    intro j hj k hk he
    rw [List.mem_singleton.mp hk] at he
    exact h.asked i c hc hstage (he ▸ hj)
  · intro j d hd hasked
    rcases getElem?_callers_set hd with ⟨-, rfl⟩ | ⟨hne, hold⟩
    · exact absurd hasked (by simp)
    · rw [hnumbers, List.mem_append, List.mem_singleton, not_or]
      exact ⟨h.asked j d hold hasked, hne⟩
  · intro j hj
    show j < (n.callers.set i _).length
    rw [List.length_set]
    rw [hnumbers] at hj
    rcases List.mem_append.mp hj with hold | hnew
    · exact h.known j hold
    · rw [List.mem_singleton.mp hnew]
      exact (List.getElem?_eq_some_iff.mp hc).1
  · intro j d hd hother
    rcases getElem?_callers_set hd with ⟨rfl, rfl⟩ | ⟨-, hold⟩
    · refine ⟨next, .stamped n.stamper h.pid rfl rfl,
        List.mem_append_right _ (List.mem_singleton_self _), ?_⟩
      rw [hnext]
      exact Nat.le_max_right _ _
    · obtain ⟨stamp, hbears, hmem, hle⟩ := h.bears j d hold hother
      exact ⟨stamp, hbears, List.mem_append_left _ hmem, hle⟩

theorem kept_name (h : Kept s n) {found : Stamper} (hc : n.callers[i]? = some c)
    (hstage : c.stage = .stamped found) : Kept s (n.name i c found) := by
  refine ⟨h.pid, h.rising, h.last, h.once, ?_, ?_, ?_⟩
  · intro j d hd hasked
    rcases getElem?_callers_set hd with ⟨-, rfl⟩ | ⟨-, hold⟩
    · exact absurd hasked (by simp)
    · exact h.asked j d hold hasked
  · intro j hj
    show j < (n.callers.set i _).length
    rw [List.length_set]
    exact h.known j hj
  · intro j d hd hother
    rcases getElem?_callers_set hd with ⟨rfl, rfl⟩ | ⟨-, hold⟩
    · obtain ⟨stamp, hbears, hmem, hle⟩ := h.bears j _ hc (by simp [hstage])
      -- what is worked out again is what was stored
      cases hbears with
      | stamped found' hpid hstage' hstamp =>
        obtain rfl : found = found' := Caller.Stage.stamped.inj (hstage.symm.trans hstage')
        exact ⟨stamp, .named found hpid rfl hstamp, hmem, hle⟩
      | named _ _ hstage' _ => exact absurd (hstage.symm.trans hstage') (by simp)
    · exact h.bears j d hold hother

theorem kept_step (hstep : Step n n') (h : Kept s n) : Kept s n' := by
  cases hstep with
  | ask c => exact kept_ask h c
  | stamp i c hc hstage => exact kept_stamp h hc hstage
  | name i c found hc hstage => exact kept_name h hc hstage

theorem kept (h : Steps { stamper := s } n) : Kept s n := by
  induction h with
  | refl => exact kept_start s
  | tail _ hstep ih => exact kept_step hstep ih

/-- A stamp is stored by one call only. -/
theorem Kept.stored_unique (h : Kept s n) {v : Nat} (hi : (i, v) ∈ n.stored)
    (hj : (j, v) ∈ n.stored) : i = j := by
  have hnodup : (n.stored.map Prod.snd).Nodup :=
    (List.pairwise_cons.mp h.rising).2.imp fun hlt => Nat.ne_of_lt hlt
  exact congrArg Prod.fst (List.inj_on_of_nodup_map hnodup hi hj rfl)

/-- What a call gives out is what it gets for its options, and holds the stamp that it has
stored. -/
theorem Kept.stored_of_named (h : Kept s n) {name : String} (hc : n.callers[i]? = some c)
    (hstage : c.stage = .named name) : ∃ found stamp,
      c.options.resolveName c.arguments found c.now = (name, ⟨s.pid, stamp⟩) ∧
      name = c.options.name ++ Stamper.suffix s.pid stamp ∧ (i, stamp) ∈ n.stored ∧
      c.now ≤ stamp := by
  obtain ⟨stamp, hbears, hmem, hle⟩ := h.bears i _ hc (by simp [hstage])
  cases hbears with
  | stamped _ _ hstage' _ => exact absurd (hstage.symm.trans hstage') (by simp)
  | named found hpid hstage' hstamp =>
    obtain rfl : name = (c.resolve found).1 :=
      Caller.Stage.named.inj (hstage.symm.trans hstage')
    subst hstamp
    rw [← hpid]
    refine ⟨found, _, ?_, ?_, hmem, hle⟩
    · show c.resolve found = _
      rw [c.resolve_eq]
      rfl
    · rw [c.resolve_eq]
      exact Stamper.name_anonymous found c.now c.options.name

/-- What two calls have given out ends in two different stamps. -/
theorem Kept.stamps_ne (h : Kept s n) {x y : String} (hx : n.Gives i x) (hy : n.Gives j y)
    (hne : i ≠ j) : ∃ base base' stamp stamp', stamp ≠ stamp' ∧
      x = base ++ Stamper.suffix s.pid stamp ∧ y = base' ++ Stamper.suffix s.pid stamp' := by
  obtain ⟨c, hc, hcstage⟩ := hx
  obtain ⟨d, hd, hdstage⟩ := hy
  obtain ⟨-, stamp, -, rfl, hmem, -⟩ := h.stored_of_named hc hcstage
  obtain ⟨-, stamp', -, rfl, hmem', -⟩ := h.stored_of_named hd hdstage
  refine ⟨c.options.name, d.options.name, stamp, stamp', ?_, rfl, rfl⟩
  rintro rfl
  exact hne (h.stored_unique hmem hmem')

end Naming

/-- A node goes by the name that it asked for, as seen from the root. -/
theorem Graph.name_of_register {ε : Type} {g : Graph ε} {name : String} {node : Node}
    (h : (g.register name).1 = .ok node) : node.name = Name.resolve "/" name := by
  unfold register at h
  by_cases htaken : g.nodes.any (·.name = Name.resolve "/" name) = true
  · simp only [if_pos htaken] at h
    exact absurd h (by simp)
  · simp only [if_neg htaken] at h
    rw [← Except.ok.inj h]

namespace Naming

variable {s : Stamper} {n : Naming} {i : Nat} {x : String}

theorem gives_whole (n : Naming) (c : Caller) : (n.whole c).Gives n.callers.length
    (c.options.resolveName c.arguments n.stamper c.now).1 :=
  ⟨_, List.getElem?_concat_length, rfl⟩

theorem lt_of_gives (h : n.Gives i x) : i < n.callers.length := by
  obtain ⟨c, hc, -⟩ := h
  exact (List.getElem?_eq_some_iff.mp hc).1

theorem gives_of_whole (c : Caller) (h : n.Gives i x) : (n.whole c).Gives i x := by
  obtain ⟨d, hd, hstage⟩ := h
  refine ⟨d, ?_, hstage⟩
  show (n.callers ++ [_])[i]? = some d
  rw [List.getElem?_append_left (lt_of_gives ⟨d, hd, hstage⟩)]
  exact hd

/-- If a node with the name of call `i` is refused, somebody has the name, and it is nobody
who was registered under a name that another call gave out. -/
def Unhindered (n : Naming) (i : Nat) (x : String) : Prop :=
  ∀ {ε : Type} (g : Graph ε) (e : Error), (g.register x).1 = .error e →
    e = Cause.nameTaken (Name.resolve "/" x) ∧
    (∃ o ∈ g.nodes, o.name = Name.resolve "/" x) ∧
    ∀ o ∈ g.nodes, o.name = Name.resolve "/" x →
      ∀ j y, n.Gives j y → i ≠ j → ∀ g' : Graph ε, (g'.register y).1 ≠ .ok o

/-- Names of different calls resolve to different names, by whomever. -/
theorem Kept.resolve_ne (h : Kept s n) {j : Nat} {y : String} (hx : n.Gives i x)
    (hy : n.Gives j y) (hne : i ≠ j) (node node' : String) :
    Name.resolve node x ≠ Name.resolve node' y := by
  intro hsame
  obtain ⟨base, base', stamp, stamp', hstamps, rfl, rfl⟩ := h.stamps_ne hx hy hne
  obtain ⟨front, hfront⟩ := Stamper.toList_resolve node base s.pid stamp
  obtain ⟨front', hfront'⟩ := Stamper.toList_resolve node' base' s.pid stamp'
  rw [hsame, hfront'] at hfront
  exact hstamps (Stamper.stamp_eq hfront).symm

theorem Kept.unhindered (h : Kept s n) (hx : n.Gives i x) : n.Unhindered i x := by
  intro ε g e hrefused
  obtain ⟨-, htaken, he⟩ := Graph.register_refused (Prod.ext hrefused rfl)
  refine ⟨he, htaken, ?_⟩
  intro o _ hname j y hy hne g' hgranted
  exact h.resolve_ne hx hy hne "/" "/" (hname.symm.trans (Graph.name_of_register hgranted))

/-- What holds of the names that a process has given out since its last stamp was that of
`s`. -/
structure Apart (s : Stamper) (n : Naming) : Prop where
  /-- Every stamp is larger than all that were stored before. -/
  rising : (s.last :: n.stored.map Prod.snd).Pairwise (· < ·)
  once : (n.stored.map Prod.fst).Nodup
  /-- What a call gives out is what its options resolve to, at the stamp that its atomic step
  found. The name ends in the stamp that the step has stored. -/
  stamped : ∀ i c name, n.callers[i]? = some c → c.stage = .named name → ∃ found stamp,
    c.options.resolveName c.arguments found c.now = (name, ⟨s.pid, stamp⟩) ∧
    name = c.options.name ++ Stamper.suffix s.pid stamp ∧ (i, stamp) ∈ n.stored ∧
    c.now ≤ stamp
  distinct : ∀ i j x y, n.Gives i x → n.Gives j y → i ≠ j → x ≠ y
  resolved : ∀ i j x y, n.Gives i x → n.Gives j y → i ≠ j →
    ∀ node node', Name.resolve node x ≠ Name.resolve node' y
  /-- In 64 bits it is the same, as long as no stamp is the largest number there is. -/
  words : ∀ last now : UInt64, last.toNat ∈ s.last :: n.stored.map Prod.snd →
    last.toNat + 1 < UInt64.size →
      (Stamper.followingWord last now).toNat = Stamper.following last.toNat now.toNat
  free : ∀ i x, n.Gives i x → n.Unhindered i x
  /-- To name a node by its options, with nobody in between, is to make one more call. -/
  whole : ∀ c : Caller, Steps { stamper := s } (n.whole c)
  /-- So the next node that is named by its options is not refused because of another. -/
  next : ∀ c : Caller, n.Unhindered n.callers.length
    (c.options.resolveName c.arguments n.stamper c.now).1

/-- **Anonymous names never collide.** Whatever stamp a process begins with, whatever its
calls start their names with and whatever the clock shows them, in whichever order they
make their steps. -/
theorem names_apart (h : Steps { stamper := s } n) : Apart s n := by
  have hkept := kept h
  have hwhole : ∀ c : Caller, Steps { stamper := s } (n.whole c) :=
    fun c => h.trans (n.steps_whole c)
  refine
    { rising := hkept.rising
      once := hkept.once
      stamped := fun i c name => hkept.stored_of_named
      distinct := ?_
      resolved := fun i j x y => hkept.resolve_ne
      words := fun last now _ => Stamper.toNat_followingWord now
      free := fun i x => hkept.unhindered
      whole := hwhole
      next := ?_ }
  · intro i j x y hx hy hne hsame
    exact hkept.resolve_ne hx hy hne "/" "/" (congrArg _ hsame)
  · intro c ε g e hrefused
    obtain ⟨he, htaken, hothers⟩ :=
      (kept (hwhole c)).unhindered (n.gives_whole c) g e hrefused
    exact ⟨he, htaken, fun o ho hname j y hy => hothers o ho hname j y (gives_of_whole c hy)⟩

/-- A call for a listener's name that starts with `base`. -/
def listening (base : String) (stage : Caller.Stage) : Caller :=
  ⟨({ name := base } : NodeOptions).anonymous, [], 5, stage, rfl, rfl⟩

/-- Two calls at the same time. The second one stores its stamp first, and starts with what
looks like the name of the first one. -/
def crossing : Naming :=
  let n : Naming := ({ stamper := { pid := 1 } } : Naming)
  let n := (n.ask (listening "a" .asked)).ask (listening "~a_1_6" .asked)
  let n := (n.stamp 1 (listening "~a_1_6" .asked)).stamp 0 (listening "a" .asked)
  (n.name 0 (listening "a" (.stamped ⟨1, 5⟩)) ⟨1, 5⟩).name 1
    (listening "~a_1_6" (.stamped ⟨1, 0⟩)) ⟨1, 0⟩

theorem crossing_steps : Steps { stamper := { pid := 1 } } crossing := by
  unfold crossing
  exact .tail (.tail (.tail (.tail (.tail (.single (.ask _ _)) (.ask _ _))
    (.stamp _ 1 _ rfl rfl)) (.stamp _ 0 _ rfl rfl)) (.name _ 0 _ ⟨1, 5⟩ rfl rfl))
    (.name _ 1 _ ⟨1, 0⟩ rfl rfl)

/-- Both names are what the options resolve to, and a graph registers a node under each,
and one under the next name that the options give. -/
theorem names_apart_crossing :
    Steps { stamper := { pid := 1 } } crossing ∧
    crossing.Gives 0 "a_1_6" ∧ crossing.Gives 1 "~a_1_6_1_5" ∧
    crossing.stored = [(1, 5), (0, 6)] ∧
    (({ name := "a" } : NodeOptions).anonymous.resolveName [] crossing.stamper 5).1 = "a_1_7" ∧
    (∃ node, ((({} : Graph String).register "~a_1_6_1_5").2.register "a_1_6").1 = .ok node) ∧
    ∃ node, ((({} : Graph String).register "a_1_6").2.register
      (({ name := "a" } : NodeOptions).anonymous.resolveName [] crossing.stamper 5).1).1 =
        .ok node := by
  have hapart := names_apart crossing_steps
  have hfirst : crossing.Gives 0 "a_1_6" := ⟨listening "a" (.named "a_1_6"), by decide, rfl⟩
  have hsecond : crossing.Gives 1 "~a_1_6_1_5" :=
    ⟨listening "~a_1_6" (.named "~a_1_6_1_5"), by decide, rfl⟩
  refine ⟨crossing_steps, hfirst, hsecond, by decide, by decide, ?_, ?_⟩
  · cases hanswer : ((({} : Graph String).register "~a_1_6_1_5").2.register "a_1_6").1 with
    | ok node => exact ⟨node, rfl⟩
    | error e =>
      obtain ⟨-, ⟨o, ho, hname⟩, hothers⟩ := hapart.free 0 "a_1_6" hfirst _ e hanswer
      obtain rfl := List.mem_singleton.mp ho
      exact absurd rfl (hothers _ ho hname 1 "~a_1_6_1_5" hsecond (by decide) {})
  · cases hanswer : ((({} : Graph String).register "a_1_6").2.register
        (({ name := "a" } : NodeOptions).anonymous.resolveName [] crossing.stamper 5).1).1 with
    | ok node => exact ⟨node, rfl⟩
    | error e =>
      obtain ⟨-, ⟨o, ho, hname⟩, hothers⟩ := hapart.next (listening "a" .asked) _ e hanswer
      obtain rfl := List.mem_singleton.mp ho
      exact absurd rfl (hothers _ ho hname 0 "a_1_6" hfirst (by decide) {})

end Naming

end NodeGraph
