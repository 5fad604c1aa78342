import Mathlib.Data.List.Infix
import NodeGraph.Name.Options

/-!
# Values on a command line

An argument such as `__name:=ears` is looked up by what stands in front of its value.

> `IsFirst`: of all arguments after the program's name, this is the first one with that
> start.
>
> `Exact`: what has been found is what follows the start in the first argument that has
> it, and nothing is found if there is none.

Looking up is exact only as long as no value begins like its argument. The start is taken
off as often as it is there, so a value that repeats it loses every repetition:

> `values_looked_up`: what is found is what is left of the first argument when all its
> starts are gone, and that is exact unless there are two of them.
-/

namespace NodeGraph.Arguments

/-! ## What is to be found -/

/-- Whether a text starts with another. -/
def StartsWith (start text : String) : Prop := ∃ rest, text = start ++ rest

/-- A text so many times over. -/
def repeated (start : String) : Nat → String
  | 0 => ""
  | n + 1 => start ++ repeated start n

/-- The argument at a position is the first one after the program's name that has a
start. -/
structure IsFirst (arguments : List String) (start : String) (position : Nat)
    (argument : String) : Prop where
  afterProgram : 1 ≤ position
  stands : arguments[position]? = some argument
  starts : StartsWith start argument
  first : ∀ i earlier, 1 ≤ i → i < position → arguments[i]? = some earlier →
    ¬ StartsWith start earlier

/-- No argument after the program's name has a start. -/
def Lacks (arguments : List String) (start : String) : Prop :=
  ∀ i argument, 1 ≤ i → arguments[i]? = some argument → ¬ StartsWith start argument

/-- What has been found is what follows the start where it is first. -/
structure Exact (arguments : List String) (start : String) (found : Option String) : Prop where
  some_iff : ∀ value, found = some value ↔ ∃ i, IsFirst arguments start i (start ++ value)
  none_iff : found = none ↔ Lacks arguments start

variable {arguments : List String} {start text value argument : String} {cs rest first : List Char}

/-! ## Texts and their characters -/

theorem startsWith_iff : StartsWith start text ↔ start.toList <+: text.toList := by
  constructor
  · intro h
    obtain ⟨rest, rfl⟩ := h
    rw [String.toList_append]
    exact List.prefix_append _ _
  · intro h
    obtain ⟨rest, hrest⟩ := h
    refine ⟨String.ofList rest, String.toList_inj.mp ?_⟩
    rw [String.toList_append, String.toList_ofList, hrest]

theorem repeated_one (start : String) : repeated start 1 = start := String.append_empty

theorem toList_repeated (start : String) (n : Nat) :
    (repeated start n).toList = (List.replicate n start.toList).flatten := by
  induction n with
  | zero => rfl
  | succ n ih =>
    show (start ++ repeated start n).toList = _
    rw [String.toList_append, ih, List.replicate_succ, List.flatten_cons]

/-- What is left when a start is taken off again and again is what follows its
repetitions and does not start with it. -/
theorem stripAll_eq_iff (hfirst : first ≠ []) : stripAll first cs = rest ↔
    ∃ n, cs = (List.replicate n first).flatten ++ rest ∧ ¬ first <+: rest := by
  fun_induction stripAll first cs with
  | case1 cs h ih =>
    have hprefix : first <+: cs := List.isPrefixOf_iff_prefix.mp h.2
    have hcs : first ++ cs.drop first.length = cs := List.prefix_iff_eq_append.mp hprefix
    rw [ih]
    constructor
    · intro hn
      obtain ⟨n, hdrop, hrest⟩ := hn
      refine ⟨n + 1, ?_, hrest⟩
      rw [List.replicate_succ, List.flatten_cons, List.append_assoc, ← hdrop, hcs]
    · intro hn
      obtain ⟨n, heq, hrest⟩ := hn
      cases n with
      | zero =>
        have hall : cs = rest := heq
        rw [hall] at hprefix
        exact absurd hprefix hrest
      | succ n =>
        refine ⟨n, ?_, hrest⟩
        rw [List.replicate_succ, List.flatten_cons, List.append_assoc, ← hcs] at heq
        exact List.append_cancel_left heq
  | case2 cs h =>
    have hprefix : ¬ first <+: cs := fun hp => h ⟨hfirst, List.isPrefixOf_iff_prefix.mpr hp⟩
    constructor
    · rintro rfl
      exact ⟨0, rfl, hprefix⟩
    · intro hn
      obtain ⟨n, heq, -⟩ := hn
      cases n with
      | zero => exact heq
      | succ n =>
        rw [List.replicate_succ, List.flatten_cons, List.append_assoc] at heq
        exact absurd (heq ▸ List.prefix_append _ _) hprefix

/-! ## Looking up -/

/-- There is one first argument. -/
theorem IsFirst.unique {i j : Nat} {other : String} (h : IsFirst arguments start i argument)
    (h' : IsFirst arguments start j other) : argument = other := by
  have hij : i = j := by
    rcases Nat.lt_trichotomy i j with hlt | heq | hlt
    · exact absurd h.starts (h'.first i argument h.afterProgram hlt h.stands)
    · exact heq
    · exact absurd h'.starts (h.first j other h'.afterProgram hlt h'.stands)
  have hboth := h.stands
  rw [hij, h'.stands] at hboth
  exact (Option.some.inj hboth).symm

theorem find?_eq_some_iff :
    (arguments.drop 1).find? (start.toList.isPrefixOf ·.toList) = some argument ↔
      ∃ i, IsFirst arguments start i argument := by
  rw [List.find?_eq_some_iff_getElem, List.isPrefixOf_iff_prefix, ← startsWith_iff]
  constructor
  · intro h
    obtain ⟨hstart, i, hi, rfl, hfirst⟩ := h
    refine ⟨1 + i, Nat.le_add_right _ _, ?_, hstart, ?_⟩
    · rw [← List.getElem?_drop, List.getElem?_eq_getElem hi]
    · intro j earlier hpos hlt hj hearlier
      obtain ⟨k, rfl⟩ := Nat.exists_eq_add_of_le hpos
      have hk : k < i := by omega
      have hnot := hfirst k hk
      rw [← List.getElem?_drop, List.getElem?_eq_getElem (Nat.lt_trans hk hi)] at hj
      rw [Option.some.inj hj, List.isPrefixOf_iff_prefix.mpr (startsWith_iff.mp hearlier)] at hnot
      exact absurd hnot (by decide)
  · intro h
    obtain ⟨i, h⟩ := h
    obtain ⟨k, rfl⟩ := Nat.exists_eq_add_of_le h.afterProgram
    have hstands := h.stands
    rw [← List.getElem?_drop] at hstands
    obtain ⟨hk, hget⟩ := List.getElem?_eq_some_iff.mp hstands
    refine ⟨h.starts, k, hk, hget, ?_⟩
    intro j hj
    have hnot := h.first (1 + j) _ (Nat.le_add_right _ _) (by omega)
      (by rw [← List.getElem?_drop, List.getElem?_eq_getElem (Nat.lt_trans hj hk)])
    rw [startsWith_iff, ← List.isPrefixOf_iff_prefix] at hnot
    rw [Bool.not_eq_true', Bool.eq_false_iff]
    exact hnot

theorem find?_eq_none_iff :
    (arguments.drop 1).find? (start.toList.isPrefixOf ·.toList) = none ↔
      Lacks arguments start := by
  constructor
  · intro h i argument hpos hi hstarts
    obtain ⟨k, rfl⟩ := Nat.exists_eq_add_of_le hpos
    rw [← List.getElem?_drop] at hi
    have hnot := List.find?_eq_none.mp h argument (List.mem_of_getElem? hi)
    exact hnot (List.isPrefixOf_iff_prefix.mpr (startsWith_iff.mp hstarts))
  · intro h
    refine List.find?_eq_none.mpr fun argument hmem hstarts => ?_
    obtain ⟨k, hk⟩ := List.mem_iff_getElem?.mp hmem
    rw [List.getElem?_drop] at hk
    exact h (1 + k) argument (Nat.le_add_right _ _) hk
      (startsWith_iff.mpr (List.isPrefixOf_iff_prefix.mp hstarts))

/-- What is found follows all the repetitions of the start, one or more, of the first
argument that has it. -/
theorem valueOf?_eq_some_iff (hstart : start ≠ "") : valueOf? arguments start = some value ↔
    ∃ i n, IsFirst arguments start i (repeated start n ++ value) ∧ ¬ StartsWith start value := by
  have hne : start.toList ≠ [] := fun h => hstart (String.toList_inj.mp h)
  have hstrip : ∀ argument : String, String.ofList (stripAll start.toList argument.toList) = value ↔
      ∃ n, argument = repeated start n ++ value ∧ ¬ StartsWith start value := by
    intro argument
    rw [← String.toList_inj, String.toList_ofList, stripAll_eq_iff hne]
    refine exists_congr fun n => ?_
    rw [← String.toList_inj, String.toList_append, toList_repeated, startsWith_iff]
  unfold valueOf?
  rw [Option.map_eq_some_iff]
  constructor
  · intro h
    obtain ⟨argument, hfind, hvalue⟩ := h
    obtain ⟨i, hfirst⟩ := find?_eq_some_iff.mp hfind
    obtain ⟨n, rfl, hnot⟩ := (hstrip argument).mp hvalue
    exact ⟨i, n, hfirst, hnot⟩
  · intro h
    obtain ⟨i, n, hfirst, hnot⟩ := h
    exact ⟨_, find?_eq_some_iff.mpr ⟨i, hfirst⟩, (hstrip _).mpr ⟨n, rfl, hnot⟩⟩

theorem valueOf?_eq_none_iff : valueOf? arguments start = none ↔ Lacks arguments start := by
  unfold valueOf?
  rw [Option.map_eq_none_iff]
  exact find?_eq_none_iff

/-- Nothing but the value is lost exactly if the first argument has its start once. -/
theorem exact_iff (hstart : start ≠ "") :
    Exact arguments start (valueOf? arguments start) ↔
      ∀ i argument, IsFirst arguments start i argument →
        ¬ StartsWith (start ++ start) argument := by
  constructor
  · intro h i argument hfirst htwice
    obtain ⟨rest, rfl⟩ := htwice
    rw [String.append_assoc] at hfirst
    -- what is found would start with what has been taken off
    obtain ⟨-, -, -, hnot⟩ :=
      (valueOf?_eq_some_iff hstart).mp ((h.some_iff (start ++ rest)).mpr ⟨i, hfirst⟩)
    exact hnot ⟨rest, rfl⟩
  · intro h
    refine ⟨fun value => ?_, valueOf?_eq_none_iff⟩
    rw [valueOf?_eq_some_iff hstart]
    constructor
    · intro hfound
      obtain ⟨i, n, hfirst, hnot⟩ := hfound
      match n with
      | 0 =>
        have hvalue := hfirst.starts
        rw [repeated, String.empty_append] at hvalue
        exact absurd hvalue hnot
      | 1 =>
        rw [repeated_one] at hfirst
        exact ⟨i, hfirst⟩
      | n + 2 =>
        refine absurd ⟨repeated start n ++ value, ?_⟩ (h i _ hfirst)
        show (start ++ (start ++ repeated start n)) ++ value = _
        simp only [String.append_assoc]
    · intro hexact
      obtain ⟨i, hfirst⟩ := hexact
      refine ⟨i, 1, by rw [repeated_one]; exact hfirst, fun hagain => ?_⟩
      obtain ⟨rest, rfl⟩ := hagain
      exact h i _ hfirst ⟨rest, String.append_assoc.symm⟩

end NodeGraph.Arguments

namespace NodeGraph

open Arguments

/-- The start of the argument that names a node. -/
def NodeOptions.nameStart : String := "__name:="

/-- The name that a node goes by when no argument names it, and the stamper then. -/
def NodeOptions.ownName (o : NodeOptions) (s : Stamper) (now : Nat) : String × Stamper :=
  if o.isAnonymous then s.anonymous now o.name else (o.name, s)

theorem NodeOptions.resolveName_of_lacks {arguments : List String} (o : NodeOptions) (s : Stamper)
    (now : Nat) (h : Lacks arguments nameStart) :
    o.resolveName arguments s now = o.ownName s now := by
  have hnone : valueOf? arguments "__name:=" = none := valueOf?_eq_none_iff.mpr h
  unfold resolveName ownName
  rw [hnone]

/-- The name that an argument gives is what follows all its starts. -/
theorem NodeOptions.resolveName_of_isFirst {arguments : List String} {i n : Nat} {name : String}
    (o : NodeOptions) (s : Stamper) (now : Nat)
    (h : IsFirst arguments nameStart i (repeated nameStart n ++ name))
    (hname : ¬ StartsWith nameStart name) : o.resolveName arguments s now = (name, s) := by
  have hsome : valueOf? arguments "__name:=" = some name :=
    (valueOf?_eq_some_iff (by decide)).mpr ⟨i, n, h, hname⟩
  unfold resolveName
  rw [hsome]

/-- **What is found has lost all its starts.** It is what follows them in the first
argument after the program's name that has one, and nothing is found exactly if there is
none. So it is exactly what follows the start, unless that argument has the start twice.
Nodes are named in the same way, and by their options only if no argument names them. -/
theorem values_looked_up (arguments : List String) (start : String) (hstart : start ≠ "") :
    (∀ value, valueOf? arguments start = some value ↔
      ∃ i n, IsFirst arguments start i (repeated start n ++ value) ∧ ¬ StartsWith start value) ∧
    (valueOf? arguments start = none ↔ Lacks arguments start) ∧
    (Exact arguments start (valueOf? arguments start) ↔ ∀ i argument,
      IsFirst arguments start i argument → ¬ StartsWith (start ++ start) argument) ∧
    ∀ (o : NodeOptions) (s : Stamper) (now : Nat),
      (∀ i n name, IsFirst arguments NodeOptions.nameStart i
          (repeated NodeOptions.nameStart n ++ name) → ¬ StartsWith NodeOptions.nameStart name →
        o.resolveName arguments s now = (name, s)) ∧
      (Lacks arguments NodeOptions.nameStart →
        o.resolveName arguments s now = o.ownName s now) := by
  refine ⟨fun value => valueOf?_eq_some_iff hstart, valueOf?_eq_none_iff, exact_iff hstart,
    fun o s now => ⟨?_, o.resolveName_of_lacks s now⟩⟩
  intro i n name hfirst hname
  exact o.resolveName_of_isFirst s now hfirst hname

/-- A command line whose name repeats its start, behind an argument that has none. -/
def NodeOptions.echoing : List String := ["listener", "chatter:=talk", "__name:=__name:=solo"]

theorem NodeOptions.echoing_isFirst :
    IsFirst echoing nameStart 2 (repeated nameStart 2 ++ "solo") := by
  refine ⟨by decide, by decide +kernel, ⟨"__name:=solo", by decide +kernel⟩, ?_⟩
  intro i earlier hpos hlt hi hearlier
  obtain rfl : i = 1 := by omega
  obtain rfl : "chatter:=talk" = earlier := Option.some.inj hi
  exact absurd (startsWith_iff.mp hearlier) (by decide +kernel)

theorem NodeOptions.not_startsWith_solo : ¬ StartsWith nameStart "solo" :=
  fun h => absurd (startsWith_iff.mp h) (by decide +kernel)

/-- What is found on that command line has lost both starts, and so has the name. -/
theorem values_looked_up_echoing :
    NodeOptions.nameStart ≠ "" ∧ valueOf? NodeOptions.echoing NodeOptions.nameStart = some "solo" ∧
      ({ name := "listener" } : NodeOptions).resolveName NodeOptions.echoing { pid := 7 } 0 =
        ("solo", { pid := 7 }) := by
  have hstart : NodeOptions.nameStart ≠ "" := by decide
  obtain ⟨hvalue, -, -, hname⟩ :=
    values_looked_up NodeOptions.echoing NodeOptions.nameStart hstart
  refine ⟨hstart, (hvalue "solo").mpr ⟨2, 2, NodeOptions.echoing_isFirst, ?_⟩, ?_⟩
  · exact NodeOptions.not_startsWith_solo
  · exact (hname _ _ _).1 2 2 "solo" NodeOptions.echoing_isFirst NodeOptions.not_startsWith_solo

/-- Looking up is not exact on that command line: the argument says `__name:=solo`. -/
theorem echoing_not_exact : ¬ Exact NodeOptions.echoing NodeOptions.nameStart
    (valueOf? NodeOptions.echoing NodeOptions.nameStart) := by
  intro h
  have htwice : repeated NodeOptions.nameStart 2 ++ "solo" =
      NodeOptions.nameStart ++ "__name:=solo" := by decide +kernel
  have hfirst := NodeOptions.echoing_isFirst
  rw [htwice] at hfirst
  obtain ⟨_, _, _, hnot⟩ :=
    (valueOf?_eq_some_iff (by decide)).mp ((h.some_iff "__name:=solo").mpr ⟨2, hfirst⟩)
  exact hnot ⟨"solo", by decide +kernel⟩

end NodeGraph
