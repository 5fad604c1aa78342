import Mathlib.Algebra.Group.Int.Defs
import Mathlib.Algebra.Group.Nat.Defs
import Mathlib.Data.List.Infix
import NodeGraph.Component.Requester

/-!
# Two operands on a command line

Which command lines hold two operands is said here without mention of how they are read.

> `Decimal.Denotes`: a text denotes an integer if it is one sign or none and then one
> ASCII digit or more; the digits are read as a positional number.
>
> `Arguments.leftOver`: the program's own name, and of all that follows what holds no `:=`.
>
> `Operands.At`: the argument at a position denotes an integer that has a 64-bit form.

The reader goes from digit to digit and gives up as soon as the value is out of range, so it
never sees the whole number of a text that is too long. That it refuses no number in range
for that is because a value only grows (`Decimal.le_ofDigitChars`): once it has left the
range it does not come back. Upwards and downwards it is the same loop with another limit,
`Decimal.scan`.

> `Decimal.read_eq_ok_iff`: the reader accepts the texts of 64-bit integers and no others.
>
> `operands_parsed`: two operands are found exactly if they are there at the first two
> positions, and otherwise the error is about the first position that is at fault.
-/

namespace NodeGraph

/-! ## Numbers -/

namespace Decimal

/-- One ASCII digit or more, and nothing else. -/
def IsNumber (ds : List Char) : Prop := ds ≠ [] ∧ ∀ c ∈ ds, c.isDigit = true

/-- What digits are worth by their positions. -/
def magnitude (ds : List Char) : Nat := Nat.ofDigitChars 10 ds 0

/-- The texts that denote an integer. -/
inductive Denotes : List Char → Int → Prop where
  | plain (ds : List Char) (h : IsNumber ds) : Denotes ds (magnitude ds)
  | plus (ds : List Char) (h : IsNumber ds) : Denotes ('+' :: ds) (magnitude ds)
  | minus (ds : List Char) (h : IsNumber ds) : Denotes ('-' :: ds) (-(magnitude ds : Int))

/-- Reads digits, `value` being read already, up to a limit. -/
def scan (limit : Nat) (fault : Fault) (value : Nat) : List Char → Except Fault Nat
  | [] => .ok value
  | c :: cs =>
    match digit? c with
    | none => .error .invalidDigit
    | some d =>
      if value * 10 + d ≤ limit then scan limit fault (value * 10 + d) cs else .error fault

variable {c : Char} {cs ds : List Char} {d limit value n : Nat} {fault : Fault}

theorem digit?_eq (c : Char) :
    digit? c = if c.isDigit then some (c.toNat - '0'.toNat) else none := by
  unfold digit?
  refine if_congr ?_ rfl rfl
  unfold Char.isDigit
  rw [Bool.and_eq_true, decide_eq_true_iff, decide_eq_true_iff]
  exact Iff.rfl

/-- Further digits make no number smaller. -/
theorem le_ofDigitChars (cs : List Char) (value : Nat) : value ≤ Nat.ofDigitChars 10 cs value := by
  induction cs generalizing value with
  | nil => exact Nat.le_refl _
  | cons c cs ih =>
    rw [Nat.ofDigitChars_cons]
    refine Nat.le_trans ?_ (ih _)
    omega

theorem scan_eq_ok_iff (h : value ≤ limit) :
    scan limit fault value cs = .ok n ↔
      (∀ c ∈ cs, c.isDigit = true) ∧ Nat.ofDigitChars 10 cs value = n ∧ n ≤ limit := by
  induction cs generalizing value with
  | nil =>
    unfold scan
    rw [Except.ok.injEq, Nat.ofDigitChars_nil]
    constructor
    · rintro rfl
      exact ⟨by simp, rfl, h⟩
    · rintro ⟨-, rfl, -⟩
      rfl
  | cons c cs ih =>
    unfold scan
    rw [digit?_eq, List.forall_mem_cons, Nat.ofDigitChars_cons, Nat.mul_comm 10]
    by_cases hc : c.isDigit = true
    · simp only [if_pos hc]
      by_cases hle : value * 10 + (c.toNat - '0'.toNat) ≤ limit
      · rw [if_pos hle, ih hle, and_iff_right hc]
      · rw [if_neg hle]
        refine iff_of_false (by simp) ?_
        rintro ⟨-, rfl, hn⟩
        exact hle (Nat.le_trans (le_ofDigitChars cs _) hn)
    · simp only [if_neg hc]
      exact iff_of_false (by simp) fun hall => hc hall.1.1

theorem readUp_eq (cs : List Char) (value : Nat) :
    readUp value cs = (scan (2 ^ 63 - 1) .tooLarge value cs).map Int.ofNat := by
  induction cs generalizing value with
  | nil => rfl
  | cons c cs ih =>
    unfold readUp scan
    cases digit? c with
    | none => rfl
    | some d =>
      have hvalue : (value : Int) * 10 + d = (value * 10 + d : Nat) := by push_cast; rfl
      have hlimit : ((value * 10 + d : Nat) : Int) ≤ largest ↔ value * 10 + d ≤ 2 ^ 63 - 1 := by
        unfold largest
        omega
      simp only [hvalue, hlimit, ih]
      split <;> rfl

theorem readDown_eq (cs : List Char) (value : Nat) :
    readDown (-(value : Int)) cs = (scan (2 ^ 63) .tooSmall value cs).map (-Int.ofNat ·) := by
  induction cs generalizing value with
  | nil => rfl
  | cons c cs ih =>
    unfold readDown scan
    cases digit? c with
    | none => rfl
    | some d =>
      have hvalue : -(value : Int) * 10 - d = -((value * 10 + d : Nat) : Int) := by push_cast; omega
      have hlimit : smallest ≤ -((value * 10 + d : Nat) : Int) ↔ value * 10 + d ≤ 2 ^ 63 := by
        unfold smallest
        omega
      simp only [hvalue, hlimit, ih]
      split <;> rfl

theorem map_eq_ok_iff {α β φ : Type} {f : α → β} {r : Except φ α} {b : β} :
    r.map f = .ok b ↔ ∃ a, r = .ok a ∧ f a = b := by
  cases r with
  | error e => simp [Except.map]
  | ok a => simp [Except.map]

theorem readUp_eq_ok_iff {m : Int} :
    readUp 0 cs = .ok m ↔
      (∀ c ∈ cs, c.isDigit = true) ∧ m = magnitude cs ∧ m ≤ 2 ^ 63 - 1 := by
  rw [show (0 : Int) = ((0 : Nat) : Int) from rfl, readUp_eq, map_eq_ok_iff]
  simp only [scan_eq_ok_iff (Nat.zero_le _), Int.ofNat_eq_natCast]
  constructor
  · rintro ⟨n, ⟨hall, rfl, hn⟩, rfl⟩
    exact ⟨hall, rfl, by omega⟩
  · rintro ⟨hall, rfl, hm⟩
    exact ⟨_, ⟨hall, rfl, by unfold magnitude at hm; omega⟩, rfl⟩

theorem readDown_eq_ok_iff {m : Int} :
    readDown 0 cs = .ok m ↔
      (∀ c ∈ cs, c.isDigit = true) ∧ m = -(magnitude cs : Int) ∧ -2 ^ 63 ≤ m := by
  rw [show (0 : Int) = -((0 : Nat) : Int) from rfl, readDown_eq, map_eq_ok_iff]
  simp only [scan_eq_ok_iff (Nat.zero_le _), Int.ofNat_eq_natCast]
  constructor
  · rintro ⟨n, ⟨hall, rfl, hn⟩, rfl⟩
    exact ⟨hall, rfl, by omega⟩
  · rintro ⟨hall, rfl, hm⟩
    exact ⟨_, ⟨hall, rfl, by unfold magnitude at hm; omega⟩, rfl⟩

/-! ## Texts -/

theorem not_isDigit_of_sign (h : c = '+' ∨ c = '-') : ¬ c.isDigit = true := by
  rcases h with rfl | rfl <;> decide

theorem denotes_plus_iff {m : Int} : Denotes ('+' :: ds) m ↔ IsNumber ds ∧ m = magnitude ds := by
  constructor
  · intro h
    cases h with
    | plain _ h => exact absurd (h.2 _ List.mem_cons_self) (not_isDigit_of_sign (.inl rfl))
    | plus _ h => exact ⟨h, rfl⟩
  · rintro ⟨h, rfl⟩
    exact .plus ds h

theorem denotes_minus_iff {m : Int} :
    Denotes ('-' :: ds) m ↔ IsNumber ds ∧ m = -(magnitude ds : Int) := by
  constructor
  · intro h
    cases h with
    | plain _ h => exact absurd (h.2 _ List.mem_cons_self) (not_isDigit_of_sign (.inr rfl))
    | minus _ h => exact ⟨h, rfl⟩
  · rintro ⟨h, rfl⟩
    exact .minus ds h

theorem denotes_iff_of_unsigned {m : Int} (hplus : ∀ ds, cs ≠ '+' :: ds)
    (hminus : ∀ ds, cs ≠ '-' :: ds) : Denotes cs m ↔ IsNumber cs ∧ m = magnitude cs := by
  constructor
  · intro h
    cases h with
    | plain _ h => exact ⟨h, rfl⟩
    | plus ds _ => exact absurd rfl (hplus ds)
    | minus ds _ => exact absurd rfl (hminus ds)
  · rintro ⟨h, rfl⟩
    exact .plain cs h

/-- Whether an integer has a 64-bit form. -/
def Fits (n : Int) : Prop := -2 ^ 63 ≤ n ∧ n ≤ 2 ^ 63 - 1

theorem readChars_eq_ok_iff {m : Int} : readChars cs = .ok m ↔ Denotes cs m ∧ Fits m := by
  have hup : ∀ {ds : List Char}, ds ≠ [] →
      (readUp 0 ds = .ok m ↔ (IsNumber ds ∧ m = magnitude ds) ∧ Fits m) := by
    intro ds hne
    rw [readUp_eq_ok_iff, IsNumber, Fits]
    constructor
    · rintro ⟨hall, rfl, hm⟩
      exact ⟨⟨⟨hne, hall⟩, rfl⟩, by omega, hm⟩
    · rintro ⟨⟨⟨-, hall⟩, rfl⟩, -, hm⟩
      exact ⟨hall, rfl, hm⟩
  unfold readChars
  split
  next =>
    refine iff_of_false (by simp) ?_
    rw [denotes_iff_of_unsigned (by simp) (by simp)]
    exact fun h => h.1.1.1 rfl
  next =>
    refine iff_of_false (by simp) ?_
    rw [denotes_plus_iff]
    exact fun h => h.1.1.1 rfl
  next =>
    refine iff_of_false (by simp) ?_
    rw [denotes_minus_iff]
    exact fun h => h.1.1.1 rfl
  next ds hne =>
    rw [denotes_plus_iff]
    exact hup fun h => hne (h ▸ rfl)
  next ds hne =>
    rw [denotes_minus_iff, readDown_eq_ok_iff, IsNumber, Fits]
    constructor
    · rintro ⟨hall, rfl, hm⟩
      exact ⟨⟨⟨fun h => hne (h ▸ rfl), hall⟩, rfl⟩, hm, by omega⟩
    · rintro ⟨⟨⟨-, hall⟩, rfl⟩, hm, -⟩
      exact ⟨hall, rfl, hm⟩
  next hnil _ _ hplus hminus =>
    rw [denotes_iff_of_unsigned (fun ds h => hplus ds h) (fun ds h => hminus ds h)]
    exact hup hnil

theorem fits_toInt (n : Int64) : Fits n.toInt := by
  have hlt := Int64.toInt_lt n
  exact ⟨Int64.le_toInt n, Int.le_sub_one_of_lt hlt⟩

/-- **The reader accepts the texts of 64-bit integers** and gives what they denote. -/
theorem read_eq_ok_iff {s : String} {n : Int64} :
    read s = .ok n ↔ Denotes s.toList n.toInt := by
  unfold read
  rw [map_eq_ok_iff]
  simp only [readChars_eq_ok_iff]
  constructor
  · rintro ⟨m, ⟨hdenotes, hfits⟩, rfl⟩
    rwa [Int64.toInt_ofInt_of_le hfits.1 (Int.lt_of_le_sub_one hfits.2)]
  · intro h
    exact ⟨n.toInt, ⟨h, fits_toInt n⟩, Int64.ofInt_toInt n⟩

/-- What is written denotes what it was written for. -/
theorem denotes_write (n : Int64) : Denotes (write n).toList n.toInt := by
  have hnumber : ∀ m, IsNumber (Nat.toDigits 10 m) := fun m =>
    ⟨Nat.toDigits_ne_nil, fun c hc => Nat.isDigit_of_mem_toDigits (by decide) (by decide) hc⟩
  have hmagnitude : ∀ m, magnitude (Nat.toDigits 10 m) = m := fun m => Nat.ofDigitChars_ten_toDigits
  unfold write
  generalize n.toInt = m
  cases m with
  | ofNat m =>
    show Denotes (Nat.repr m).toList m
    rw [Nat.toList_repr]
    have h := Denotes.plain _ (hnumber m)
    rwa [hmagnitude] at h
  | negSucc m =>
    show Denotes ("-" ++ Nat.repr (m + 1)).toList (-((m + 1 : Nat) : Int))
    rw [String.toList_append, Nat.toList_repr]
    have h := Denotes.minus _ (hnumber (m + 1))
    rwa [hmagnitude] at h

end Decimal

/-! ## What is left of a command line -/

namespace Arguments

/-- Whether `:=` occurs in an argument. -/
def Remaps (argument : String) : Prop := [':', '='] <:+: argument.toList

instance (argument : String) : Decidable (Remaps argument) :=
  inferInstanceAs (Decidable ([':', '='] <:+: argument.toList))

/-- The program's own name, and what follows it without the arguments that hold `:=`. -/
def leftOver : List String → List String
  | [] => []
  | program :: arguments => program :: arguments.filter fun a => ¬ Remaps a

theorem occursIn_iff {needle hay : List Char} : occursIn needle hay = true ↔ needle <:+: hay := by
  induction hay with
  | nil =>
    unfold occursIn
    rw [List.isEmpty_iff, List.infix_nil]
  | cons c cs ih =>
    unfold occursIn
    rw [Bool.or_eq_true, ih, List.isPrefixOf_iff_prefix, List.infix_cons_iff]

theorem unused_eq (arguments : List String) : unused arguments = leftOver arguments := by
  cases arguments with
  | nil => rfl
  | cons program arguments =>
    unfold unused leftOver
    refine congrArg (program :: ·) (List.filter_congr fun a _ => ?_)
    rw [Bool.eq_iff_iff, Bool.not_eq_true', ← Bool.not_eq_true, isRemapping, occursIn_iff,
      decide_eq_true_iff]
    exact Iff.rfl

/-- A text that denotes an integer has no `:=` in it. -/
theorem not_remaps_of_denotes {s : String} {n : Int} (h : Decimal.Denotes s.toList n) :
    ¬ Remaps s := by
  have hdigits : ∀ ds, Decimal.IsNumber ds → ':' ∉ ds := fun ds hds hmem =>
    absurd (hds.2 _ hmem) (by decide)
  intro hremaps
  have hmem : ':' ∈ s.toList := hremaps.subset List.mem_cons_self
  generalize s.toList = cs at h hmem
  cases h with
  | plain _ h => exact hdigits _ h hmem
  | plus ds h => exact (List.mem_cons.mp hmem).elim (by decide) (hdigits ds h)
  | minus ds h => exact (List.mem_cons.mp hmem).elim (by decide) (hdigits ds h)

end Arguments

/-! ## The operands -/

namespace Operands

open Arguments (Remaps leftOver)

/-- The argument at a position denotes an integer that has a 64-bit form. -/
def At (arguments : List String) (position : Nat) (n : Int) : Prop :=
  ∃ s, arguments[position]? = some s ∧ Decimal.Denotes s.toList n ∧ Decimal.Fits n

/-- The errors about a position at which no operand is. -/
inductive Blames (arguments : List String) (position : Nat) : Error → Prop where
  | missing (h : arguments[position]? = none) :
    Blames arguments position (Cause.missingArgument position)
  | unreadable (s : String) (fault : Decimal.Fault) (h : arguments[position]? = some s)
    (hnone : ∀ n, ¬ At arguments position n) (hread : Decimal.read s = .error fault) :
    Blames arguments position (Cause.operand fault)

variable {arguments : List String} {position : Nat} {a : Int64} {e : Error}

theorem readAt_eq_ok_iff :
    readAt arguments position = .ok a ↔ At arguments position a.toInt := by
  unfold readAt At
  cases arguments[position]? with
  | none => simp
  | some s =>
    simp only [Option.some.injEq, exists_eq_left', ← Decimal.read_eq_ok_iff]
    rw [and_iff_left (Decimal.fits_toInt a)]
    cases Decimal.read s <;> simp

/-- An integer in range is a 64-bit integer. -/
theorem exists_at_iff :
    (∃ n, At arguments position n) ↔ ∃ a, readAt arguments position = .ok a := by
  constructor
  · rintro ⟨n, s, hs, hdenotes, hfits⟩
    have htoInt : (Int64.ofInt n).toInt = n :=
      Int64.toInt_ofInt_of_le hfits.1 (Int.lt_of_le_sub_one hfits.2)
    refine ⟨Int64.ofInt n, readAt_eq_ok_iff.mpr ?_⟩
    rw [htoInt]
    exact ⟨s, hs, hdenotes, hfits⟩
  · rintro ⟨a, ha⟩
    exact ⟨a.toInt, readAt_eq_ok_iff.mp ha⟩

theorem readAt_eq_error_iff :
    readAt arguments position = .error e ↔ Blames arguments position e := by
  have hrefused : (∀ a, readAt arguments position ≠ .ok a) ↔ ∀ n, ¬ At arguments position n := by
    rw [← not_exists, ← not_exists, exists_at_iff]
  constructor
  · intro h
    have hnone := hrefused.mp fun a ha => by rw [h] at ha; cases ha
    unfold readAt at h
    split at h
    next hmissing =>
      rw [← Except.error.inj h]
      exact .missing hmissing
    next s hs =>
      split at h
      next => cases h
      next fault hread =>
        rw [← Except.error.inj h]
        exact .unreadable s fault hs hnone hread
  · intro h
    unfold readAt
    cases h with
    | missing h => rw [h]
    | unreadable s fault h _ hread => simp only [h, hread]

/-- The first operand is read before anybody looks at the second. -/
theorem ofArguments_cases (arguments : List String) :
    (∃ e, readAt (leftOver arguments) 1 = .error e ∧ ofArguments arguments = .error e) ∨
    ∃ a, readAt (leftOver arguments) 1 = .ok a ∧
      ((∃ e, readAt (leftOver arguments) 2 = .error e ∧ ofArguments arguments = .error e) ∨
      ∃ b, readAt (leftOver arguments) 2 = .ok b ∧ ofArguments arguments = .ok ⟨a, b⟩) := by
  unfold ofArguments
  simp only [Arguments.unused_eq]
  cases readAt (leftOver arguments) 1 with
  | error e => exact .inl ⟨e, rfl, rfl⟩
  | ok a =>
    refine .inr ⟨a, rfl, ?_⟩
    cases readAt (leftOver arguments) 2 with
    | error e => exact .inl ⟨e, rfl, rfl⟩
    | ok b => exact .inr ⟨b, rfl, rfl⟩

theorem ofArguments_eq_ok_iff {o : Operands} :
    ofArguments arguments = .ok o ↔
      readAt (leftOver arguments) 1 = .ok o.a ∧ readAt (leftOver arguments) 2 = .ok o.b := by
  rcases ofArguments_cases arguments with ⟨e, h1, h⟩ | ⟨a, h1, ⟨e, h2, h⟩ | ⟨b, h2, h⟩⟩
  · simp [h1, h]
  · simp [h2, h]
  · cases o
    simp [h1, h2, h]

theorem ofArguments_eq_error_iff :
    ofArguments arguments = .error e ↔ readAt (leftOver arguments) 1 = .error e ∨
      (∃ a, readAt (leftOver arguments) 1 = .ok a) ∧ readAt (leftOver arguments) 2 = .error e := by
  rcases ofArguments_cases arguments with ⟨e, h1, h⟩ | ⟨a, h1, ⟨e, h2, h⟩ | ⟨b, h2, h⟩⟩
  · simp [h1, h]
  · simp [h1, h2, h]
  · simp [h1, h2, h]

/-- Remappings before and between two arguments that are none are as good as not there. -/
theorem leftOver_operands (program s t : String) (before between rest : List String)
    (hremaps : ∀ r ∈ before ++ between, Remaps r) (hs : ¬ Remaps s) (ht : ¬ Remaps t) :
    leftOver (program :: (before ++ s :: (between ++ t :: rest))) =
      program :: s :: t :: rest.filter fun a => ¬ Remaps a := by
  have hgone : ∀ rs : List String, (∀ r ∈ rs, Remaps r) →
      (rs.filter fun a => ¬ Remaps a) = [] := fun rs hrs =>
    List.filter_eq_nil_iff.mpr fun r hr => by simpa using hrs r hr
  show program :: (before ++ s :: (between ++ t :: rest)).filter (fun a => ¬ Remaps a) = _
  rw [List.filter_append, hgone before fun r hr => hremaps r (List.mem_append_left _ hr),
    List.nil_append, List.filter_cons_of_pos (by simpa using hs), List.filter_append,
    hgone between fun r hr => hremaps r (List.mem_append_right _ hr), List.nil_append,
    List.filter_cons_of_pos (by simpa using ht)]

/-- **Operands are found exactly if they are there.** What counts are the first two
arguments that are no remappings. There are operands if and only if both denote integers
that have a 64-bit form, and then these are the operands. Otherwise the error is about the
first of the two positions at which there is none: the argument is missing, or it cannot be
read. Two operands that are written out are found among any remappings. -/
theorem operands_parsed (arguments : List String) :
    ((∃ o, ofArguments arguments = .ok o) ↔
      (∃ n, At (leftOver arguments) 1 n) ∧ ∃ n, At (leftOver arguments) 2 n) ∧
    (∀ o, ofArguments arguments = .ok o ↔
      At (leftOver arguments) 1 o.a.toInt ∧ At (leftOver arguments) 2 o.b.toInt) ∧
    (∀ e, ofArguments arguments = .error e ↔
      Blames (leftOver arguments) 1 e ∨
        (∃ n, At (leftOver arguments) 1 n) ∧ Blames (leftOver arguments) 2 e) ∧
    ∀ (program : String) (before between rest : List String) (a b : Int64),
      (∀ r ∈ before ++ between, Remaps r) →
      ofArguments (program ::
        (before ++ Decimal.write a :: (between ++ Decimal.write b :: rest))) = .ok ⟨a, b⟩ := by
  refine ⟨?_, fun o => ?_, fun e => ?_, fun program before between rest a b hremaps => ?_⟩
  · rw [exists_at_iff, exists_at_iff]
    simp only [ofArguments_eq_ok_iff]
    exact ⟨fun ⟨o, ha, hb⟩ => ⟨⟨o.a, ha⟩, o.b, hb⟩, fun ⟨⟨a, ha⟩, b, hb⟩ => ⟨⟨a, b⟩, ha, hb⟩⟩
  · rw [ofArguments_eq_ok_iff, readAt_eq_ok_iff, readAt_eq_ok_iff]
  · rw [ofArguments_eq_error_iff, readAt_eq_error_iff, readAt_eq_error_iff, exists_at_iff]
  · have hleft : leftOver (program ::
        (before ++ Decimal.write a :: (between ++ Decimal.write b :: rest))) = _ :=
      leftOver_operands program _ _ before between rest hremaps
        (Arguments.not_remaps_of_denotes (Decimal.denotes_write a))
        (Arguments.not_remaps_of_denotes (Decimal.denotes_write b))
    rw [ofArguments_eq_ok_iff, readAt_eq_ok_iff, readAt_eq_ok_iff, hleft]
    exact ⟨⟨_, rfl, Decimal.denotes_write a, Decimal.fits_toInt a⟩,
      ⟨_, rfl, Decimal.denotes_write b, Decimal.fits_toInt b⟩⟩

/-- A program whose own name looks like a remapping, a remapping before and between the
operands, and one argument too many. -/
theorem operands_parsed_among_remappings :
    (∀ r ∈ ["__name:=c"] ++ ["a:=b"], Remaps r) ∧
    ofArguments ["x:=y", "__name:=c", "3", "a:=b", "-4", "5"] = .ok ⟨3, -4⟩ := by
  have hremaps : ∀ r ∈ ["__name:=c"] ++ ["a:=b"], Remaps r := by decide
  exact ⟨hremaps,
    (operands_parsed []).2.2.2 "x:=y" ["__name:=c"] ["a:=b"] ["5"] 3 (-4) hremaps⟩

/-- The second operand is out of range by one. -/
example : ofArguments ["x:=y", "+03", "9223372036854775808"] =
    .error (Cause.operand .tooLarge) := by
  decide +kernel

end Operands

end NodeGraph
