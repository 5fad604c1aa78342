import Mathlib.Data.List.Basic
import NodeGraph.Proofs.Wire.Payloads

/-!
# Where reading goes wrong

A message is read field by field: words, texts behind the count of their bytes, and
lists of texts behind the count of the texts. This file says without mention of
decoders how far a reader gets in some bytes.

> `Reaches`: all fields before a certain one are good, and these bytes are left when
> it is that one's turn. A field is good if all the bytes it needs are there and, if
> it is a text, they are a text's.

What a decoder makes of the bytes is settled by the first field that is not good,
and there is only one such place:

> `Decoder.Walks`: a decoder gets past all fields if it gives a value, and otherwise
> fails at a field for the reason it gives.

Since bytes that are added at the end never turn a good field bad, nor make a text
out of bytes that are none, a failure can be undone in this way only if bytes were
missing.

> `readings_classified`: all types of messages are read like this.
-/

namespace NodeGraph.Wire

variable {α β : Type}

/-! ## Fields -/

/-- What a message consists of. -/
inductive Field where
  /-- A word of that many bytes. -/
  | word (size : Nat)
  /-- A text behind the count of its bytes. -/
  | text
  /-- The count of a list of texts, each of which is a field of its own. -/
  | texts
deriving DecidableEq, Repr

/-- The number that the first four bytes write. -/
def announced (bs : Bytes) : Nat := Word.value (bs.take 4)

/-- The bytes of a text whose count stands in front. -/
def content (bs : Bytes) : Bytes := (bs.drop 4).take (announced bs)

/-- Whether bytes are a text in UTF-8. -/
def IsText (bs : Bytes) : Prop := ∃ s : String, s.toUTF8.data.toList = bs

namespace Field

/-- How many bytes a field needs of those that begin with it. -/
def needs (bs : Bytes) : Field → Nat
  | .word size => size
  | .text => 4 + announced bs
  | .texts => 4

/-- The fields that a field announces. -/
def announces (bs : Bytes) : Field → List Field
  | .texts => List.replicate (announced bs) .text
  | _ => []

/-- Whether the field can be read: its bytes are there, and a text's are a text. -/
structure Good (field : Field) (bs : Bytes) : Prop where
  enough : field.needs bs ≤ bs.length
  isText : field = .text → IsText (content bs)

/-- Whether a field cannot be read for that reason. -/
def Fails (field : Field) (bs : Bytes) : Fault → Prop
  | .endOfInput => bs.length < field.needs bs
  | .notText fault =>
    field = .text ∧ field.needs bs ≤ bs.length ∧ Utf8.decode (content bs) = .error fault
  | .refused _ => False

end Field

/-- Reading some fields in order gets to `later`, with `rest` left to read: all fields
before are good. -/
inductive Reaches : List Field → Bytes → List Field → Bytes → Prop where
  | here {fields : List Field} {bs : Bytes} : Reaches fields bs fields bs
  | past {field : Field} {fields later : List Field} {bs rest : Bytes} (good : field.Good bs)
      (next : Reaches (field.announces bs ++ fields) (bs.drop (field.needs bs)) later rest) :
      Reaches (field :: fields) bs later rest

/-- Whether reading goes no further: there are no more fields, or the next one is not
good. -/
def AtEnd (later : List Field) (rest : Bytes) : Prop :=
  ∀ field more, later = field :: more → ¬ field.Good rest

/-! ## Texts -/

theorem isText_iff {bs : Bytes} : IsText bs ↔ ∃ s, Utf8.decode bs = .ok s := by
  constructor
  · intro h
    obtain ⟨s, rfl⟩ := h
    exact ⟨s, Utf8.decode_eq_ok_iff.mpr (Utf8.encode_eq_toUTF8 s).symm⟩
  · intro h
    obtain ⟨s, hs⟩ := h
    exact ⟨s, (Utf8.encode_eq_toUTF8 s).symm.trans (Utf8.decode_eq_ok_iff.mp hs).symm⟩

theorem not_isText_iff {bs : Bytes} : ¬ IsText bs ↔ ∃ fault, Utf8.decode bs = .error fault := by
  rw [isText_iff]
  cases Utf8.decode bs <;> simp

/-! ## Fields and what follows them -/

section

variable {field : Field} {fields later more : List Field} {bs rest tail : Bytes} {fault : Fault}

/-- What has enough bytes needs no more of them when there are more. -/
theorem announced_append (h : 4 ≤ bs.length) (tail : Bytes) :
    announced (bs ++ tail) = announced bs := by
  unfold announced
  rw [List.take_append_of_le_length h]

theorem Field.needs_append (h : field.needs bs ≤ bs.length) (tail : Bytes) :
    field.needs (bs ++ tail) = field.needs bs := by
  cases field with
  | word size => rfl
  | text =>
    have hfour : 4 + announced bs ≤ bs.length := h
    show 4 + announced (bs ++ tail) = _
    rw [announced_append (by omega)]
    rfl
  | texts => rfl

theorem Field.announces_append (h : field.needs bs ≤ bs.length) (tail : Bytes) :
    field.announces (bs ++ tail) = field.announces bs := by
  cases field with
  | word size => rfl
  | text => rfl
  | texts =>
    show List.replicate (announced (bs ++ tail)) _ = _
    rw [announced_append h]
    rfl

theorem content_append (h : Field.text.needs bs ≤ bs.length) (tail : Bytes) :
    content (bs ++ tail) = content bs := by
  have hlen : 4 + announced bs ≤ bs.length := h
  unfold content
  rw [announced_append (by omega), List.drop_append_of_le_length (by omega),
    List.take_append_of_le_length (by rw [List.length_drop]; omega)]

theorem Field.Good.append (h : field.Good bs) (tail : Bytes) : field.Good (bs ++ tail) := by
  refine ⟨?_, ?_⟩
  · rw [Field.needs_append h.enough, List.length_append]
    exact Nat.le_add_right_of_le h.enough
  · intro htext
    subst htext
    rw [content_append h.enough]
    exact h.isText rfl

/-- Bytes that are no text do not become one by what follows them. -/
theorem Field.Fails.append {fault : Utf8.Fault} (h : field.Fails bs (.notText fault))
    (tail : Bytes) : field.Fails (bs ++ tail) (.notText fault) := by
  obtain ⟨rfl, henough, hdecode⟩ := h
  refine ⟨rfl, ?_, ?_⟩
  · rw [Field.needs_append henough, List.length_append]
    exact Nat.le_add_right_of_le henough
  · rw [content_append henough]
    exact hdecode

/-- A field that fails is not good. -/
theorem Field.Fails.not_good (h : field.Fails bs fault) : ¬ field.Good bs := by
  intro hgood
  cases fault with
  | endOfInput => exact Nat.not_lt.mpr hgood.enough h
  | notText fault =>
    obtain ⟨htext, -, hdecode⟩ := h
    exact not_isText_iff.mpr ⟨fault, hdecode⟩ (hgood.isText htext)
  | refused reason => exact h

/-- A field fails for one reason. -/
theorem Field.Fails.unique {fault' : Fault} (h : field.Fails bs fault)
    (h' : field.Fails bs fault') : fault = fault' := by
  cases fault with
  | endOfInput =>
    cases fault' with
    | endOfInput => rfl
    | notText fault' => exact absurd h (Nat.not_lt.mpr h'.2.1)
    | refused reason => exact h'.elim
  | notText fault =>
    cases fault' with
    | endOfInput => exact absurd h' (Nat.not_lt.mpr h.2.1)
    | notText fault' =>
      have hboth := h.2.2
      rw [h'.2.2] at hboth
      rw [Except.error.inj hboth]
    | refused reason => exact h'.elim
  | refused reason => exact h.elim

theorem atEnd_nil : AtEnd [] rest := by
  intro field more h
  cases h

theorem Field.Fails.atEnd (h : field.Fails rest fault) : AtEnd (field :: later) rest := by
  intro other more heq
  obtain ⟨rfl, -⟩ := List.cons.inj heq
  exact h.not_good

/-! ## How far reading gets -/

namespace Reaches

theorem one (good : field.Good bs) :
    Reaches (field :: fields) bs (field.announces bs ++ fields) (bs.drop (field.needs bs)) :=
  .past good .here

theorem trans {fields' : List Field} {rest' : Bytes} (h : Reaches fields bs later rest)
    (h' : Reaches later rest fields' rest') : Reaches fields bs fields' rest' := by
  induction h with
  | here => exact h'
  | past good _ ih => exact .past good (ih h')

/-- Fields that come after those to be read make no difference. -/
theorem before (h : Reaches fields bs later rest) (more : List Field) :
    Reaches (fields ++ more) bs (later ++ more) rest := by
  induction h with
  | here => exact .here
  | past good _ ih =>
    rw [List.append_assoc] at ih
    exact .past good ih

/-- Bytes that come after those to be read make none either. -/
theorem append (h : Reaches fields bs later rest) (tail : Bytes) :
    Reaches fields (bs ++ tail) later (rest ++ tail) := by
  induction h with
  | here => exact .here
  | past good _ ih =>
    refine .past (good.append tail) ?_
    rw [Field.announces_append good.enough, Field.needs_append good.enough,
      List.drop_append_of_le_length good.enough]
    exact ih

/-- Whatever reading gets to, it goes on from there to where it ends. -/
theorem to_end (h : Reaches fields bs later rest) (hend : AtEnd later rest)
    {later' : List Field} {rest' : Bytes} (h' : Reaches fields bs later' rest') :
    Reaches later' rest' later rest := by
  induction h' with
  | here => exact h
  | past good _ ih =>
    cases h with
    | here => exact absurd good (hend _ _ rfl)
    | past _ next => exact ih next

/-- There is one place where it ends. -/
theorem unique (h : Reaches fields bs later rest) (hend : AtEnd later rest)
    {later' : List Field} {rest' : Bytes} (h' : Reaches fields bs later' rest')
    (hend' : AtEnd later' rest') : later' = later ∧ rest' = rest := by
  cases h.to_end hend h' with
  | here => exact ⟨rfl, rfl⟩
  | past good _ => exact absurd good (hend' _ _ rfl)

end Reaches

end

/-! ## Decoders that fail -/

namespace Decoder

variable {bs : Bytes} {fault : Fault}

/-- One decoder after another fails if the first does, or the second on what the first
leaves. -/
theorem bind_eq_error_iff {d : Decoder α} {f : α → Decoder β} :
    (d >>= f) bs = .error fault ↔
      d bs = .error fault ∨ ∃ a mid, d bs = .ok (a, mid) ∧ f a mid = .error fault := by
  show (d bs >>= fun p => f p.1 p.2) = .error fault ↔ _
  cases h : d bs with
  | error other =>
    show Except.error other = Except.error fault ↔ _
    simp
  | ok p =>
    show f p.1 p.2 = .error fault ↔ _
    constructor
    · intro he
      exact .inr ⟨p.1, p.2, rfl, he⟩
    · intro he
      rcases he with he | ⟨a, mid, hp, hf⟩
      · cases he
      · rw [Except.ok.inj hp]
        exact hf

theorem take_eq_error_iff {n : Nat} :
    take n bs = .error fault ↔ bs.length < n ∧ fault = .endOfInput := by
  unfold take
  split
  next h => exact iff_of_false (by simp) (fun hboth => Nat.not_lt.mpr h hboth.1)
  next h => simp [Nat.lt_of_not_le h, eq_comm]

/-- A word fails for want of bytes only. -/
theorem word_eq_error_iff {n : Nat} :
    word n bs = .error fault ↔ bs.length < n ∧ fault = .endOfInput := by
  unfold word
  rw [bind_eq_error_iff, take_eq_error_iff]
  refine or_iff_left ?_
  intro h
  obtain ⟨taken, mid, -, hpure⟩ := h
  cases hpure

/-- A text fails for want of bytes, or because they are no text. -/
theorem text_eq_error_iff {n : Nat} : text n bs = .error fault ↔
    (bs.length < n ∧ fault = .endOfInput) ∨
      n ≤ bs.length ∧ ∃ f, Utf8.decode (bs.take n) = .error f ∧ fault = .notText f := by
  unfold text
  rw [bind_eq_error_iff, take_eq_error_iff]
  refine or_congr_right ?_
  constructor
  · intro h
    obtain ⟨taken, mid, htake, hread⟩ := h
    obtain ⟨rfl, rfl⟩ := take_eq_ok_iff.mp htake
    rw [List.take_left, List.length_append]
    refine ⟨Nat.le_add_right _ _, ?_⟩
    cases hdecode : Utf8.decode taken with
    | ok s =>
      rw [hdecode] at hread
      cases hread
    | error f =>
      rw [hdecode] at hread
      exact ⟨f, rfl, (Except.error.inj hread).symm⟩
  · intro h
    obtain ⟨hn, f, hdecode, rfl⟩ := h
    refine ⟨bs.take n, bs.drop n, ?_, ?_⟩
    · unfold take
      rw [if_pos hn]
    · rw [hdecode]
      rfl

/-- A decoder reads some fields: it gives a value if it gets past all of them, and else
fails where and because one of them does. -/
structure Walks (d : Decoder α) (fields : List Field) : Prop where
  ends : ∀ bs v rest, d bs = .ok (v, rest) → Reaches fields bs [] rest
  stops : ∀ bs fault, d bs = .error fault →
    ∃ field later rest, Reaches fields bs (field :: later) rest ∧ field.Fails rest fault

namespace Walks

variable {d : Decoder α} {e : Decoder β} {fields fields' : List Field}

theorem pure (a : α) : (pure a : Decoder α).Walks [] := by
  refine ⟨fun bs v rest h => ?_, fun bs fault h => ?_⟩
  · obtain ⟨-, rfl⟩ := pure_eq_ok_iff.mp h
    exact .here
  · cases h

/-- The fields of one decoder come before those of the next. -/
theorem bind {f : α → Decoder β} (h : d.Walks fields) (h' : ∀ a, (f a).Walks fields') :
    (d >>= f).Walks (fields ++ fields') := by
  refine ⟨fun bs v rest hok => ?_, fun bs fault herror => ?_⟩
  · obtain ⟨a, mid, hd, hf⟩ := bind_eq_ok_iff.mp hok
    exact ((h.ends _ _ _ hd).before fields').trans ((h' a).ends _ _ _ hf)
  · rcases bind_eq_error_iff.mp herror with hd | ⟨a, mid, hd, hf⟩
    · obtain ⟨field, later, rest, hreach, hfails⟩ := h.stops _ _ hd
      exact ⟨field, later ++ fields', rest, hreach.before fields', hfails⟩
    · obtain ⟨field, later, rest, hreach, hfails⟩ := (h' a).stops _ _ hf
      exact ⟨field, later, rest, ((h.ends _ _ _ hd).before fields').trans hreach, hfails⟩

/-- What is made of a value in the end is not read. -/
theorem made (h : d.Walks fields) (make : α → β) :
    (d >>= fun a => Pure.pure (make a)).Walks fields := by
  have hboth := h.bind fun a => Walks.pure (make a)
  rw [List.append_nil] at hboth
  exact hboth

theorem word (n : Nat) : (Decoder.word n).Walks [.word n] := by
  refine ⟨fun bs v rest hok => ?_, fun bs fault herror => ?_⟩
  · obtain ⟨-, rfl⟩ := word_eq_ok_iff.mp hok
    have hgood : (Field.word n).Good (Word.bytes n v ++ rest) := by
      refine ⟨?_, fun htext => nomatch htext⟩
      show n ≤ _
      rw [List.length_append, Word.length_bytes]
      exact Nat.le_add_right _ _
    have hone : Reaches [.word n] _ [] _ := Reaches.one hgood
    have hdrop : (Word.bytes n v ++ rest).drop ((Field.word n).needs (Word.bytes n v ++ rest)) =
        rest := List.drop_left' (Word.length_bytes n v)
    rw [hdrop] at hone
    exact hone
  · obtain ⟨hlt, rfl⟩ := word_eq_error_iff.mp herror
    exact ⟨.word n, [], bs, .here, hlt⟩

theorem u32 : Codec.u32.decode.Walks [.word 4] := (word 4).made UInt32.ofNat

theorem i8 : Codec.i8.decode.Walks [.word 1] := (word 1).made fun n => (UInt8.ofNat n).toInt8

theorem i64 : Codec.i64.decode.Walks [.word 8] := (word 8).made fun n => (UInt64.ofNat n).toInt64

/-- A count fails for want of its four bytes only. -/
theorem count_eq_error_iff : Codec.u32.decode bs = .error fault ↔
    bs.length < 4 ∧ fault = .endOfInput := by
  show (Decoder.word 4 >>= fun n => Pure.pure (UInt32.ofNat n)) bs = .error fault ↔ _
  rw [bind_eq_error_iff, word_eq_error_iff]
  refine or_iff_left ?_
  intro h
  obtain ⟨n, mid, -, hpure⟩ := h
  cases hpure

/-- A count that is read is the number announced, and four bytes are gone. -/
theorem announced_of_count {n : UInt32} {mid : Bytes} (h : Codec.u32.decode bs = .ok (n, mid)) :
    4 ≤ bs.length ∧ n.toNat = announced bs ∧ mid = bs.drop 4 := by
  obtain rfl := Codec.Faithful.eq_count h
  have hcount := Codec.Faithful.length_count n.toNat
  refine ⟨?_, ?_, (List.drop_left' hcount).symm⟩
  · rw [List.length_append, hcount]
    exact Nat.le_add_right _ _
  · unfold announced
    rw [List.take_left' hcount]
    show _ = Word.value (Word.bytes 4 (UInt32.ofNat n.toNat).toNat)
    rw [UInt32.ofNat_toNat, Word.value_bytes]
    exact (Nat.mod_eq_of_lt n.toNat_lt).symm

/-- A text is one field, though its count is read first. -/
theorem text : Codec.text.decode.Walks [.text] := by
  refine ⟨fun bs s rest hok => ?_, fun bs fault herror => ?_⟩
  · obtain ⟨n, mid, hn, hs⟩ := bind_eq_ok_iff.mp hok
    obtain ⟨hfour, hcount, rfl⟩ := announced_of_count hn
    obtain ⟨hlen, hbs⟩ := text_eq_ok_iff.mp hs
    rw [hcount] at hlen
    have hsum := congrArg List.length hbs
    rw [List.length_drop, List.length_append, hlen] at hsum
    have hgood : Field.text.Good bs := by
      refine ⟨?_, fun _ => ⟨s, ?_⟩⟩
      · show 4 + announced bs ≤ bs.length
        omega
      · unfold content
        rw [hbs, List.take_left' hlen, Utf8.encode_eq_toUTF8]
    have hone : Reaches [.text] _ [] _ := Reaches.one hgood
    have hdrop : bs.drop (Field.text.needs bs) = rest := by
      show bs.drop (4 + announced bs) = rest
      rw [← List.drop_drop, hbs, List.drop_left' hlen]
    rw [hdrop] at hone
    exact hone
  · refine ⟨.text, [], bs, .here, ?_⟩
    rcases bind_eq_error_iff.mp herror with hn | ⟨n, mid, hn, hs⟩
    · obtain ⟨hlt, rfl⟩ := count_eq_error_iff.mp hn
      show bs.length < 4 + announced bs
      omega
    · obtain ⟨hfour, hcount, rfl⟩ := announced_of_count hn
      rw [text_eq_error_iff, hcount, List.length_drop] at hs
      rcases hs with ⟨hlt, rfl⟩ | ⟨hle, f, hdecode, rfl⟩
      · show bs.length < 4 + announced bs
        omega
      · refine ⟨rfl, ?_, hdecode⟩
        show 4 + announced bs ≤ bs.length
        omega

theorem times (h : d.Walks [.text]) (n : Nat) :
    (Decoder.times d n).Walks (List.replicate n .text) := by
  induction n with
  | zero => exact pure []
  | succ n ih => exact h.bind fun a => ih.made fun as => a :: as

/-- A list announces its elements, and they are read as fields of their own. -/
theorem texts : (Codec.list Codec.text).decode.Walks [.texts] := by
  refine ⟨fun bs ss rest hok => ?_, fun bs fault herror => ?_⟩
  · obtain ⟨n, mid, hn, hss⟩ := bind_eq_ok_iff.mp hok
    obtain ⟨hfour, hcount, rfl⟩ := announced_of_count hn
    rw [hcount] at hss
    have hgood : Field.texts.Good bs := ⟨hfour, fun htext => nomatch htext⟩
    exact (Reaches.one hgood).trans (((text.times _).ends _ _ _ hss).before [])
  · rcases bind_eq_error_iff.mp herror with hn | ⟨n, mid, hn, hss⟩
    · obtain ⟨hlt, rfl⟩ := count_eq_error_iff.mp hn
      exact ⟨.texts, [], bs, .here, hlt⟩
    · obtain ⟨hfour, hcount, rfl⟩ := announced_of_count hn
      rw [hcount] at hss
      have hgood : Field.texts.Good bs := ⟨hfour, fun htext => nomatch htext⟩
      obtain ⟨field, later, rest, hreach, hfails⟩ := (text.times _).stops _ _ hss
      rw [← List.append_nil (List.replicate _ _)] at hreach
      exact ⟨field, later, rest, (Reaches.one hgood).trans hreach, hfails⟩

theorem pair {a : Codec α} {b : Codec β} (ha : a.decode.Walks fields)
    (hb : b.decode.Walks fields') : (a.pair b).decode.Walks (fields ++ fields') :=
  ha.bind fun x => hb.made fun y => (x, y)

theorem map {c : Codec α} (h : c.decode.Walks fields) (make : α → β) (view : β → α) :
    (c.map make view).decode.Walks fields := h.made make

/-! ### What a decoder that reads fields makes of bytes -/

/-- It gives a value exactly if it gets past all fields. -/
theorem ok_iff (h : d.Walks fields) {rest : Bytes} :
    (∃ v, d bs = .ok (v, rest)) ↔ Reaches fields bs [] rest := by
  constructor
  · intro hok
    obtain ⟨v, hv⟩ := hok
    exact h.ends _ _ _ hv
  · intro hreach
    cases hread : d bs with
    | ok p =>
      obtain ⟨-, hrest⟩ := hreach.unique atEnd_nil (h.ends _ _ _ hread) atEnd_nil
      exact ⟨p.1, by rw [← hrest]⟩
    | error fault =>
      obtain ⟨field, later, rest', hstop, hfails⟩ := h.stops _ _ hread
      obtain ⟨hnil, -⟩ := hreach.unique atEnd_nil hstop hfails.atEnd
      cases hnil

/-- It fails for a reason exactly if some field does. -/
theorem error_iff (h : d.Walks fields) : d bs = .error fault ↔
    ∃ field later rest, Reaches fields bs (field :: later) rest ∧ field.Fails rest fault := by
  constructor
  · exact h.stops _ _
  · intro hstop
    obtain ⟨field, later, rest, hreach, hfails⟩ := hstop
    cases hread : d bs with
    | ok p =>
      obtain ⟨hnil, -⟩ :=
        hreach.unique hfails.atEnd (h.ends _ _ _ hread) atEnd_nil
      cases hnil
    | error fault' =>
      obtain ⟨field', later', rest', hreach', hfails'⟩ := h.stops _ _ hread
      obtain ⟨hlater, rfl⟩ := hreach.unique hfails.atEnd hreach' hfails'.atEnd
      obtain ⟨rfl, -⟩ := List.cons.inj hlater
      rw [hfails.unique hfails']

/-- Bytes that are no text stay none. -/
theorem notText_append {f : Utf8.Fault} (h : d.Walks fields)
    (herror : d bs = .error (.notText f)) (tail : Bytes) :
    d (bs ++ tail) = .error (.notText f) := by
  obtain ⟨field, later, rest, hreach, hfails⟩ := h.error_iff.mp herror
  exact h.error_iff.mpr ⟨field, later, rest ++ tail, hreach.append tail, hfails.append tail⟩

/-- It never refuses, so there are two kinds of failure. -/
theorem cases_error (h : d.Walks fields) (herror : d bs = .error fault) :
    fault = .endOfInput ∨ ∃ f, fault = .notText f := by
  obtain ⟨field, later, rest, -, hfails⟩ := h.stops _ _ herror
  cases fault with
  | endOfInput => exact .inl rfl
  | notText f => exact .inr ⟨f, rfl⟩
  | refused reason => exact hfails.elim

end Walks

end Decoder

end NodeGraph.Wire

namespace NodeGraph

open Wire
open Wire.Decoder.Walks (text texts u32 i8 i64)

variable {α : Type}

/-- What comes of reading the front of a body: a value, or why there is none. -/
def Format.outcome (f : Format α) (body : Bytes) : Except Fault α := (f.decode body).map Prod.fst

/-- Reading goes along some fields, and fails as the first one does that is not good. -/
structure Format.Judges (f : Format α) (fields : List Field) (fits : α → Prop) : Prop where
  /-- There is a value, and something left, exactly if all fields are good. -/
  reads_iff : ∀ bs rest, (∃ v, f.decode bs = .ok (v, rest)) ↔ Reaches fields bs [] rest
  /-- Bytes are missing exactly if some field, all before it being good, needs more than
  are left. -/
  ends_iff : ∀ bs, f.decode bs = .error .endOfInput ↔
    ∃ field later rest, Reaches fields bs (field :: later) rest ∧ rest.length < field.needs rest
  /-- There is no text exactly if some field, all before it being good, is a text, and its
  bytes are all there but no text. -/
  notText_iff : ∀ bs, (∃ fault, f.decode bs = .error (.notText fault)) ↔
    ∃ later rest, Reaches fields bs (.text :: later) rest ∧
      Field.text.needs rest ≤ rest.length ∧ ¬ IsText (content rest)
  /-- There is no other failure. -/
  fails : ∀ bs fault, f.decode bs = .error fault →
    fault = .endOfInput ∨ ∃ fault', fault = .notText fault'
  /-- Part of an encoding is missing bytes. -/
  cut : ∀ v body part, fits v → f.encode v = .ok body → part <+: body → part ≠ body →
    f.decode part = .error .endOfInput
  /-- A value uses up some bytes, and neither of them changes with what follows. -/
  keeps : ∀ bs v rest, f.decode bs = .ok (v, rest) →
    ∃ used, bs = used ++ rest ∧ ∀ tail, f.decode (bs ++ tail) = .ok (v, rest ++ tail)
  /-- Nor does it make a text out of what is none. -/
  keeps_notText : ∀ bs fault tail, f.decode bs = .error (.notText fault) →
    f.decode (bs ++ tail) = .error (.notText fault)
  /-- The four bytes of the frame are skipped. -/
  framed : ∀ frame body, frame.length = 4 → f.unpack (frame ++ body) = f.outcome body
  /-- Behind part of a frame there is nothing. -/
  unframed : ∀ payload, payload.length < 4 → f.unpack payload = f.outcome []

theorem Format.unpack_eq (f : Format α) (payload : Bytes) :
    f.unpack payload = f.outcome (payload.drop 4) := by
  unfold Format.unpack Format.outcome
  cases f.decode (payload.drop 4) <;> rfl

/-- A faithful codec that goes along some fields judges by them. -/
theorem Wire.Decoder.Walks.judges {c : Codec α} {fields : List Field} {fits : α → Prop}
    (h : c.decode.Walks fields) (hfaithful : c.Faithful fits) :
    (Format.ofCodec c).Judges fields fits := by
  refine ⟨fun bs rest => h.ok_iff, fun bs => h.error_iff, fun bs => ?_,
    fun bs fault => h.cases_error, ?_, ?_,
    fun bs fault tail herror => h.notText_append herror tail, ?_, ?_⟩
  · constructor
    · intro hnot
      obtain ⟨fault, herror⟩ := hnot
      obtain ⟨field, later, rest, hreach, rfl, henough, hdecode⟩ := h.error_iff.mp herror
      exact ⟨later, rest, hreach, henough, not_isText_iff.mpr ⟨fault, hdecode⟩⟩
    · intro hnot
      obtain ⟨later, rest, hreach, henough, hbad⟩ := hnot
      obtain ⟨fault, hdecode⟩ := not_isText_iff.mp hbad
      exact ⟨fault, h.error_iff.mpr ⟨.text, later, rest, hreach, rfl, henough, hdecode⟩⟩
  · intro v body part hfits hbody hprefix hne
    obtain rfl := Except.ok.inj hbody
    obtain ⟨tail, htail⟩ := hprefix
    have hwhole : c.decode (c.encode v) = .ok (v, []) :=
      (hfaithful.decode_iff _ _ _).mpr ⟨hfits, (List.append_nil _).symm⟩
    show c.decode part = _
    cases hpart : c.decode part with
    | ok p =>
      -- a value read from a part would leave the tail when read from the whole
      obtain ⟨hfits', rfl⟩ := (hfaithful.decode_iff part p.1 p.2).mp hpart
      rw [← htail, List.append_assoc, (hfaithful.decode_iff _ _ _).mpr ⟨hfits', rfl⟩] at hwhole
      have hnil : p.2 ++ tail = [] := congrArg Prod.snd (Except.ok.inj hwhole)
      rw [(List.append_eq_nil_iff.mp hnil).2, List.append_nil] at htail
      exact absurd htail hne
    | error fault =>
      rcases h.cases_error hpart with rfl | ⟨f, rfl⟩
      · rfl
      · have herror := h.notText_append hpart tail
        rw [htail, hwhole] at herror
        cases herror
  · intro bs v rest hok
    obtain ⟨hfits, hbs⟩ := (hfaithful.decode_iff bs v rest).mp hok
    refine ⟨c.encode v, hbs, fun tail => (hfaithful.decode_iff _ _ _).mpr ⟨hfits, ?_⟩⟩
    rw [hbs, List.append_assoc]
  · intro frame body hframe
    rw [Format.unpack_eq, List.drop_left' hframe]
  · intro payload hshort
    rw [Format.unpack_eq, List.drop_eq_nil_iff.mpr (by omega)]

/-! ## Messages -/

/-- The fields of a record: four of the header, then its own. -/
def Record.fields : List Field :=
  [.word 4, .word 4, .word 4, .text, .word 1, .text, .text, .text, .text, .word 4, .texts]

theorem Header.codec_walks : Header.codec.decode.Walks [.word 4, .word 4, .word 4, .text] :=
  (u32.pair (u32.pair (u32.pair text))).map _ _

theorem Record.codec_walks : Record.codec.decode.Walks Record.fields :=
  (Header.codec_walks.pair (i8.pair (text.pair (text.pair (text.pair (text.pair
    (u32.pair texts))))))).map _ _

/-- **All types of messages are read field by field.** Bytes are missing exactly if the
first field that is not good needs more than are left, there is no text exactly if
that field is a text whose bytes are all there, and there is no other failure. Part of
an encoding is missing bytes; a value and its length, and bytes that are no text, stay
what they are whatever is added to them. The frame of a payload is skipped, also where
it is not all there. A value fits if its texts, and the list, can be counted: others
are written with the count of something else. -/
theorem readings_classified :
    Text.type.Judges [.text] (fun v => Countable v.data) ∧
    Addition.Request.type.Judges [.word 8, .word 8] (fun _ => True) ∧
    Addition.Response.type.Judges [.word 8] (fun _ => True) ∧
    Addition.Pair.type.Judges [] (fun _ => True) ∧
    Record.type.Judges Record.fields Record.Fits := by
  refine ⟨?_, ?_, ?_, ?_, ?_⟩
  · exact (text.map _ _).judges Text.codec_faithful
  · exact ((i64.pair i64).map _ _).judges Addition.Request.codec_faithful
  · exact (i64.map _ _).judges Addition.Response.codec_faithful
  · exact ((Decoder.Walks.pure ()).map _ _).judges Addition.Pair.codec_faithful
  · exact Record.codec_walks.judges Record.codec_faithful

/-- Of nine bytes announced one is there; of the two that are there for two announced,
the second starts no character. -/
example : Text.type.unpack [6, 0, 0, 0, 9, 0, 0, 0, 104] = .error .endOfInput ∧
    Text.type.unpack [6, 0, 0, 0, 2, 0, 0, 0, 104, 255] =
      .error (.notText (.invalid 1 1)) := by
  decide +kernel

end NodeGraph
