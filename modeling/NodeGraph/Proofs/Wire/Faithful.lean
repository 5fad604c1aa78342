import Mathlib.Algebra.Group.Int.Defs
import Mathlib.Algebra.Group.Nat.Defs
import NodeGraph.Proofs.Wire.Characters
import NodeGraph.Wire.Codec

/-!
# Faithful codecs

A codec is put together from words, texts, lists and pairs, and each way of
putting codecs together keeps what we want of them:

> `Faithful`: reading gives a value and leaves a rest exactly if the value fits
> and the input is the value's bytes followed by that rest.

So a field's bytes end where the next field's begin, without either knowing of the
other, and that is all `Faithful.pair` needs. What *fits* is what a word of four
bytes can announce: a text of fewer than 2^32 bytes, a list of fewer than 2^32
elements. A longer one is written with a wrong length and cannot be read back; one
that has been read is never too long.
-/

namespace NodeGraph.Wire

variable {α β : Type}

/-! ## Decoders that succeed -/

namespace Decoder

variable {bs rest : Bytes}

theorem pure_eq_ok_iff {a v : α} :
    (pure a : Decoder α) bs = .ok (v, rest) ↔ a = v ∧ bs = rest := by
  show Except.ok (a, bs) = Except.ok (v, rest) ↔ _
  rw [Except.ok.injEq, Prod.mk.injEq]

/-- One decoder after another succeeds if both do, the second on what the first
leaves. -/
theorem bind_eq_ok_iff {d : Decoder α} {f : α → Decoder β} {v : β} :
    (d >>= f) bs = .ok (v, rest) ↔
      ∃ a mid, d bs = .ok (a, mid) ∧ f a mid = .ok (v, rest) := by
  show (d bs >>= fun p => f p.1 p.2) = .ok (v, rest) ↔ _
  cases h : d bs with
  | error fault =>
    refine iff_of_false ?_ (by simp)
    intro he
    cases he
  | ok p =>
    constructor
    · intro he
      exact ⟨p.1, p.2, rfl, he⟩
    · intro he
      obtain ⟨a, mid, hp, hf⟩ := he
      rw [Except.ok.inj hp]
      exact hf

theorem take_eq_ok_iff {n : Nat} {taken : Bytes} :
    take n bs = .ok (taken, rest) ↔ taken.length = n ∧ bs = taken ++ rest := by
  unfold take
  constructor
  · intro h
    split at h
    next hn =>
      have hpair := Except.ok.inj h
      injection hpair with htaken hrest
      rw [← htaken, ← hrest, List.length_take, Nat.min_eq_left hn, List.take_append_drop]
      exact ⟨rfl, rfl⟩
    next => cases h
  · intro h
    obtain ⟨rfl, rfl⟩ := h
    rw [if_pos (by rw [List.length_append]; omega), List.take_left, List.drop_left]

/-- A word is read exactly if its bytes are there. -/
theorem word_eq_ok_iff {n v : Nat} :
    word n bs = .ok (v, rest) ↔ v < Word.span n ∧ bs = Word.bytes n v ++ rest := by
  unfold word
  rw [bind_eq_ok_iff]
  constructor
  · intro h
    obtain ⟨taken, mid, htake, hpure⟩ := h
    obtain ⟨rfl, rfl⟩ := take_eq_ok_iff.mp htake
    obtain ⟨rfl, rfl⟩ := pure_eq_ok_iff.mp hpure
    rw [Word.bytes_value]
    exact ⟨Word.value_lt taken, rfl⟩
  · intro h
    obtain ⟨hlt, rfl⟩ := h
    refine ⟨Word.bytes n v, rest, take_eq_ok_iff.mpr ⟨Word.length_bytes n v, rfl⟩, ?_⟩
    rw [Word.value_bytes, Nat.mod_eq_of_lt hlt]
    rfl

/-- A text of `n` bytes is read exactly if its bytes are there. -/
theorem text_eq_ok_iff {n : Nat} {s : String} :
    text n bs = .ok (s, rest) ↔ (Utf8.encode s).length = n ∧ bs = Utf8.encode s ++ rest := by
  unfold text
  rw [bind_eq_ok_iff]
  constructor
  · intro h
    obtain ⟨taken, mid, htake, hread⟩ := h
    obtain ⟨rfl, rfl⟩ := take_eq_ok_iff.mp htake
    cases hdecode : Utf8.decode taken with
    | error fault =>
      rw [hdecode] at hread
      cases hread
    | ok t =>
      rw [hdecode] at hread
      obtain ⟨rfl, rfl⟩ := pure_eq_ok_iff.mp hread
      rw [← Utf8.decode_eq_ok_iff.mp hdecode]
      exact ⟨rfl, rfl⟩
  · intro h
    obtain ⟨rfl, rfl⟩ := h
    refine ⟨Utf8.encode s, rest, take_eq_ok_iff.mpr ⟨rfl, rfl⟩, ?_⟩
    rw [Utf8.decode_eq_ok_iff.mpr rfl]
    rfl

end Decoder

/-! ## Faithful codecs -/

namespace Codec

/-- Reading and writing are inverse to each other on the values that fit, and a
value whose bytes can be counted by a word of four fits. -/
structure Faithful (c : Codec α) (fits : α → Prop) : Prop where
  decode_iff : ∀ bs v rest, c.decode bs = .ok (v, rest) ↔ fits v ∧ bs = c.encode v ++ rest
  short : ∀ v, (c.encode v).length < 2 ^ 32 → fits v

namespace Faithful

variable {a : Codec α} {b : Codec β} {fits fits' : α → Prop} {fitsβ : β → Prop}

theorem congr (h : a.Faithful fits) (hfits : ∀ v, fits v ↔ fits' v) : a.Faithful fits' := by
  refine ⟨fun bs v rest => ?_, fun v hv => (hfits v).mp (h.short v hv)⟩
  rw [h.decode_iff, hfits]

theorem unit : Codec.unit.Faithful fun _ => True := by
  refine ⟨fun bs v rest => ?_, fun _ _ => trivial⟩
  refine Decoder.pure_eq_ok_iff.trans ?_
  rw [true_and]
  exact ⟨fun h => h.2, fun h => ⟨rfl, h⟩⟩

theorem pair (ha : a.Faithful fits) (hb : b.Faithful fitsβ) :
    (a.pair b).Faithful fun v => fits v.1 ∧ fitsβ v.2 := by
  refine ⟨fun bs v rest => ?_, fun v hv => ?_⟩
  · show (a.decode >>= fun x => b.decode >>= fun y => pure (x, y)) bs = .ok (v, rest) ↔
      _ ∧ bs = (a.encode v.1 ++ b.encode v.2) ++ rest
    rw [Decoder.bind_eq_ok_iff]
    constructor
    · intro h
      obtain ⟨x, mid, hx, hrest⟩ := h
      obtain ⟨y, mid', hy, hpure⟩ := Decoder.bind_eq_ok_iff.mp hrest
      obtain ⟨rfl, rfl⟩ := Decoder.pure_eq_ok_iff.mp hpure
      obtain ⟨hfx, rfl⟩ := (ha.decode_iff _ _ _).mp hx
      obtain ⟨hfy, rfl⟩ := (hb.decode_iff _ _ _).mp hy
      exact ⟨⟨hfx, hfy⟩, (List.append_assoc _ _ _).symm⟩
    · intro h
      obtain ⟨⟨hfx, hfy⟩, rfl⟩ := h
      refine ⟨v.1, b.encode v.2 ++ rest, ?_, ?_⟩
      · exact (ha.decode_iff _ _ _).mpr ⟨hfx, List.append_assoc _ _ _⟩
      · exact Decoder.bind_eq_ok_iff.mpr
          ⟨v.2, rest, (hb.decode_iff _ _ _).mpr ⟨hfy, rfl⟩, rfl⟩
  · have hlen : (a.encode v.1 ++ b.encode v.2).length < 2 ^ 32 := hv
    rw [List.length_append] at hlen
    exact ⟨ha.short v.1 (by omega), hb.short v.2 (by omega)⟩

/-- The same bytes under another type are as good, if nothing is lost between the
types. -/
theorem map (h : a.Faithful fits) {make : α → β} {view : β → α}
    (hmake : ∀ v, make (view v) = v) (hview : ∀ v, view (make v) = v) :
    (a.map make view).Faithful fun v => fits (view v) := by
  refine ⟨fun bs v rest => ?_, fun v hv => h.short (view v) hv⟩
  show (a.decode >>= fun x => pure (make x)) bs = .ok (v, rest) ↔
    fits (view v) ∧ bs = a.encode (view v) ++ rest
  rw [Decoder.bind_eq_ok_iff]
  constructor
  · intro hex
    obtain ⟨x, mid, hx, hpure⟩ := hex
    obtain ⟨rfl, rfl⟩ := Decoder.pure_eq_ok_iff.mp hpure
    rw [hview]
    exact (h.decode_iff _ _ _).mp hx
  · intro hboth
    exact ⟨view v, rest, (h.decode_iff _ _ _).mpr hboth,
      Decoder.pure_eq_ok_iff.mpr ⟨hmake v, rfl⟩⟩

/-- A word stands for a value whose bit pattern it is. -/
theorem word (n : Nat) (make : Nat → α) (view : α → Nat) (hlt : ∀ v, view v < Word.span n)
    (hmake : ∀ v, make (view v) = v) (hview : ∀ m < Word.span n, view (make m) = m)
    (hencode : a.encode = fun v => Word.bytes n (view v))
    (hdecode : a.decode = Decoder.word n >>= fun m => pure (make m)) :
    a.Faithful fun _ => True := by
  refine ⟨fun bs v rest => ?_, fun _ _ => trivial⟩
  rw [hdecode, hencode, Decoder.bind_eq_ok_iff, true_and]
  constructor
  · intro h
    obtain ⟨m, mid, hm, hpure⟩ := h
    obtain ⟨rfl, rfl⟩ := Decoder.pure_eq_ok_iff.mp hpure
    obtain ⟨hspan, hbs⟩ := Decoder.word_eq_ok_iff.mp hm
    show bs = Word.bytes n (view (make m)) ++ mid
    rw [hview m hspan]
    exact hbs
  · intro h
    exact ⟨view v, rest, Decoder.word_eq_ok_iff.mpr ⟨hlt v, h⟩,
      Decoder.pure_eq_ok_iff.mpr ⟨hmake v, rfl⟩⟩

theorem u32 : Codec.u32.Faithful fun _ => True :=
  word 4 UInt32.ofNat UInt32.toNat UInt32.toNat_lt
    (fun _ => UInt32.ofNat_toNat) (fun _ h => UInt32.toNat_ofNat_of_lt' h) rfl rfl

theorem i8 : Codec.i8.Faithful fun _ => True :=
  word 1 (fun m => (UInt8.ofNat m).toInt8) (fun v => v.toUInt8.toNat)
    (fun v => v.toUInt8.toNat_lt) (fun _ => by simp)
    (fun _ h => UInt8.toNat_ofNat_of_lt' h) rfl rfl

theorem i64 : Codec.i64.Faithful fun _ => True :=
  word 8 (fun m => (UInt64.ofNat m).toInt64) (fun v => v.toUInt64.toNat)
    (fun v => v.toUInt64.toNat_lt) (fun _ => by simp)
    (fun _ h => UInt64.toNat_ofNat_of_lt' h) rfl rfl

/-- The count in front is read as the word it was written as. -/
theorem decode_count (n : Nat) (rest : Bytes) :
    Codec.u32.decode (count n ++ rest) = .ok (UInt32.ofNat n, rest) :=
  (u32.decode_iff _ _ _).mpr ⟨trivial, rfl⟩

theorem eq_count {bs rest : Bytes} {n : UInt32} (h : Codec.u32.decode bs = .ok (n, rest)) :
    bs = count n.toNat ++ rest := by
  rw [count, UInt32.ofNat_toNat]
  exact ((u32.decode_iff _ _ _).mp h).2

@[simp] theorem length_count (n : Nat) : (count n).length = 4 := Word.length_bytes 4 _

theorem text : Codec.text.Faithful fun s => (Utf8.encode s).length < 2 ^ 32 := by
  refine ⟨fun bs s rest => ?_, fun s hs => ?_⟩
  · show (Codec.u32.decode >>= fun n => Decoder.text n.toNat) bs = .ok (s, rest) ↔
      _ ∧ bs = (count (Utf8.encode s).length ++ Utf8.encode s) ++ rest
    rw [Decoder.bind_eq_ok_iff]
    constructor
    · intro h
      obtain ⟨n, mid, hn, hs⟩ := h
      obtain ⟨hlen, rfl⟩ := Decoder.text_eq_ok_iff.mp hs
      rw [eq_count hn, hlen, List.append_assoc]
      exact ⟨n.toNat_lt, rfl⟩
    · intro h
      obtain ⟨hlt, rfl⟩ := h
      rw [List.append_assoc]
      refine ⟨_, _, decode_count _ _, Decoder.text_eq_ok_iff.mpr ⟨?_, rfl⟩⟩
      rw [UInt32.toNat_ofNat_of_lt' hlt]
  · have hlen : (count (Utf8.encode s).length ++ Utf8.encode s).length < 2 ^ 32 := hs
    rw [List.length_append] at hlen
    omega

/-- Values are read one after the other exactly if their bytes stand one after the
other. -/
theorem times (h : a.Faithful fits) (n : Nat) :
    ∀ bs vs rest, Decoder.times a.decode n bs = .ok (vs, rest) ↔
      vs.length = n ∧ (∀ v ∈ vs, fits v) ∧ bs = vs.flatMap a.encode ++ rest := by
  induction n with
  | zero =>
    intro bs vs rest
    refine Decoder.pure_eq_ok_iff.trans ?_
    constructor
    · intro hnil
      obtain ⟨rfl, rfl⟩ := hnil
      exact ⟨rfl, by simp, rfl⟩
    · intro hnil
      obtain ⟨hlen, -, rfl⟩ := hnil
      obtain rfl := List.length_eq_zero_iff.mp hlen
      exact ⟨rfl, rfl⟩
  | succ n ih =>
    intro bs vs rest
    show (a.decode >>= fun x => Decoder.times a.decode n >>= fun xs => pure (x :: xs)) bs =
      .ok (vs, rest) ↔ _
    rw [Decoder.bind_eq_ok_iff]
    constructor
    · intro hex
      obtain ⟨x, mid, hx, hmore⟩ := hex
      obtain ⟨xs, mid', hxs, hpure⟩ := Decoder.bind_eq_ok_iff.mp hmore
      obtain ⟨rfl, rfl⟩ := Decoder.pure_eq_ok_iff.mp hpure
      obtain ⟨hfit, rfl⟩ := (h.decode_iff _ _ _).mp hx
      obtain ⟨hlen, hall, rfl⟩ := (ih _ _ _).mp hxs
      refine ⟨by rw [List.length_cons, hlen], ?_, ?_⟩
      · intro v hv
        rcases List.mem_cons.mp hv with rfl | hv
        · exact hfit
        · exact hall v hv
      · rw [List.flatMap_cons, List.append_assoc]
    · intro hall
      obtain ⟨hlen, hfit, rfl⟩ := hall
      cases vs with
      | nil => exact absurd hlen (by simp)
      | cons v vs =>
        rw [List.flatMap_cons, List.append_assoc]
        refine ⟨v, _, (h.decode_iff _ _ _).mpr ⟨hfit v List.mem_cons_self, rfl⟩, ?_⟩
        refine Decoder.bind_eq_ok_iff.mpr ⟨vs, rest, (ih _ _ _).mpr ⟨?_, ?_, rfl⟩, rfl⟩
        · exact Nat.succ.inj hlen
        · exact fun w hw => hfit w (List.mem_cons_of_mem v hw)

/-- A list takes at least as many bytes as each of its elements, and at least one
for each if none takes none. -/
theorem length_le_flatMap {f : α → Bytes} (hne : ∀ v, f v ≠ []) (vs : List α) :
    vs.length ≤ (vs.flatMap f).length ∧ ∀ v ∈ vs, (f v).length ≤ (vs.flatMap f).length := by
  induction vs with
  | nil => simp
  | cons w vs ih =>
    have hpos := List.length_pos_iff.mpr (hne w)
    rw [List.flatMap_cons, List.length_append, List.length_cons]
    refine ⟨by omega, ?_⟩
    intro v hv
    rcases List.mem_cons.mp hv with rfl | hv
    · omega
    · have := ih.2 v hv
      omega

theorem list (h : a.Faithful fits) (hne : ∀ v, a.encode v ≠ []) :
    a.list.Faithful fun vs => vs.length < 2 ^ 32 ∧ ∀ v ∈ vs, fits v := by
  refine ⟨fun bs vs rest => ?_, fun vs hvs => ?_⟩
  · show (Codec.u32.decode >>= fun n => Decoder.times a.decode n.toNat) bs = .ok (vs, rest) ↔
      _ ∧ bs = (count vs.length ++ vs.flatMap a.encode) ++ rest
    rw [Decoder.bind_eq_ok_iff]
    constructor
    · intro hex
      obtain ⟨n, mid, hn, htimes⟩ := hex
      obtain ⟨hlen, hall, rfl⟩ := (h.times _ _ _ _).mp htimes
      rw [eq_count hn, hlen, List.append_assoc]
      exact ⟨⟨n.toNat_lt, hall⟩, rfl⟩
    · intro hboth
      obtain ⟨⟨hlt, hall⟩, rfl⟩ := hboth
      rw [List.append_assoc]
      refine ⟨_, _, decode_count _ _, (h.times _ _ _ _).mpr ⟨?_, hall, rfl⟩⟩
      rw [UInt32.toNat_ofNat_of_lt' hlt]
  · have hlen : (count vs.length ++ vs.flatMap a.encode).length < 2 ^ 32 := hvs
    rw [List.length_append] at hlen
    obtain ⟨hcount, hall⟩ := length_le_flatMap hne vs
    refine ⟨by omega, fun v hv => h.short v ?_⟩
    have := hall v hv
    omega

end Faithful

end Codec

end NodeGraph.Wire
