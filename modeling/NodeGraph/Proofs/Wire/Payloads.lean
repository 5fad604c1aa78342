import NodeGraph.Message.Addition
import NodeGraph.Message.Record
import NodeGraph.Message.Text
import NodeGraph.Proofs.Wire.Faithful

/-!
# What is on the wire

For each message type this file says byte for byte what a value looks like on the
wire, without mention of codecs: words with their lowest byte first, signed ones in
two's complement, texts behind the count of their bytes in UTF-8, lists behind the
count of their elements.

> `Conveys`: a type writes what the layout says, and reading yields a value having
> used up exactly `k` bytes if and only if the first `k` bytes are the layout of
> that value. What follows them is never looked at.
>
> `payloads_conveyed`: all types of messages convey their values.

That the codecs write the layout is checked field by field; the rest is `Faithful`.
-/

namespace NodeGraph

open Wire

variable {α : Type}

/-! ## Layouts -/

namespace Wire

/-- The number that a signed number of some bits travels as: two's complement. -/
def twos (bits : Nat) (n : Int) : Nat := (n % 2 ^ bits).toNat

/-- A text on the wire. -/
def textLayout (s : String) : Bytes := Word.bytes 4 s.utf8ByteSize ++ s.toUTF8.data.toList

/-- Whether a word of four bytes can count the bytes of a text. -/
def Countable (s : String) : Prop := s.utf8ByteSize < 2 ^ 32

instance (s : String) : Decidable (Countable s) :=
  inferInstanceAs (Decidable (s.utf8ByteSize < 2 ^ 32))

/-- The shortest kind of text that cannot be counted: one byte too long. -/
def endless : String := String.ofList (List.replicate (2 ^ 32) 'x')

theorem not_countable_endless : ¬ Countable endless := by
  have hsize : ∀ n, (String.ofList (List.replicate n 'x')).utf8ByteSize = n := by
    intro n
    have hx : String.utf8EncodeChar 'x' = [120] := by decide
    rw [← Utf8.length_encode, Utf8.encode, String.toList_ofList, List.length_flatMap,
      List.map_replicate, hx, List.sum_replicate_nat, List.length_singleton, Nat.mul_one]
  unfold Countable endless
  rw [hsize]
  exact Nat.lt_irrefl _

end Wire

/-- A request on the wire. -/
def Addition.Request.layout (r : Addition.Request) : Bytes :=
  Word.bytes 8 (twos 64 r.a.toInt) ++ Word.bytes 8 (twos 64 r.b.toInt)

/-- A response on the wire. -/
def Addition.Response.layout (r : Addition.Response) : Bytes := Word.bytes 8 (twos 64 r.sum.toInt)

/-- A header on the wire. -/
def Header.layout (h : Header) : Bytes :=
  Word.bytes 4 h.seq.toNat ++ Word.bytes 4 h.sec.toNat ++ Word.bytes 4 h.nsec.toNat ++
    textLayout h.frameId

/-- A record on the wire. -/
def Record.layout (r : Record) : Bytes :=
  r.header.layout ++ Word.bytes 1 (twos 8 r.level.toInt) ++ textLayout r.name ++
    textLayout r.msg ++ textLayout r.file ++ textLayout r.function ++
    Word.bytes 4 r.line.toNat ++ Word.bytes 4 r.topics.length ++ r.topics.flatMap textLayout

/-- Whether all texts of a record, and its list, can be counted. -/
structure Record.Fits (r : Record) : Prop where
  frameId : Countable r.header.frameId
  name : Countable r.name
  msg : Countable r.msg
  file : Countable r.file
  function : Countable r.function
  topics : r.topics.length < 2 ^ 32
  topic : ∀ t ∈ r.topics, Countable t

/-! ## What it means to convey -/

/-- Reading gives a value and uses up exactly the first `k` bytes. -/
def Format.Reads (f : Format α) (bs : Bytes) (v : α) (k : Nat) : Prop :=
  k ≤ bs.length ∧ f.decode bs = .ok (v, bs.drop k)

/-- Values that fit travel as their layout, and nothing else travels as them. -/
structure Format.Conveys (f : Format α) (layout : α → Bytes) (fits : α → Prop) : Prop where
  writes : ∀ v, fits v → f.encode v = .ok (layout v)
  reads_iff : ∀ bs v k, fits v → (f.Reads bs v k ↔ k ≤ bs.length ∧ bs.take k = layout v)
  /-- Whatever is read fits, and what is left is the end of what there was. -/
  consumes : ∀ bs v rest, f.decode bs = .ok (v, rest) →
    fits v ∧ ∃ k, rest = bs.drop k ∧ f.Reads bs v k
  delimited : ∀ v w tail tail', fits v → fits w → layout v ++ tail = layout w ++ tail' →
    v = w ∧ tail = tail'
  ignores : ∀ bs v k tail, f.Reads bs v k → f.Reads (bs ++ tail) v k
  rewrites : ∀ bs v k, f.Reads bs v k → f.encode v = .ok (bs.take k)
  /-- A body that can be counted travels behind its count, and belongs to a value
  that fits. -/
  packs : ∀ v body, f.encode v = .ok body → body.length < 2 ^ 32 →
    f.pack v = .ok (Word.bytes 4 body.length ++ body) ∧ fits v
  unpacks : ∀ v frame tail, fits v → frame.length = 4 →
    f.unpack (frame ++ layout v ++ tail) = .ok v

namespace Wire.Codec.Faithful

variable {c : Codec α} {layout : α → Bytes} {fits : α → Prop}

/-- The first `k` bytes are read exactly if they are those of the value. -/
theorem reads_iff (h : c.Faithful fits) (bs : Bytes) (v : α) (k : Nat) :
    (Format.ofCodec c).Reads bs v k ↔ fits v ∧ k ≤ bs.length ∧ bs.take k = c.encode v := by
  show _ ∧ c.decode bs = .ok (v, bs.drop k) ↔ _
  rw [h.decode_iff]
  constructor
  · intro hall
    obtain ⟨hk, hfits, hbs⟩ := hall
    refine ⟨hfits, hk, ?_⟩
    -- both halves are followed by the same rest
    have hboth : bs.take k ++ bs.drop k = c.encode v ++ bs.drop k := by
      rw [List.take_append_drop]
      exact hbs
    exact List.append_cancel_right hboth
  · intro hall
    obtain ⟨hfits, hk, htake⟩ := hall
    rw [← htake, List.take_append_drop]
    exact ⟨hk, hfits, rfl⟩

/-- A faithful codec conveys the values that fit, as the bytes it writes. -/
theorem conveys (h : c.Faithful fits) (hlayout : ∀ v, fits v → c.encode v = layout v) :
    (Format.ofCodec c).Conveys layout fits := by
  refine ⟨?_, ?_, ?_, ?_, ?_, ?_, ?_, ?_⟩
  · intro v hv
    rw [← hlayout v hv]
    rfl
  · intro bs v k hv
    rw [h.reads_iff, ← hlayout v hv, and_iff_right hv]
  · intro bs v rest hdecode
    obtain ⟨hfits, hbs⟩ := (h.decode_iff bs v rest).mp hdecode
    have hdrop : rest = bs.drop (c.encode v).length := by rw [hbs, List.drop_left]
    refine ⟨hfits, _, hdrop, (h.reads_iff _ _ _).mpr ⟨hfits, ?_, ?_⟩⟩
    · rw [hbs, List.length_append]
      omega
    · rw [hbs, List.take_left]
  · intro v w tail tail' hv hw heq
    rw [← hlayout v hv, ← hlayout w hw] at heq
    -- the same bytes are read as one and as the other
    have hread := (h.decode_iff _ _ _).mpr ⟨hv, heq.symm⟩
    rw [(h.decode_iff _ _ _).mpr ⟨hw, rfl⟩] at hread
    have hpair := Except.ok.inj hread
    injection hpair with hwv htail
    exact ⟨hwv.symm, htail.symm⟩
  · intro bs v k tail hreads
    obtain ⟨hfits, hk, htake⟩ := (h.reads_iff _ _ _).mp hreads
    refine (h.reads_iff _ _ _).mpr ⟨hfits, ?_, ?_⟩
    · rw [List.length_append]
      omega
    · rw [List.take_append_of_le_length hk]
      exact htake
  · intro bs v k hreads
    obtain ⟨-, -, htake⟩ := (h.reads_iff _ _ _).mp hreads
    rw [htake]
    rfl
  · intro v body hbody hlt
    obtain rfl := Except.ok.inj hbody
    refine ⟨?_, h.short v hlt⟩
    show Except.ok (count (c.encode v).length ++ c.encode v) = _
    unfold count
    show Except.ok (Word.bytes 4 (UInt32.ofNat (c.encode v).length).toNat ++ _) = _
    rw [UInt32.toNat_ofNat_of_lt' hlt]
  · intro v frame tail hv hframe
    have hread : (Format.ofCodec c).decode ((frame ++ layout v ++ tail).drop 4) =
        .ok (v, tail) := by
      rw [List.append_assoc, ← hframe, List.drop_left, ← hlayout v hv]
      exact (h.decode_iff _ _ _).mpr ⟨hv, rfl⟩
    unfold Format.unpack
    rw [hread]

end Wire.Codec.Faithful

/-! ## Fields -/

namespace Wire.Codec

theorem encode_text {s : String} (h : Countable s) : text.encode s = textLayout s := by
  show Word.bytes 4 (UInt32.ofNat (Utf8.encode s).length).toNat ++ Utf8.encode s = _
  rw [Utf8.length_encode, UInt32.toNat_ofNat_of_lt' h, Utf8.encode_eq_toUTF8]
  rfl

theorem encode_texts {ss : List String} (hlen : ss.length < 2 ^ 32)
    (h : ∀ s ∈ ss, Countable s) :
    (list text).encode ss = Word.bytes 4 ss.length ++ ss.flatMap textLayout := by
  show Word.bytes 4 (UInt32.ofNat ss.length).toNat ++ ss.flatMap text.encode = _
  rw [UInt32.toNat_ofNat_of_lt' hlen, List.flatMap_def, List.flatMap_def,
    List.map_congr_left fun s hs => encode_text (h s hs)]

/-- The bit pattern of a signed number is its two's complement. -/
theorem twos_toInt {bits : Nat} (b : BitVec bits) : twos bits b.toInt = b.toNat := by
  have hpow : (2 ^ bits : Int) = ((2 ^ bits : Nat) : Int) := by norm_cast
  unfold twos
  rw [BitVec.toInt_eq_toNat_bmod, hpow, Int.bmod_emod, ← Int.natCast_emod, Int.toNat_natCast,
    Nat.mod_eq_of_lt b.isLt]

theorem encode_i8 (n : Int8) : i8.encode n = Word.bytes 1 (twos 8 n.toInt) :=
  congrArg (Word.bytes 1) (twos_toInt n.toBitVec).symm

theorem encode_i64 (n : Int64) : i64.encode n = Word.bytes 8 (twos 64 n.toInt) :=
  congrArg (Word.bytes 8) (twos_toInt n.toBitVec).symm

theorem text_faithful : text.Faithful Countable :=
  Faithful.text.congr fun s => by rw [Utf8.length_encode]; rfl

theorem encode_text_ne_nil (s : String) : text.encode s ≠ [] := by
  intro h
  have hlen := congrArg List.length h
  simp [text] at hlen

end Wire.Codec

/-! ## Messages -/

theorem Text.codec_faithful : Text.codec.Faithful fun v => Countable v.data :=
  Codec.text_faithful.map (fun _ => rfl) fun _ => rfl

theorem Addition.Request.codec_faithful : Addition.Request.codec.Faithful fun _ => True :=
  ((Codec.Faithful.i64.pair Codec.Faithful.i64).map (fun _ => rfl) fun _ => rfl).congr
    fun _ => iff_of_eq (and_self True)

theorem Addition.Response.codec_faithful : Addition.Response.codec.Faithful fun _ => True :=
  Codec.Faithful.i64.map (fun _ => rfl) fun _ => rfl

theorem Addition.Pair.codec_faithful : Addition.Pair.codec.Faithful fun _ => True :=
  Codec.Faithful.unit.map (fun _ => rfl) fun _ => rfl

theorem Header.codec_faithful : Header.codec.Faithful fun h => Countable h.frameId :=
  ((Codec.Faithful.u32.pair (Codec.Faithful.u32.pair (Codec.Faithful.u32.pair
    Codec.text_faithful))).map (fun _ => rfl) fun _ => rfl).congr fun _ => by
      simp only [true_and]

theorem Record.codec_faithful : Record.codec.Faithful Record.Fits := by
  have hfields := Header.codec_faithful.pair (Codec.Faithful.i8.pair (Codec.text_faithful.pair
    (Codec.text_faithful.pair (Codec.text_faithful.pair (Codec.text_faithful.pair
      (Codec.Faithful.u32.pair (Codec.text_faithful.list Codec.encode_text_ne_nil)))))))
  refine (hfields.map (fun _ => rfl) fun _ => rfl).congr fun r => ?_
  constructor
  · intro h
    obtain ⟨hframe, -, hname, hmsg, hfile, hfunction, -, htopics, htopic⟩ := h
    exact ⟨hframe, hname, hmsg, hfile, hfunction, htopics, htopic⟩
  · intro h
    exact ⟨h.frameId, trivial, h.name, h.msg, h.file, h.function, trivial, h.topics, h.topic⟩

theorem Header.encode_codec {h : Header} (hframe : Countable h.frameId) :
    Header.codec.encode h = h.layout := by
  show Codec.u32.encode h.seq ++ (Codec.u32.encode h.sec ++ (Codec.u32.encode h.nsec ++
    Codec.text.encode h.frameId)) = _
  rw [Codec.encode_text hframe]
  simp only [Header.layout, List.append_assoc]
  rfl

theorem Record.encode_codec {r : Record} (h : r.Fits) : Record.codec.encode r = r.layout := by
  show Header.codec.encode r.header ++ (Codec.i8.encode r.level ++ (Codec.text.encode r.name ++
    (Codec.text.encode r.msg ++ (Codec.text.encode r.file ++ (Codec.text.encode r.function ++
      (Codec.u32.encode r.line ++ (Codec.list Codec.text).encode r.topics)))))) = _
  rw [Header.encode_codec h.frameId, Codec.encode_i8, Codec.encode_text h.name,
    Codec.encode_text h.msg, Codec.encode_text h.file, Codec.encode_text h.function,
    Codec.encode_texts h.topics h.topic]
  simp only [Record.layout, List.append_assoc]
  rfl

/-- **All types of messages convey their values.** For each of them the layout is
what is written; reading `bs` gives `v` and uses up `k` bytes if and only if the
first `k` bytes of `bs` are the layout of `v`; and a payload is a body behind four
bytes that count it, which nobody looks at when it is read. -/
theorem payloads_conveyed :
    Text.type.Conveys (fun v => textLayout v.data) (fun v => Countable v.data) ∧
    Addition.Request.type.Conveys Addition.Request.layout (fun _ => True) ∧
    Addition.Response.type.Conveys Addition.Response.layout (fun _ => True) ∧
    Addition.Pair.type.Conveys (fun _ => []) (fun _ => True) ∧
    Record.type.Conveys Record.layout Record.Fits := by
  refine ⟨?_, ?_, ?_, ?_, ?_⟩
  · exact Text.codec_faithful.conveys fun v hv => Codec.encode_text hv
  · refine Addition.Request.codec_faithful.conveys fun v _ => ?_
    show Codec.i64.encode v.a ++ Codec.i64.encode v.b = _
    rw [Codec.encode_i64, Codec.encode_i64]
    rfl
  · exact Addition.Response.codec_faithful.conveys fun v _ => Codec.encode_i64 v.sum
  · exact Addition.Pair.codec_faithful.conveys fun _ _ => rfl
  · exact Record.codec_faithful.conveys fun r hr => Record.encode_codec hr

/-- A request for the sum of two and minus three: the operands follow the count of their bytes. -/
example : Addition.Request.type.pack ⟨2, -3⟩ =
    .ok [16, 0, 0, 0, 2, 0, 0, 0, 0, 0, 0, 0, 253, 255, 255, 255, 255, 255, 255, 255] := by
  rfl

end NodeGraph
