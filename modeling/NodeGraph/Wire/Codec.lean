import NodeGraph.Text.Utf8
import NodeGraph.Wire.Word

/-!
# Codecs

A `Codec` writes a value as bytes and reads it back from the front of a byte
sequence. Codecs are put together from words, text, lists and pairs, so the
field order of a record is written down once and serves both directions.

Numbers are little endian. Text and lists carry their length or count in front
as a word of four bytes; of a longer one only the lowest four bytes of the
length are written.
-/

namespace NodeGraph.Wire

/-- What travels between nodes. -/
abbrev Bytes := List UInt8

/-- Why a value could not be written or read. -/
inductive Fault where
  /-- A field needs more bytes than are left. -/
  | endOfInput
  /-- A text field holds bytes that are no text. -/
  | notText (fault : Utf8.Fault)
  /-- The value's own encoder gave up. -/
  | refused (reason : String)
deriving DecidableEq, Repr

/-- The wording of a fault. -/
def Fault.message : Fault → String
  | .endOfInput => "failed to fill whole buffer"
  | .notText fault => fault.message
  | .refused reason => reason

/-- Reads a value off the front of the bytes, leaving the others. -/
abbrev Decoder (α : Type) := StateT Bytes (Except Fault) α

namespace Decoder

/-- Takes exactly `n` bytes. -/
def take (n : Nat) : Decoder Bytes := fun bs =>
  if n ≤ bs.length then .ok (bs.take n, bs.drop n) else .error .endOfInput

/-- Takes all that is left. -/
def remaining : Decoder Bytes := fun bs => .ok (bs, [])

/-- Reads `n` values one after the other. -/
def times {α : Type} (d : Decoder α) : Nat → Decoder (List α)
  | 0 => pure []
  | n + 1 => do
    let a ← d
    let as ← times d n
    pure (a :: as)

/-- The number written by the next `n` bytes. -/
def word (n : Nat) : Decoder Nat := do
  let bs ← take n
  pure (Word.value bs)

/-- The text written by the next `n` bytes, all of which must be there before
they are looked at. -/
def text (n : Nat) : Decoder String := do
  let bs ← take n
  match Utf8.decode bs with
  | .ok s => pure s
  | .error fault => throw (.notText fault)

end Decoder

/-- How values of a type are written and read. -/
structure Codec (α : Type) where
  /-- The bytes of a value. -/
  encode : α → Bytes
  /-- The value at the front of the bytes. -/
  decode : Decoder α

namespace Codec

variable {α β : Type}

/-- A value without content takes no bytes. -/
def unit : Codec Unit where
  encode _ := []
  decode := pure ()

/-- One value after the other. -/
def pair (a : Codec α) (b : Codec β) : Codec (α × β) where
  encode v := a.encode v.1 ++ b.encode v.2
  decode := do
    let x ← a.decode
    let y ← b.decode
    pure (x, y)

/-- The same bytes under another type: `make` turns what was read into a value,
and `view` turns a value into what is written. -/
def map (c : Codec α) (make : α → β) (view : β → α) : Codec β where
  encode v := c.encode (view v)
  decode := do
    let x ← c.decode
    pure (make x)

/-- An unsigned word of four bytes. -/
def u32 : Codec UInt32 where
  encode v := Word.bytes 4 v.toNat
  decode := do
    let n ← Decoder.word 4
    pure (UInt32.ofNat n)

/-- A signed byte. -/
def i8 : Codec Int8 where
  encode v := Word.bytes 1 v.toUInt8.toNat
  decode := do
    let n ← Decoder.word 1
    pure (UInt8.ofNat n).toInt8

/-- A signed word of eight bytes. -/
def i64 : Codec Int64 where
  encode v := Word.bytes 8 v.toUInt64.toNat
  decode := do
    let n ← Decoder.word 8
    pure (UInt64.ofNat n).toInt64

/-- The word that stands in front of text and lists. -/
def count (n : Nat) : Bytes := u32.encode (UInt32.ofNat n)

/-- Text: its length in bytes, then the bytes. -/
def text : Codec String where
  encode s := count (Utf8.encode s).length ++ Utf8.encode s
  decode := do
    let n ← u32.decode
    Decoder.text n.toNat

/-- A list: its length, then its elements. -/
def list (c : Codec α) : Codec (List α) where
  encode as := count as.length ++ as.flatMap c.encode
  decode := do
    let n ← u32.decode
    Decoder.times c.decode n.toNat

end Codec

end NodeGraph.Wire
