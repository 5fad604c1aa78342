import NodeGraph.Wire.Codec

/-!
# Message and service types

Messages cross the graph as bytes. A `Format` says how a value becomes bytes
and back; it may refuse to write a value. A `MessageType` is a format with a
name, the md5 sum that publishers and subscribers compare, and the text of its
definition; a `ServiceType` has the same three and a format for each direction.

A payload is a body behind a frame of four bytes that holds the body's length.
The frame is written but never checked: a reader skips four bytes, and ignores
what is left over behind the value.
-/

namespace NodeGraph

open Wire (Bytes Codec Decoder)

/-- How values of a type are written, if they can be, and read. -/
structure Format (α : Type) where
  /-- The body of a value. -/
  encode : α → Except Wire.Fault Bytes
  /-- The value at the front of a body. -/
  decode : Decoder α

namespace Format

variable {α : Type}

/-- A format that writes every value. -/
def ofCodec (c : Codec α) : Format α where
  encode v := .ok (c.encode v)
  decode := c.decode

/-- Bytes as they are: the body is the value, and all that is left is read. -/
def raw : Format Bytes where
  encode bs := .ok bs
  decode := Decoder.remaining

/-- A body behind its frame. -/
def pack (f : Format α) (v : α) : Except Wire.Fault Bytes :=
  match f.encode v with
  | .ok body => .ok (Codec.count body.length ++ body)
  | .error fault => .error fault

/-- The value of a payload; of one that is too short for a frame nothing is
left to read. -/
def unpack (f : Format α) (payload : Bytes) : Except Wire.Fault α :=
  match f.decode (payload.drop 4) with
  | .ok (v, _) => .ok v
  | .error fault => .error fault

end Format

/-- A kind of message that topics can carry. -/
structure MessageType (α : Type) extends Format α where
  /-- The name of the type, `package/Name`. -/
  name : String
  /-- The sum that both ends of a topic have to agree on. -/
  md5 : String
  /-- The text that declares the fields. -/
  definition : String

/-- A kind of call: requests of one type, responses of another. -/
structure ServiceType (ρ σ : Type) where
  /-- The name of the type, `package/Name`. -/
  name : String
  /-- The sum that caller and provider have to agree on. -/
  md5 : String
  /-- How requests travel. -/
  request : Format ρ
  /-- How responses travel. -/
  response : Format σ

end NodeGraph
