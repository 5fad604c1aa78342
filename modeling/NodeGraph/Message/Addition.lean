import NodeGraph.Message.Type

/-!
# Messages of the addition service

A request carries two 64-bit integers and a response their sum. The pair has a
name of its own, under which the service is offered; as a message it is empty.
-/

namespace NodeGraph.Addition

open Wire (Codec)

/-- The integers to add. -/
structure Request where
  a : Int64
  b : Int64
deriving DecidableEq, Repr

/-- The answer to a request. -/
structure Response where
  sum : Int64
deriving DecidableEq, Repr

/-- The pair of request and response as a message: it has no fields. -/
structure Pair where
deriving DecidableEq, Repr

/-- Both integers, the first one first. -/
def Request.codec : Codec Request :=
  (Codec.i64.pair Codec.i64).map (fun v => ⟨v.1, v.2⟩) (fun r => (r.a, r.b))

/-- The sum alone. -/
def Response.codec : Codec Response := Codec.i64.map Response.mk Response.sum

/-- Nothing at all. -/
def Pair.codec : Codec Pair := Codec.unit.map (fun _ => ⟨⟩) (fun _ => ())

/-- The message type of requests. -/
def Request.type : MessageType Request where
  toFormat := .ofCodec Request.codec
  name := "rospy_tutorials/AddTwoIntsRequest"
  md5 := "36d09b846be0b371c5f190354dd3153e"
  definition := "int64 a\nint64 b\n"

/-- The message type of responses. -/
def Response.type : MessageType Response where
  toFormat := .ofCodec Response.codec
  name := "rospy_tutorials/AddTwoIntsResponse"
  md5 := "b88405221c77b1878a3cbbffff53428b"
  definition := "int64 sum\n"

/-- The message type of the empty pair; its definition shows both halves with a
rule between them. -/
def Pair.type : MessageType Pair where
  toFormat := .ofCodec Pair.codec
  name := "rospy_tutorials/AddTwoInts"
  md5 := "6a2e34150c00229791cc89ff309fff21"
  definition := Request.type.definition ++ "---\n" ++ Response.type.definition

/-- The service type of addition. -/
def service : ServiceType Request Response where
  name := Pair.type.name
  md5 := Pair.type.md5
  request := Request.type.toFormat
  response := Response.type.toFormat

end NodeGraph.Addition
