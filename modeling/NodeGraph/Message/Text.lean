import NodeGraph.Message.Type

/-!
# Text messages

A message with one field of text, as the talker sends it.
-/

namespace NodeGraph

open Wire (Codec)

/-- A text to be heard. -/
structure Text where
  data : String
deriving DecidableEq, Repr

namespace Text

/-- The text, length first. -/
def codec : Codec Text := Codec.text.map Text.mk Text.data

/-- The message type of texts. -/
def type : MessageType Text where
  toFormat := .ofCodec codec
  name := "std_msgs/String"
  md5 := "992ce8a1687cec8c8bd883ec73ca41d1"
  definition := "string data\n"

end Text

end NodeGraph
