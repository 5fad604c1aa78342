import NodeGraph.Message.Type

/-!
# Log records

Nodes publish what they log as records on one fixed topic. Besides the text a
record names its node, its level and the place in the code that logged it. The
header and the list of topics stay empty unless whoever publishes fills them.
-/

namespace NodeGraph

open Wire (Codec)

/-- How grave a record is. The usual levels are powers of two, but any signed
byte may travel. -/
abbrev Level := Int8

namespace Level

def debug : Level := 1
def info : Level := 2
def warn : Level := 4
def error : Level := 8
def fatal : Level := 16

end Level

/-- Where in the code something was logged. -/
structure Site where
  file : String
  line : UInt32
deriving DecidableEq, Repr

/-- The place that lines of the components carry: they log on behalf of their
node, and no position in their own code is given away. -/
def Site.component : Site := ⟨"<component>", 0⟩

/-- The header in front of a record. -/
structure Header where
  seq : UInt32 := 0
  sec : UInt32 := 0
  nsec : UInt32 := 0
  frameId : String := ""
deriving DecidableEq, Repr

/-- A line that a node logged. -/
structure Record where
  header : Header := {}
  level : Level
  name : String
  msg : String
  file : String
  function : String := ""
  line : UInt32
  topics : List String := []
deriving DecidableEq, Repr

/-- The header's fields in order. -/
def Header.codec : Codec Header :=
  (Codec.u32.pair (Codec.u32.pair (Codec.u32.pair Codec.text))).map
    (fun v => ⟨v.1, v.2.1, v.2.2.1, v.2.2.2⟩)
    (fun h => (h.seq, h.sec, h.nsec, h.frameId))

namespace Record

/-- The record's fields in order, the header first. -/
def codec : Codec Record :=
  (Header.codec.pair (Codec.i8.pair (Codec.text.pair (Codec.text.pair (Codec.text.pair
      (Codec.text.pair (Codec.u32.pair (Codec.list Codec.text)))))))).map
    (fun v => ⟨v.1, v.2.1, v.2.2.1, v.2.2.2.1, v.2.2.2.2.1, v.2.2.2.2.2.1, v.2.2.2.2.2.2.1,
      v.2.2.2.2.2.2.2⟩)
    (fun r => (r.header, r.level, r.name, r.msg, r.file, r.function, r.line, r.topics))

/-- The message type of records. -/
def type : MessageType Record where
  toFormat := .ofCodec codec
  name := "rosgraph_msgs/Log"
  md5 := "acffd30cd6b6de30f120938c17c593fb"
  definition := "Header header\nbyte level\nstring name\nstring msg\nstring file\n"
    ++ "string function\nuint32 line\nstring[] topics\n"

/-- The topic on which nodes publish what they log. -/
def topic : String := "/rosout"

end Record

end NodeGraph
