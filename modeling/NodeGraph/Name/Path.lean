import NodeGraph.Arguments
import NodeGraph.Error
import NodeGraph.Name.Resolve

/-!
# Paths below a master

A master keeps names as paths: segments of letters, digits, underscores and
tildes, none of them empty. A node stands below the namespace that its command
line gives, and the names it uses are looked up from there: global ones from
the root, private ones below the node, all others beside it. Remappings of the
command line then replace whole paths.
-/

namespace NodeGraph

/-- The segments of a name, from the root. -/
structure Path where
  segments : List String
deriving DecidableEq, Repr

namespace Path

/-- The text of a path, a slash before each segment. -/
def toText (p : Path) : String := p.segments.foldl (fun text s => text ++ "/" ++ s) ""

/-- The path without its last segment. -/
def parent (p : Path) : Path := ⟨p.segments.dropLast⟩

/-- A path below a path. -/
def append (p q : Path) : Path := ⟨p.segments ++ q.segments⟩

/-- What a segment may hold. -/
def isLegal (c : Char) : Bool := c.isAlphanum || c = '_' || c = '~'

/-- A segment holds something, and only what it may hold. -/
def segment (cs : List Char) : Except PathFault String :=
  if cs.isEmpty then .error .emptyName
  else if cs.all isLegal then .ok (String.ofList cs)
  else .error (.illegalCharacter (String.ofList cs))

/-- The path that a text with a slash in front writes. Slashes at its end do
not count, and the first segment at fault is reported. -/
def parse (cs : List Char) : Except PathFault Path :=
  match Name.trimSlashes cs with
  | [] => .ok ⟨[]⟩
  | _ :: cs => ((cs.splitOn '/').mapM segment).map Path.mk

/-- The namespace of a command line as text: a slash in front, none at the
end. Without any it is the root, the empty text. -/
def space (arguments : List String) : List Char :=
  match Arguments.valueOf? arguments "__ns:=" with
  | none => []
  | some value =>
    match value.toList with
    | '/' :: cs => Name.trimSlashes ('/' :: cs)
    | cs => Name.trimSlashes ('/' :: cs)

/-- The path of a node called `name`. The name itself is one segment, which
stands below the namespace; there has to be some segment. -/
def ofNode (arguments : List String) (name : String) : Except PathFault Path :=
  if '/' ∈ name.toList then .error (.illegalCharacter name)
  else
    match parse (space arguments ++ '/' :: name.toList) with
    | .ok ⟨[]⟩ => .error .noParent
    | result => result

/-- The path of a name that the node at `node` uses. -/
def resolve (node : Path) (name : String) : Except PathFault Path :=
  match name.toList with
  | [] => .error .emptyName
  | '/' :: cs => parse ('/' :: cs)
  | '~' :: cs => (parse ('/' :: cs)).map node.append
  | cs => (parse ('/' :: cs)).map node.parent.append

/-- The remappings that the node at `node` finds on its command line, the last
one first. One that holds an illegal name is an error. -/
def remappings (node : Path) (arguments : List String) :
    Except PathFault (List (Path × Path)) :=
  (Arguments.remappings arguments).foldlM
    (fun found (source, target) => do
      let s ← node.resolve source
      let t ← node.resolve target
      pure ((s, t) :: found))
    []

/-- The path of a name after remapping. -/
def locate (node : Path) (remaps : List (Path × Path)) (name : String) :
    Except PathFault Path := do
  let p ← node.resolve name
  pure ((remaps.lookup p).getD p)

end Path

end NodeGraph
