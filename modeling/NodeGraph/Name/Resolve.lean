/-!
# Names on the graph

Topics, services and nodes of a graph share one flat rule for names. A name
that starts with a slash is global and stands for itself; one that starts with
a tilde is private to the node that uses it; any other stands directly below
the root, wherever the node itself stands.
-/

namespace NodeGraph.Name

/-- A text without the slashes at its end. -/
def trimSlashes (cs : List Char) : List Char :=
  (cs.reverse.dropWhile (· = '/')).reverse

/-- The global name of `name` as the node `node` uses it. -/
def resolve (node name : String) : String :=
  match name.toList with
  | '/' :: _ => name
  | '~' :: own => String.ofList (trimSlashes node.toList ++ '/' :: own)
  | cs => String.ofList ('/' :: cs)

end NodeGraph.Name
