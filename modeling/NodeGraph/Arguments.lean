/-!
# Command lines

A command line is a list of texts with the program's own name in front.
Arguments that hold `:=` are remappings and belong to the middleware; a program
looks at the others only. A remapping such as `__name:=ears` is looked up by
what stands in front of its value.
-/

namespace NodeGraph.Arguments

/-- Whether `needle` occurs somewhere in `hay`. -/
def occursIn (needle : List Char) : List Char → Bool
  | [] => needle.isEmpty
  | c :: cs => needle.isPrefixOf (c :: cs) || occursIn needle cs

/-- Whether an argument is a remapping. -/
def isRemapping (argument : String) : Bool := occursIn [':', '='] argument.toList

/-- What is left when the remappings are taken out. The program's name stays,
whatever it looks like. -/
def unused : List String → List String
  | [] => []
  | program :: arguments => program :: arguments.filter (!isRemapping ·)

/-- Takes `start` off the front of a text as often as it is there. -/
def stripAll (start cs : List Char) : List Char :=
  if _h : start ≠ [] ∧ start.isPrefixOf cs then stripAll start (cs.drop start.length) else cs
termination_by cs.length
decreasing_by
  have hs : 0 < start.length := List.length_pos_iff.mpr _h.1
  have hp : start <+: cs := List.isPrefixOf_iff_prefix.mp _h.2
  have := hp.length_le
  simp only [List.length_drop]
  omega

/-- The value of the first argument after the program's name that starts with
`start`. The start is taken off repeatedly, so the value itself never starts
with it again. -/
def valueOf? (arguments : List String) (start : String) : Option String :=
  ((arguments.drop 1).find? (start.toList.isPrefixOf ·.toList)).map
    (fun a => String.ofList (stripAll start.toList a.toList))

/-- Cuts a text at its first `:=`. -/
def cut : List Char → Option (List Char × List Char)
  | [] => none
  | ':' :: '=' :: cs => some ([], cs)
  | c :: cs =>
    match cut cs with
    | some (before, after) => some (c :: before, after)
    | none => none

/-- The two names of a remapping argument. One that starts with an underscore
sets something else, and one with more than one `:=` says nothing. -/
def remapping? (argument : String) : Option (String × String) :=
  if ['_'].isPrefixOf argument.toList then none
  else
    match cut argument.toList with
    | some (source, target) =>
      if occursIn [':', '='] target then none
      else some (String.ofList source, String.ofList target)
    | none => none

/-- The names to be replaced on a command line, in order, each with its
replacement. -/
def remappings (arguments : List String) : List (String × String) :=
  (arguments.drop 1).filterMap remapping?

end NodeGraph.Arguments
