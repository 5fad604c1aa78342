import Mathlib.Data.List.DropRight
import NodeGraph.Name.Path
import NodeGraph.Name.Resolve

/-!
# Global names

A name that starts with a slash is global, and those are the names that stand for themselves,
whoever uses them (`Name.resolve_eq_self_iff`). Slashes at the end of a name are left out where
something is put below it.
-/

namespace NodeGraph

open Name (trimSlashes)

/-! ## Global names -/

/-- Whether a name stands for itself. -/
def Name.IsGlobal (name : String) : Prop := ∃ rest, name.toList = '/' :: rest

theorem Name.resolve_eq_self_iff {node name : String} :
    resolve node name = name ↔ IsGlobal name := by
  unfold resolve IsGlobal
  split
  next rest hname => exact ⟨fun _ => ⟨rest, hname⟩, fun _ => rfl⟩
  next own hname =>
    constructor
    · intro h
      have hchars := congrArg String.toList h
      rw [String.toList_ofList, hname] at hchars
      -- without a node in front the first character differs, and with one the length
      cases htrim : trimSlashes node.toList with
      | nil => rw [htrim] at hchars; cases hchars
      | cons c cs =>
        rw [htrim] at hchars
        have hlen := congrArg List.length hchars
        simp only [List.length_append, List.length_cons] at hlen
        omega
    · intro h
      obtain ⟨rest, hrest⟩ := h
      rw [hname] at hrest
      cases hrest
  next hslash htilde =>
    constructor
    · intro h
      have hchars := congrArg String.toList h
      rw [String.toList_ofList] at hchars
      exact absurd hchars (List.cons_ne_self _ _)
    · intro h
      obtain ⟨rest, hrest⟩ := h
      exact absurd hrest (hslash rest)

/-! ## Slashes at the end -/

theorem Name.trimSlashes_prefix (cs : List Char) : trimSlashes cs <+: cs :=
  List.rdropWhile_prefix _ _

theorem Name.trimSlashes_append (cs ds : List Char) :
    trimSlashes (cs ++ ds) =
      if trimSlashes ds = [] then trimSlashes cs else cs ++ trimSlashes ds := by
  unfold trimSlashes
  rw [List.reverse_append, List.dropWhile_append]
  by_cases h : (ds.reverse.dropWhile (· = '/')).isEmpty = true
  · rw [if_pos h, if_pos (by simpa using h)]
  · rw [if_neg h, if_neg (by simpa using h), List.reverse_append, List.reverse_reverse]

/-! ## Texts of paths -/

theorem Path.toList_toText (p : Path) :
    p.toText.toList = p.segments.flatMap fun s => '/' :: s.toList := by
  have hfold : ∀ (segments : List String) (text : String),
      (segments.foldl (fun text s => text ++ "/" ++ s) text).toList =
        text.toList ++ segments.flatMap fun s => '/' :: s.toList := by
    intro segments
    induction segments with
    | nil => exact fun text => (List.append_nil _).symm
    | cons s segments ih =>
      intro text
      rw [List.foldl_cons, ih, List.flatMap_cons, String.toList_append, String.toList_append,
        List.append_assoc, List.append_assoc]
      rfl
  exact hfold p.segments ""

end NodeGraph
