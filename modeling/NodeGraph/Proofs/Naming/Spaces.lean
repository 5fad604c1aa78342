import NodeGraph.Graph.Registry
import NodeGraph.Proofs.Naming.Global

/-!
# Namespaces on a graph

A node is called by a path, and all of the path but its last segment is the namespace that
the node stands in. By the rules of namespaces a name with a slash in front stands for
itself, a name with a tilde is looked up below the node, and any other name beside it:

> `Place.namespaced`: the name that these rules give.

A graph takes nodes of any namespace (`Place.register_text`) and has a rule of its own for
the third kind of names, which are all looked up at the root. So a node inside a namespace
uses the topics and services of the root under every name that is neither global nor private.

> `names_resolved`: what a graph makes of each kind of name, and that this is what the rules
> of namespaces give exactly if the name is global or private or the node stands at the root.
> Whatever comes of it is global, and stands for itself from then on.
-/

namespace NodeGraph

open Name (trimSlashes)

/-- Whether a name is private to the node that uses it. -/
def Name.IsPrivate (name : String) : Prop := ∃ own, name.toList = '~' :: own

/-- A segment of a name holds something, and no slash. -/
def Path.IsSegment (s : String) : Prop := s ≠ "" ∧ '/' ∉ s.toList

instance (s : String) : Decidable (Path.IsSegment s) :=
  inferInstanceAs (Decidable (s ≠ "" ∧ '/' ∉ s.toList))

/-- Where a node stands: its namespace, and the segment that is its own. -/
structure Place where
  space : Path
  base : String
  spaced : ∀ s ∈ space.segments, Path.IsSegment s
  based : Path.IsSegment base

namespace Place

/-- The path of a node. -/
def path (p : Place) : Path := p.space.append ⟨[p.base]⟩

/-- The name of a node. -/
def text (p : Place) : String := p.space.toText ++ "/" ++ p.base

/-- What the rules of namespaces make of a name that the node uses. -/
def namespaced (p : Place) (name : String) : String :=
  match name.toList with
  | '/' :: _ => name
  | '~' :: own => p.text ++ "/" ++ String.ofList own
  | _ => p.space.toText ++ "/" ++ name

end Place

/-! ## Names on a graph -/

namespace Name

theorem toList_below (front rest : String) :
    (front ++ "/" ++ rest).toList = front.toList ++ '/' :: rest.toList := by
  rw [String.toList_append, String.toList_append, List.append_assoc]
  rfl

/-- A name that is neither global nor private is looked up at the root, whoever uses it. -/
theorem resolve_of_relative (node : String) {name : String} (hglobal : ¬ IsGlobal name)
    (hprivate : ¬ IsPrivate name) : resolve node name = "/" ++ name := by
  unfold resolve
  split
  next rest hname => exact absurd ⟨rest, hname⟩ hglobal
  next own hname => exact absurd ⟨own, hname⟩ hprivate
  next =>
    apply String.toList_inj.mp
    rw [String.toList_ofList, String.toList_append]
    rfl

/-- What comes of a name that a node of a global name uses is global. -/
theorem isGlobal_resolve {node : String} (hnode : IsGlobal node) (name : String) :
    IsGlobal (resolve node name) := by
  unfold resolve
  split
  next rest hname => exact ⟨rest, hname⟩
  next own hname =>
    -- in front stands what is left of the node's name, or else a slash
    obtain ⟨rest, hrest⟩ := hnode
    have hprefix := trimSlashes_prefix node.toList
    unfold IsGlobal
    rw [String.toList_ofList]
    cases htrim : trimSlashes node.toList with
    | nil => exact ⟨own, rfl⟩
    | cons c cs =>
      rw [htrim, hrest] at hprefix
      obtain rfl : c = '/' := (List.cons_prefix_cons.mp hprefix).1
      exact ⟨_, rfl⟩
  next => exact ⟨name.toList, String.toList_ofList⟩

end Name

/-! ## Paths of segments -/

namespace Path

theorem IsSegment.trimSlashes_cons {s : String} (h : IsSegment s) :
    trimSlashes ('/' :: s.toList) = '/' :: s.toList := by
  obtain ⟨hne, hslash⟩ := h
  have hchars : s.toList ≠ [] := fun he => hne (String.toList_inj.mp he)
  refine List.rdropWhile_eq_self_iff.mpr fun hcons hlast => hslash ?_
  rw [List.getLast_cons hchars] at hlast
  exact of_decide_eq_true hlast ▸ List.getLast_mem hchars

theorem toText_append_singleton (p : Path) (s : String) :
    (p.append ⟨[s]⟩).toText = p.toText ++ "/" ++ s :=
  List.foldl_append

/-- What stands below a text without slashes at its end loses only its own. -/
theorem trimSlashes_below {cs : List Char} (h : trimSlashes cs = cs) (ds : List Char) :
    trimSlashes (cs ++ ds) = cs ++ trimSlashes ds := by
  rw [Name.trimSlashes_append]
  split
  next hnil => rw [hnil, List.append_nil, h]
  next => rfl

/-- A path of segments has no slash at its end. -/
theorem trimSlashes_toText {p : Path} (h : ∀ s ∈ p.segments, IsSegment s) :
    trimSlashes p.toText.toList = p.toText.toList := by
  rw [toList_toText]
  generalize p.segments = segments at h
  induction segments using List.reverseRecOn with
  | nil => rfl
  | append_singleton front last ih =>
    have hlast : IsSegment last := h last (List.mem_append_right _ (List.mem_singleton_self _))
    have hfront := ih fun s hs => h s (List.mem_append_left _ hs)
    rw [List.flatMap_append, List.flatMap_singleton, trimSlashes_below hfront,
      hlast.trimSlashes_cons]

end Path

namespace Place

variable {place : Place} {name : String}

theorem toText_path (p : Place) : p.path.toText = p.text := p.space.toText_append_singleton p.base

theorem trimSlashes_text (p : Place) : trimSlashes p.text.toList = p.text.toList := by
  rw [← toText_path]
  refine Path.trimSlashes_toText fun s hs => ?_
  rcases List.mem_append.mp hs with hspace | hbase
  · exact p.spaced s hspace
  · exact List.mem_singleton.mp hbase ▸ p.based

theorem isGlobal_text (p : Place) : Name.IsGlobal p.text := by
  unfold Name.IsGlobal
  rw [← toText_path, Path.toList_toText]
  unfold path Path.append
  cases p.space.segments with
  | nil => exact ⟨_, rfl⟩
  | cons s rest => exact ⟨_, rfl⟩

/-- A node can be registered wherever it is to stand, if nobody stands there. -/
theorem register_text {ε : Type} (p : Place) {g : Graph ε} (h : ∀ n ∈ g.nodes, n.name ≠ p.text) :
    (g.register p.text).1 = .ok ⟨g.lastId + 1, p.text⟩ := by
  have hself : Name.resolve "/" p.text = p.text := Name.resolve_eq_self_iff.mpr p.isGlobal_text
  have hfree : ¬ (g.nodes.any (·.name = p.text)) = true := by
    intro hany
    obtain ⟨n, hn, hname⟩ := List.any_eq_true.mp hany
    exact h n hn (of_decide_eq_true hname)
  unfold Graph.register
  simp only [hself, if_neg hfree]

/-! ## The rules of namespaces -/

theorem namespaced_of_isGlobal (p : Place) (h : Name.IsGlobal name) : p.namespaced name = name := by
  obtain ⟨rest, hrest⟩ := h
  unfold namespaced
  simp only [hrest]

theorem namespaced_of_isPrivate (p : Place) {own : List Char} (h : name.toList = '~' :: own) :
    p.namespaced name = p.text ++ "/" ++ String.ofList own := by
  unfold namespaced
  simp only [h]

theorem namespaced_of_relative (p : Place) (hglobal : ¬ Name.IsGlobal name)
    (hprivate : ¬ Name.IsPrivate name) : p.namespaced name = p.space.toText ++ "/" ++ name := by
  unfold namespaced
  split
  next rest hname => exact absurd ⟨rest, hname⟩ hglobal
  next own hname => exact absurd ⟨own, hname⟩ hprivate
  next => rfl

/-! ## The rule of a graph -/

/-- A node uses its private names as the rules of namespaces say. -/
theorem resolve_of_isPrivate (p : Place) {own : List Char} (h : name.toList = '~' :: own) :
    Name.resolve p.text name = p.text ++ "/" ++ String.ofList own := by
  unfold Name.resolve
  simp only [h]
  apply String.toList_inj.mp
  rw [String.toList_ofList, p.trimSlashes_text, Name.toList_below, String.toList_ofList]

/-- The root has no text, and any other namespace has some. -/
theorem toText_space_eq_empty_iff (p : Place) : p.space.toText = "" ↔ p.space.segments = [] := by
  rw [← String.toList_inj, Path.toList_toText]
  cases p.space.segments with
  | nil => exact iff_of_true rfl rfl
  | cons s rest => exact iff_of_false (List.cons_ne_nil _ _) (List.cons_ne_nil _ _)

/-- A graph goes by the rules of namespaces as long as no name depends on the namespace. -/
theorem resolve_eq_namespaced_iff (p : Place) (name : String) :
    Name.resolve p.text name = p.namespaced name ↔
      Name.IsGlobal name ∨ Name.IsPrivate name ∨ p.space.segments = [] := by
  by_cases hglobal : Name.IsGlobal name
  · rw [Name.resolve_eq_self_iff.mpr hglobal, p.namespaced_of_isGlobal hglobal]
    exact iff_of_true rfl (.inl hglobal)
  by_cases hprivate : Name.IsPrivate name
  · obtain ⟨own, hown⟩ := hprivate
    rw [p.resolve_of_isPrivate hown, p.namespaced_of_isPrivate hown]
    exact iff_of_true rfl (.inr (.inl ⟨own, hown⟩))
  rw [Name.resolve_of_relative p.text hglobal hprivate,
    p.namespaced_of_relative hglobal hprivate, or_iff_right hglobal, or_iff_right hprivate,
    ← toText_space_eq_empty_iff]
  constructor
  · intro h
    -- both end in the same, so that nothing is left for the namespace
    have hchars : ("/" ++ name).toList = p.space.toText.toList ++ ("/" ++ name).toList := by
      rw [← String.toList_append, ← String.append_assoc, ← h]
    exact String.toList_inj.mp (List.self_eq_append_left.mp hchars)
  · intro h
    rw [h, String.empty_append]

end Place

/-- **A graph has one namespace.** A node can stand anywhere. The global names that it uses
stand for themselves, its private ones stand below it, and all others at the root. That is
what the rules of namespaces say exactly if the name is global or private or the node stands
at the root itself. What comes of a name is global, and is not
changed by resolving it again, for whomever. -/
theorem names_resolved (place : Place) (name : String) :
    (∀ {ε : Type} (g : Graph ε), (∀ n ∈ g.nodes, n.name ≠ place.text) →
      (g.register place.text).1 = .ok ⟨g.lastId + 1, place.text⟩) ∧
    (Name.IsGlobal name → Name.resolve place.text name = name) ∧
    (∀ own, name.toList = '~' :: own →
      Name.resolve place.text name = place.text ++ "/" ++ String.ofList own) ∧
    (¬ Name.IsGlobal name → ¬ Name.IsPrivate name →
      Name.resolve place.text name = "/" ++ name) ∧
    (Name.resolve place.text name = place.namespaced name ↔
      Name.IsGlobal name ∨ Name.IsPrivate name ∨ place.space.segments = []) ∧
    Name.IsGlobal (Name.resolve place.text name) ∧
    ∀ other, Name.resolve other (Name.resolve place.text name) =
      Name.resolve place.text name := by
  have hglobal := Name.isGlobal_resolve place.isGlobal_text name
  exact ⟨fun _ => place.register_text, Name.resolve_eq_self_iff.mpr,
    fun _ => place.resolve_of_isPrivate, Name.resolve_of_relative place.text,
    place.resolve_eq_namespaced_iff name, hglobal, fun _ => Name.resolve_eq_self_iff.mpr hglobal⟩

/-- A node in a namespace. -/
def Place.nested : Place where
  space := ⟨["robot"]⟩
  base := "listener"
  spaced := by decide +kernel
  based := by decide +kernel

/-- Its private names are its own, and its other names are those of the root. -/
theorem names_resolved_nested :
    Name.resolve "/robot/listener" "~rate" = "/robot/listener/rate" ∧
      Name.resolve "/robot/listener" "chatter" = "/chatter" ∧
      Place.nested.namespaced "chatter" = "/robot/chatter" := by
  have htext : Place.nested.text = "/robot/listener" := by decide +kernel
  obtain ⟨-, -, hprivate, -⟩ := names_resolved Place.nested "~rate"
  obtain ⟨-, -, -, hrelative, -⟩ := names_resolved Place.nested "chatter"
  rw [htext] at hprivate hrelative
  refine ⟨?_, hrelative ?_ ?_, by decide +kernel⟩
  · exact (hprivate ['r', 'a', 't', 'e'] rfl).trans (by decide +kernel)
  · exact fun ⟨rest, hrest⟩ => absurd (List.cons.inj hrest).1 (by decide)
  · exact fun ⟨own, hown⟩ => absurd (List.cons.inj hown).1 (by decide)

/-- A node in a namespace leaves it with every name that is neither global nor private. -/
theorem nested_not_namespaced :
    Name.resolve Place.nested.text "chatter" ≠ Place.nested.namespaced "chatter" := by
  decide +kernel

end NodeGraph
