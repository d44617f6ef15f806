import Crosswalk.Path.Split
import Crosswalk.Schema.Infer

/-!
# Finding nodes

A path leads through a schema from parent to child, one piece at a time.  What stands in brackets
does not count, and neither do empty pieces.

* `descend_length` : a path that is found passes one node for each of its pieces.
-/

namespace Crosswalk.Schema

/-- The nodes that some pieces pass on their way down from a node with the given path and
children. -/
def descend (reached : String) (nodes : List Node) : List String → Option (List Node)
  | [] => some []
  | piece :: rest =>
    let path := childPath reached (Path.bareName piece)
    match nodes.find? (fun n => n.path == path) with
    | none => none
    | some n => (descend path n.children rest).map (n :: ·)

/-- The nodes that a path passes, its end included. -/
def ancestry (nodes : List Node) (path : String) : Option (List Node) :=
  match Path.split path with
  | [] => none
  | pieces => descend "" nodes pieces

/-- The node that a path leads to. -/
def find? (nodes : List Node) (path : String) : Option Node :=
  (ancestry nodes path).bind List.getLast?

/-- Whether a path passes an array before its end. -/
def isInArray (nodes : List Node) (path : String) : Bool :=
  match ancestry nodes path with
  | none => false
  | some chain => chain.dropLast.any (fun n => n.kind == .array)

/-- A node's attributes among the given siblings, by the names to be shown. -/
def attributeNames (siblings : List Node) : List String :=
  (siblings.filter Node.isAttribute).map Node.name

/-- The attributes that a filter on the end of a path can ask for: those that stand beside it. -/
def suggestions (nodes : List Node) (path : String) : List String :=
  match ancestry nodes path with
  | none => []
  | some chain =>
    match chain.dropLast.getLast? with
    | some parent => attributeNames parent.children
    | none => attributeNames nodes

/-- The question for a filter, with the first suggestion as its example. -/
def filterPrompt (suggested : List String) : String :=
  "Enter array filter predicate (e.g., @" ++ suggested.headD "attribute"
    ++ "='value' or leave empty):"

/-- A path that is found passes one node for each of its pieces. -/
theorem descend_length {reached : String} {nodes chain : List Node} {pieces : List String}
    (h : descend reached nodes pieces = some chain) : chain.length = pieces.length := by
  induction pieces generalizing reached nodes chain with
  | nil =>
    simp only [descend, Option.some.injEq] at h
    simp [← h]
  | cons piece rest ih =>
    simp only [descend] at h
    split at h
    · simp at h
    · simp only [Option.map_eq_some_iff] at h
      obtain ⟨chain, hc, rfl⟩ := h
      simp [ih hc]

end Crosswalk.Schema
