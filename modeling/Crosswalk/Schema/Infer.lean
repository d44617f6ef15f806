import Crosswalk.Path.Split
import Crosswalk.Schema.Node

/-!
# The schema of a document

Each field of a document gives a node; the path of the node is the path of its parent, a dot and
the name of the field.  An array gives one node, whose children are the fields of its first item
when that is an object: its later items count for nothing.  Only an array that is the whole
document gives a node for every item, named by its position.

* `nodeOf_path` : the path of a node is known before its value is looked at.
-/

namespace Crosswalk.Schema

/-- The path of a field below another one; below the whole document it is the name alone. -/
def childPath (parent name : String) : String :=
  if parent.isEmpty then name else parent ++ "." ++ name

/-- The name to be shown for a field: without its mark, if it is an attribute. -/
def shownName (name : String) : String :=
  if Path.isAttributePiece name then String.ofList (name.toList.drop 2) else name

/-- The node of a field with a given kind and the given children. -/
def fieldNode (parent name : String) (kind : Kind) (children : List Node) : Node where
  name := shownName name
  path := childPath parent name
  kind := kind
  children := children
  isAttribute := Path.isAttributePiece name

mutual

/-- The node of a field. -/
def nodeOf (parent name : String) : Json.Value → Node
  | .object fields =>
    fieldNode parent name .object (nodesOf (childPath parent name) fields)
  | .array (.object fields :: _) =>
    fieldNode parent name .array (nodesOf (childPath parent name) fields)
  | .array _ => fieldNode parent name .array []
  | v => fieldNode parent name (.ofScalar v) []

/-- The nodes of some fields. -/
def nodesOf (parent : String) : List (String × Json.Value) → List Node
  | [] => []
  | (name, v) :: rest => nodeOf parent name v :: nodesOf parent rest

end

/-- The items of an array as fields that are named by their positions. -/
def numbered (items : List Json.Value) : List (String × Json.Value) :=
  items.zipIdx.map fun (v, i) => (toString i, v)

/-- The schema of a document. -/
def infer : Json.Value → List Node
  | .object fields => nodesOf "" fields
  | .array items => nodesOf "" (numbered items)
  | _ => []

/-- The path of a node is known before its value is looked at. -/
theorem nodeOf_path (parent name : String) (v : Json.Value) :
    (nodeOf parent name v).path = childPath parent name := by
  unfold nodeOf
  split <;> rfl

end Crosswalk.Schema
