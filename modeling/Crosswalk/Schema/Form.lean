import Crosswalk.Json.Forms
import Crosswalk.Schema.Node

/-!
# Schema trees as JSON

A node is written as an object; its children are left out when there are none, and the mark of an
attribute when it is not one.  It is read from such an object or from an array of the five entries
in their order, of which the last two may be missing.
-/

namespace Crosswalk.Schema

mutual

/-- A node as a JSON value. -/
def Node.toJson : Node → Json.Value
  | ⟨name, path, kind, children, isAttribute⟩ =>
    .object ([("name", .string name), ("path", .string path), ("kind", .string kind.name)]
      ++ (if children.isEmpty then [] else [("children", .array (nodesToJson children))])
      ++ (if isAttribute then [("isAttribute", .bool true)] else []))

/-- Nodes as JSON values. -/
def nodesToJson : List Node → List Json.Value
  | [] => []
  | n :: rest => n.toJson :: nodesToJson rest

end

/-- A schema as a JSON value. -/
def toJson (nodes : List Node) : Json.Value :=
  .array (nodesToJson nodes)

/-! ### Reading -/

/-- A node of which the entries are still to come. -/
structure NodeDraft where
  name : Option String
  path : Option String
  kind : Option Kind
  children : Option (List Node)
  isAttribute : Option Bool

/-- The node that a draft gives. -/
def NodeDraft.finish (draft : NodeDraft) : Except Json.DataFault Node := do
  let name ← Json.required "name" draft.name
  let path ← Json.required "path" draft.path
  let kind ← Json.required "kind" draft.kind
  return ⟨name, path, kind, draft.children.getD [], draft.isAttribute.getD false⟩

/-- How a node is read whose entries may open `depth` arrays and objects, and whose children are
read by the given reader. -/
def nodeRecord (depth : Nat) (children : Json.Reader (List Node)) : Json.Record NodeDraft Node where
  title := "struct SchemaNode"
  fields :=
    [.of "name" true Json.readText NodeDraft.name
       (fun draft name => { draft with name := some name }),
     .of "path" true Json.readText NodeDraft.path
       (fun draft path => { draft with path := some path }),
     .of "kind" true (Json.readChoice depth Kind.choices) NodeDraft.kind
       (fun draft kind => { draft with kind := some kind }),
     .of "children" false children NodeDraft.children
       (fun draft children => { draft with children := some children }),
     .of "isAttribute" false Json.readFlag NodeDraft.isAttribute
       (fun draft isAttribute => { draft with isAttribute := some isAttribute })]
  blank := ⟨none, none, none, none, none⟩
  finish := NodeDraft.finish

mutual

/-- Reads a list of nodes that opens no more than `depth` arrays and objects at a time. -/
def readNodes : (depth : Nat) → Json.Reader (List Node)
  | 0 => Json.readList none
  | depth + 1 => Json.readList (some (readNode depth))

/-- Reads a node that opens no more than `depth` arrays and objects at a time. -/
def readNode : (depth : Nat) → Json.Reader Node
  | 0 => (nodeRecord 0 (Json.readList none)).read 0
  | depth + 1 => (nodeRecord depth (readNodes depth)).read (depth + 1)

end

/-- Reads a text as a schema. -/
def read (text : String) : Except Json.Error (List Node) :=
  Json.readWhole (readNodes Json.maxDepth) text

end Crosswalk.Schema
