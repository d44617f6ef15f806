import Crosswalk.Json.Value

/-!
# Schema trees

A schema is a list of trees.  A node stands for one field of a document: its name, the path that
leads to it, its kind and the fields below it.  The nodes of a schema are visited parents first and
siblings from left to right.

* `walk_eq_preorder` : visiting with a list of the trees still to come is the recursive traversal.
-/

namespace Crosswalk.Schema

/-- What the values of a field are. -/
inductive Kind where
  | object
  | array
  | string
  | number
  | boolean
deriving DecidableEq, Repr

namespace Kind

/-- The kinds by their names. -/
def choices : List (String × Kind) :=
  [("object", object), ("array", array), ("string", string), ("number", number),
   ("boolean", boolean)]

/-- The name of a kind. -/
def name : Kind → String
  | object => "object"
  | array => "array"
  | string => "string"
  | number => "number"
  | boolean => "boolean"

/-- The kind of a value that is neither object nor array; null counts as a string. -/
def ofScalar : Json.Value → Kind
  | .number _ => number
  | .bool _ => boolean
  | _ => string

/-- Whether values of a kind hold other values. -/
def isContainer : Kind → Bool
  | object => true
  | array => true
  | _ => false

/-- Every kind is found under its name. -/
theorem get?_choices_name (k : Kind) : Fields.get? k.name choices = some k := by
  cases k <;> simp [name, choices, Fields.get?]

end Kind

/-- A field of a document. -/
structure Node where
  /-- The name to be shown, without the mark of an attribute. -/
  name : String
  /-- The path that leads to the field. -/
  path : String
  kind : Kind
  children : List Node
  isAttribute : Bool
deriving Repr

mutual

/-- A node and all nodes below it, parents first. -/
def Node.preorder : Node → List Node
  | ⟨name, path, kind, children, isAttribute⟩ =>
    ⟨name, path, kind, children, isAttribute⟩ :: preorder children

/-- The nodes of some trees, parents first. -/
def preorder : List Node → List Node
  | [] => []
  | n :: rest => n.preorder ++ preorder rest

end

/-- How many nodes some trees have. -/
def count (nodes : List Node) : Nat :=
  (preorder nodes).length

theorem Node.preorder_eq (n : Node) : n.preorder = n :: Schema.preorder n.children := by
  cases n
  rw [Node.preorder]

theorem preorder_append (ms ns : List Node) :
    preorder (ms ++ ns) = preorder ms ++ preorder ns := by
  induction ms with
  | nil => simp [preorder]
  | cons m ms ih => simp [preorder, ih]

/-- The nodes of some trees, in the order of a visit that keeps a list of the trees to come: the
first of them is visited and its children take its place. -/
def walk (nodes : List Node) : List Node :=
  match nodes with
  | [] => []
  | n :: rest => n :: walk (n.children ++ rest)
termination_by count nodes
decreasing_by
  simp [count, preorder, preorder_append, Node.preorder_eq]

/-- Both ways to visit the nodes have the same order. -/
theorem walk_eq_preorder (nodes : List Node) : walk nodes = preorder nodes := by
  fun_induction walk nodes with
  | case1 => simp [preorder]
  | case2 n rest ih => simp [ih, preorder, preorder_append, Node.preorder_eq]

/-- The children of a node whose kind can have some. -/
def Node.children? (n : Node) : Option (List Node) :=
  if n.kind.isContainer then some n.children else none

end Crosswalk.Schema
