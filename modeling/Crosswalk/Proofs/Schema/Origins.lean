import Crosswalk.Proofs.Path.Splitting
import Crosswalk.Schema.Infer

/-!
# Where the nodes of a schema come from

Every node of a schema was inferred from one value of the document.  The keys of the fields that lead
to that value, those of first items where they pass an array, are also what the path of the node is
made of.

* `Origin` : the keys and the value that a node comes from.
* `mem_preorder_nodesOf` : every node has an origin, and what has one is a node.
* `Origin.split_path` : the pieces of the path of a node are its keys.
-/

namespace Crosswalk.Schema

/-- The fields that the children of a node are inferred from: those of an object, or of the object
that is the first item of an array. -/
def childFields : Json.Value → Fields Json.Value
  | .object fields => fields
  | .array (.object fields :: _) => fields
  | _ => []

/-- The fields that the outermost nodes of a schema are inferred from. -/
def topFields : Json.Value → Fields Json.Value
  | .object fields => fields
  | .array items => numbered items
  | _ => []

/-- `Origin parent fields keys n v` : from some fields below a parent the keys lead to the value `v`,
by way of first items where they meet an array, and `n` is the node that is inferred from it. -/
inductive Origin : String → Fields Json.Value → List String → Node → Json.Value → Prop
  | here {parent key : String} {fields : Fields Json.Value} {v : Json.Value}
      (h : (key, v) ∈ fields) : Origin parent fields [key] (nodeOf parent key v) v
  | inside {parent key : String} {fields : Fields Json.Value} {keys : List String} {n : Node}
      {v w : Json.Value} (h : (key, w) ∈ fields)
      (hn : Origin (childPath parent key) (childFields w) keys n v) :
      Origin parent fields (key :: keys) n v

/-! ### The node of a field -/

theorem nodeOf_children (parent name : String) (v : Json.Value) :
    (nodeOf parent name v).children = nodesOf (childPath parent name) (childFields v) := by
  unfold nodeOf childFields
  split <;> simp_all [fieldNode, nodesOf]

theorem nodeOf_name (parent name : String) (v : Json.Value) :
    (nodeOf parent name v).name = shownName name := by
  unfold nodeOf
  split <;> rfl

theorem nodeOf_isAttribute (parent name : String) (v : Json.Value) :
    (nodeOf parent name v).isAttribute = Path.isAttributePiece name := by
  unfold nodeOf
  split <;> rfl

theorem nodeOf_isContainer (parent name : String) (v : Json.Value) :
    (nodeOf parent name v).kind.isContainer = v.isContainer := by
  unfold nodeOf
  split
  · rfl
  · rfl
  · rfl
  · cases v <;> simp_all [fieldNode, Kind.ofScalar, Kind.isContainer, Json.Value.isContainer]

theorem infer_eq (d : Json.Value) : infer d = nodesOf "" (topFields d) := by
  cases d <;> simp [infer, topFields, nodesOf]

/-! ### Nodes and origins -/

theorem mem_preorder_nodesOf_iff_field {parent : String} {fields : Fields Json.Value} {n : Node} :
    n ∈ preorder (nodesOf parent fields) ↔
      ∃ f ∈ fields, n ∈ (nodeOf parent f.1 f.2).preorder := by
  induction fields with
  | nil => simp [nodesOf, preorder]
  | cons f rest ih =>
    obtain ⟨key, v⟩ := f
    simp [nodesOf, preorder, ih]

theorem sizeOf_childFields_lt {key : String} {w : Json.Value} {fields : Fields Json.Value}
    (h : (key, w) ∈ fields) : sizeOf (childFields w) < sizeOf fields := by
  have hfield := List.sizeOf_lt_of_mem h
  have hvalue : sizeOf (key, w) = 1 + sizeOf key + sizeOf w := rfl
  unfold childFields
  split
  · simp only [Json.Value.object.sizeOf_spec] at hvalue
    omega
  · simp only [Json.Value.array.sizeOf_spec, Json.Value.object.sizeOf_spec,
      List.cons.sizeOf_spec] at hvalue
    omega
  · have hnil : sizeOf ([] : Fields Json.Value) = 1 := rfl
    omega

/-- **Every node has an origin**, and what has one is a node. -/
theorem mem_preorder_nodesOf {parent : String} {fields : Fields Json.Value} {n : Node} :
    n ∈ preorder (nodesOf parent fields) ↔ ∃ keys v, Origin parent fields keys n v := by
  constructor
  · intro hn
    obtain ⟨⟨key, w⟩, hfield, hmem⟩ := mem_preorder_nodesOf_iff_field.1 hn
    rw [Node.preorder_eq, List.mem_cons, nodeOf_children] at hmem
    rcases hmem with rfl | hbelow
    · exact ⟨[key], w, .here hfield⟩
    · have hsize := sizeOf_childFields_lt hfield
      obtain ⟨keys, v, horigin⟩ := mem_preorder_nodesOf.1 hbelow
      exact ⟨key :: keys, v, .inside hfield horigin⟩
  · rintro ⟨keys, v, horigin⟩
    induction horigin with
    | @here parent key fields v hfield =>
      refine mem_preorder_nodesOf_iff_field.2 ⟨(key, v), hfield, ?_⟩
      rw [Node.preorder_eq]
      exact List.mem_cons_self
    | @inside parent key fields keys n v w hfield _ ih =>
      refine mem_preorder_nodesOf_iff_field.2 ⟨(key, w), hfield, ?_⟩
      rw [Node.preorder_eq, nodeOf_children]
      exact List.mem_cons_of_mem _ ih
termination_by sizeOf fields

/-! ### Paths -/

theorem Origin.path_eq {parent : String} {fields : Fields Json.Value} {keys : List String}
    {n : Node} {v : Json.Value} (h : Origin parent fields keys n v) :
    n.path = keys.foldl childPath parent := by
  induction h with
  | here => exact nodeOf_path _ _ _
  | inside _ _ ih => exact ih

theorem foldl_childPath {parent : String} (h : parent ≠ "") (keys : List String) :
    keys.foldl childPath parent = Path.join (parent :: keys) := by
  induction keys generalizing parent with
  | nil => simp [Path.join]
  | cons key rest ih =>
    have hchild : childPath parent key = parent ++ "." ++ key := by simp [childPath, h]
    have hne : parent ++ "." ++ key ≠ "" := by simp
    rw [List.foldl_cons, hchild, ih hne]
    cases rest with
    | nil => simp [Path.join]
    | cons next rest => simp only [Path.join_cons_cons, String.append_assoc]

/-- **The pieces of the path** of a node are the keys that it comes from, if each of them can be a
piece. -/
theorem Origin.split_path {fields : Fields Json.Value} {keys : List String} {n : Node}
    {v : Json.Value} (h : Origin "" fields keys n v)
    (hkeys : ∀ key ∈ keys, Path.IsPlainPiece key) :
    Path.split n.path = keys := by
  have hjoin : n.path = Path.join keys := by
    rw [h.path_eq]
    cases keys with
    | nil => simp [Path.join]
    | cons key rest =>
      have hkey := (hkeys key List.mem_cons_self).1
      have hfirst : childPath "" key = key := by simp [childPath]
      rw [List.foldl_cons, hfirst, foldl_childPath hkey]
  rw [hjoin]
  exact Path.split_join_of_plain hkeys

end Crosswalk.Schema
