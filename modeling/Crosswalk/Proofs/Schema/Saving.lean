import Crosswalk.Proofs.Json.Refusals
import Crosswalk.Schema.Form

/-!
# Saving and loading schemas

The text of a schema is read back as that schema, whatever its nodes are called and whatever stands
below them, as long as it is not nested too deeply.  A node on the innermost level opens an object,
and each level above it an array and an object more, inside the array of the whole; so 127 arrays
and objects at a time are enough for 63 levels and not for 64.

* `Node.takes_fields` : the fields of a node make up that node, also those that are left out.
* `Node.written`, `written_readNodes` : nodes are read back while the depth lasts.
* `Node.refused`, `refused_readNodes` : nodes that are nested more deeply are refused.
* `read_textOf` : what becomes of the text of every schema.
-/

namespace Crosswalk.Schema

open Json

/-! ### Levels -/

mutual

/-- On how many levels a node and the nodes below it stand. -/
def Node.height : Node → Nat
  | ⟨_, _, _, children, _⟩ => levels children + 1

/-- On how many levels the nodes of some trees stand. -/
def levels : List Node → Nat
  | [] => 0
  | n :: rest => max n.height (levels rest)

end

theorem Node.height_eq (n : Node) : n.height = levels n.children + 1 := by
  cases n
  rw [Node.height]

theorem levels_le_iff {nodes : List Node} {k : Nat} :
    levels nodes ≤ k ↔ ∀ n ∈ nodes, n.height ≤ k := by
  induction nodes with
  | nil => simp [levels]
  | cons n rest ih => rw [levels, Nat.max_le, ih, List.forall_mem_cons]

theorem lt_levels_iff {nodes : List Node} {k : Nat} :
    k < levels nodes ↔ ∃ n ∈ nodes, k < n.height := by
  rw [← Nat.not_le, levels_le_iff]
  simp

theorem levels_pos {nodes : List Node} (h : nodes ≠ []) : 0 < levels nodes := by
  obtain ⟨n, hn⟩ := List.exists_mem_of_ne_nil nodes h
  exact lt_levels_iff.2 ⟨n, hn, by rw [n.height_eq]; omega⟩

theorem Node.sizeOf_lt_of_mem {n child : Node} (h : child ∈ n.children) :
    sizeOf child < sizeOf n := by
  have hlt := List.sizeOf_lt_of_mem h
  cases n
  simp only [Node.mk.sizeOf_spec] at hlt ⊢
  omega

/-! ### The fields of a node -/

theorem nodesToJson_eq_map (nodes : List Node) : nodesToJson nodes = nodes.map Node.toJson := by
  induction nodes with
  | nil => rfl
  | cons n rest ih => rw [nodesToJson, ih, List.map_cons]

/-- The fields for the children of a node, which are left out if there are none. -/
def childrenFields (children : List Node) : List (String × Value) :=
  if children.isEmpty then [] else [("children", .array (nodesToJson children))]

/-- The field for the mark of an attribute, which is left out if there is none. -/
def markFields (isAttribute : Bool) : List (String × Value) :=
  if isAttribute then [("isAttribute", .bool true)] else []

theorem Node.toJson_eq (n : Node) :
    n.toJson = .object ([("name", .string n.name), ("path", .string n.path),
        ("kind", .string n.kind.name)]
      ++ (childrenFields n.children ++ markFields n.isAttribute)) := by
  cases n
  rw [Node.toJson]
  simp [childrenFields, markFields]

/-- Children and marks have fields exactly if they are there. -/
theorem Node.field?_toJson_eq_none (n : Node) :
    (n.toJson.field? "children" = none ↔ n.children = []) ∧
      (n.toJson.field? "isAttribute" = none ↔ n.isAttribute = false) := by
  rw [n.toJson_eq]
  constructor
  · cases hchildren : n.children <;> cases hmark : n.isAttribute <;>
      simp [Value.field?, Fields.get?, childrenFields, markFields]
  · cases hchildren : n.children <;> cases hmark : n.isAttribute <;>
      simp [Value.field?, Fields.get?, childrenFields, markFields]

section Fields

variable (depth : Nat) (children : Reader (List Node)) {layout : Layout} {level : Nat}

/-- A draft with the first three entries of a node, and the other two as given. -/
def Node.draft (n : Node) (children : Option (List Node)) (mark : Option Bool) : NodeDraft :=
  ⟨some n.name, some n.path, some n.kind, children, mark⟩

/-- The first three fields of a node are taken. -/
theorem Node.takes_front (n : Node) :
    Takes (nodeRecord depth children).onField layout level (nodeRecord depth children).blank
      [("name", .string n.name), ("path", .string n.path), ("kind", .string n.kind.name)]
      (n.draft none none) := by
  have hname := (written_readText n.name).map fun name =>
    ({ (nodeRecord depth children).blank with name := some name } : NodeDraft)
  have hpath := (written_readText n.path).map fun path =>
    (⟨some n.name, some path, none, none, none⟩ : NodeDraft)
  have hkind := (written_readChoice depth (Kind.get?_choices_name n.kind)).map fun kind =>
    (⟨some n.name, some n.path, some kind, none, none⟩ : NodeDraft)
  exact .cons (hname.declared rfl rfl layout) (.cons (hpath.declared rfl rfl layout)
    (.cons (hkind.declared rfl rfl layout) (.nil _)))

/-- Children are taken if their text is read back; without children nothing is. -/
theorem Node.takes_children (n : Node)
    (h : n.children ≠ [] →
      Written children ((Value.array (nodesToJson n.children)).chars layout level) n.children) :
    ∃ found, found.getD [] = n.children ∧
      Takes (nodeRecord depth children).onField layout level (n.draft none none)
        (childrenFields n.children) (n.draft found none) := by
  by_cases hnone : n.children = []
  · refine ⟨none, hnone.symm, ?_⟩
    rw [childrenFields, hnone]
    exact .nil _
  · have hentry := (h hnone).map fun found => n.draft (some found) none
    refine ⟨some n.children, rfl, ?_⟩
    rw [childrenFields, if_neg (by simpa using hnone)]
    exact .cons (hentry.declared rfl rfl layout) (.nil _)

/-- The mark of an attribute is taken; without the mark nothing is. -/
theorem Node.takes_mark (n : Node) (found : Option (List Node)) :
    ∃ mark, mark.getD false = n.isAttribute ∧
      Takes (nodeRecord depth children).onField layout level (n.draft found none)
        (markFields n.isAttribute) (n.draft found mark) := by
  cases hmark : n.isAttribute with
  | false => exact ⟨none, rfl, .nil _⟩
  | true =>
    have hentry := (written_readFlag_true layout level).map fun mark => n.draft found (some mark)
    exact ⟨some true, rfl, .cons (hentry.declared rfl rfl layout) (.nil _)⟩

/-- **The fields of a node make up that node**, if the text of its children is read back. -/
theorem Node.takes_fields (n : Node)
    (h : n.children ≠ [] →
      Written children ((Value.array (nodesToJson n.children)).chars layout level) n.children) :
    ∃ draft, Takes (nodeRecord depth children).onField layout level
        (nodeRecord depth children).blank
        ([("name", .string n.name), ("path", .string n.path), ("kind", .string n.kind.name)]
          ++ (childrenFields n.children ++ markFields n.isAttribute)) draft ∧
      (nodeRecord depth children).finish draft = .ok n := by
  obtain ⟨found, hfound, hchildren⟩ := n.takes_children depth children h
  obtain ⟨mark, hmark, hlast⟩ := n.takes_mark depth children found
  have htakes := (n.takes_front depth children).append (hchildren.append hlast)
  refine ⟨n.draft found mark, htakes, ?_⟩
  change Except.ok (Node.mk n.name n.path n.kind (found.getD []) (mark.getD false)) = .ok n
  rw [hfound, hmark]
  cases n
  rfl

end Fields

/-! ### Nodes within the depth -/

section Depth

variable {depth : Nat} {layout : Layout} {level : Nat} {nodes : List Node}

/-- A list of nodes is read back while the depth lasts, if its nodes are. -/
theorem written_readNodes
    (hnodes : ∀ n ∈ nodes, ∀ depth level, 2 * n.height ≤ depth + 1 →
      Written (readNode depth) (n.toJson.chars layout level) n)
    (hdepth : depth ≠ 0) (h : 2 * levels nodes ≤ depth) :
    Written (readNodes depth) ((Value.array (nodesToJson nodes)).chars layout level) nodes := by
  obtain ⟨depth, rfl⟩ := Nat.exists_eq_succ_of_ne_zero hdepth
  rw [nodesToJson_eq_map, readNodes]
  apply Written.list
  intro n hn
  have hheight : n.height ≤ levels nodes := levels_le_iff.1 (Nat.le_refl _) n hn
  exact hnodes n hn depth (level + 1) (by omega)

/-- **A node is read back while the depth lasts.** -/
theorem Node.written (n : Node) (depth level : Nat) (h : 2 * n.height ≤ depth + 1) :
    Written (readNode depth) (n.toJson.chars layout level) n := by
  rw [n.height_eq] at h
  cases depth with
  | zero => omega
  | succ depth =>
    have hchildren : n.children ≠ [] → Written (readNodes depth)
        ((Value.array (nodesToJson n.children)).chars layout (level + 1)) n.children := by
      intro hsome
      have hpos := levels_pos hsome
      exact written_readNodes (fun child hchild => child.written) (by omega) (by omega)
    obtain ⟨draft, htakes, hfinish⟩ := n.takes_fields depth _ hchildren
    rw [n.toJson_eq, readNode]
    exact (Written.object htakes hfinish (Nat.succ_ne_zero depth)).ofReadObject
termination_by sizeOf n
decreasing_by exact Node.sizeOf_lt_of_mem hchild

end Depth

/-! ### Nodes beyond the depth -/

section Beyond

variable {depth : Nat} {layout : Layout} {level : Nat} {nodes : List Node}

/-- The fields of a node are refused if the text of its children is. -/
theorem Node.stumbles {children : Reader (List Node)} (n : Node) (hsome : n.children ≠ [])
    {cause : Cause}
    (h : Refused children ((Value.array (nodesToJson n.children)).chars layout level) cause) :
    Stumbles (nodeRecord depth children).onField layout level cause
      (nodeRecord depth children).blank
      ([("name", .string n.name), ("path", .string n.path), ("kind", .string n.kind.name)]
        ++ (childrenFields n.children ++ markFields n.isAttribute)) := by
  have hentry := h.map fun found => n.draft (some found) none
  apply (n.takes_front depth children).stumbles
  rw [childrenFields, if_neg (by simpa using hsome)]
  exact .here (hentry.declared rfl rfl layout)

/-- A list of nodes is refused when the depth ends before its levels do, if its nodes are. -/
theorem refused_readNodes
    (hnodes : ∀ n ∈ nodes, ∀ depth level, depth + 1 < 2 * n.height →
      Refused (readNode depth) (n.toJson.chars layout level) (.grammar .tooDeep))
    (h : depth < 2 * levels nodes) :
    Refused (readNodes depth) ((Value.array (nodesToJson nodes)).chars layout level)
      (.grammar .tooDeep) := by
  cases depth with
  | zero => exact refused_readList_none _
  | succ depth =>
    -- Nodes in front of the first one that is too deep are read back, so that one is met.
    obtain ⟨deepest, hmem, hdeep⟩ : ∃ n ∈ nodes, (depth + 1) / 2 < n.height :=
      lt_levels_iff.1 (by omega)
    rw [nodesToJson_eq_map, readNodes]
    apply Refused.list
    · intro n hn
      by_cases hheight : 2 * n.height ≤ depth + 1
      · exact Or.inl (n.written depth (level + 1) hheight)
      · exact Or.inr (hnodes n hn depth (level + 1) (by omega))
    · exact ⟨deepest, hmem, hnodes deepest hmem depth (level + 1) (by omega)⟩

/-- **A node is refused when the depth ends before its levels do.** -/
theorem Node.refused (n : Node) (depth level : Nat) (h : depth + 1 < 2 * n.height) :
    Refused (readNode depth) (n.toJson.chars layout level) (.grammar .tooDeep) := by
  rw [n.height_eq] at h
  rw [n.toJson_eq]
  cases depth with
  | zero => exact (refused_readObject_zero _).ofReadObject
  | succ depth =>
    have hsome : n.children ≠ [] := by
      intro hnone
      rw [hnone, levels] at h
      omega
    have hchildren : Refused (readNodes depth)
        ((Value.array (nodesToJson n.children)).chars layout (level + 1)) (.grammar .tooDeep) :=
      refused_readNodes (fun child hchild => child.refused) (by omega)
    rw [readNode]
    exact (Refused.object (n.stumbles hsome hchildren) (Nat.succ_ne_zero depth)).ofReadObject
termination_by sizeOf n
decreasing_by exact Node.sizeOf_lt_of_mem hchild

end Beyond

/-! ### Schemas -/

/-- The text of a schema in a layout. -/
def textOf (layout : Layout) (nodes : List Node) : String :=
  match layout with
  | .compact => (toJson nodes).compact
  | .indented => (toJson nodes).indented

theorem toList_textOf (layout : Layout) (nodes : List Node) :
    (textOf layout nodes).toList = (Value.array (nodesToJson nodes)).chars layout 0 := by
  cases layout <;> exact String.toList_ofList

/-- **Saving and loading.**  In either layout the text of a schema is read back as that schema if
its nodes stand on no more than 63 levels, and is refused for its depth otherwise; what a node does
not have is left out of the text. -/
theorem read_textOf (nodes : List Node) (layout : Layout) :
    (levels nodes ≤ 63 ↔ read (textOf layout nodes) = .ok nodes) ∧
      (63 < levels nodes ↔
        ∃ place, read (textOf layout nodes) = .error ⟨.grammar .tooDeep, place⟩) ∧
      ∀ n ∈ preorder nodes, (n.toJson.field? "children" = none ↔ n.children = []) ∧
        (n.toJson.field? "isAttribute" = none ↔ n.isAttribute = false) := by
  have hread : levels nodes ≤ 63 → read (textOf layout nodes) = .ok nodes := by
    intro hlevels
    apply readWhole_of_written
    rw [toList_textOf]
    exact written_readNodes (fun n _ => n.written) (by decide) (by rw [maxDepth]; omega)
  have hrefused : 63 < levels nodes →
      ∃ place, read (textOf layout nodes) = .error ⟨.grammar .tooDeep, place⟩ := by
    intro hlevels
    apply readWhole_of_refused
    rw [toList_textOf]
    exact refused_readNodes (fun n _ => n.refused) (by rw [maxDepth]; omega)
  refine ⟨⟨hread, ?_⟩, ⟨hrefused, ?_⟩, fun n _ => n.field?_toJson_eq_none⟩
  · intro hok
    apply Nat.le_of_not_lt
    intro hdeep
    obtain ⟨place, herror⟩ := hrefused hdeep
    rw [hok] at herror
    cases herror
  · intro herror
    apply Nat.lt_of_not_le
    intro hflat
    obtain ⟨place, herror⟩ := herror
    rw [hread hflat] at herror
    cases herror

/-- As many nodes below each other, with quotes and line breaks in their names. -/
def nest : Nat → List Node
  | 0 => []
  | k + 1 => [⟨"\"\n", "a\\", .string, nest k, k % 2 = 0⟩]

theorem levels_nest (k : Nat) : levels (nest k) = k := by
  induction k with
  | zero => rfl
  | succ k ih => rw [nest, levels, levels, Node.height, ih, Nat.max_zero]

/-- 63 nodes below each other are read back, and 64 are not. -/
theorem read_textOf_nest :
    read (textOf .compact (nest 63)) = .ok (nest 63) ∧
      ∃ place, read (textOf .indented (nest 64)) = .error ⟨.grammar .tooDeep, place⟩ := by
  have hflat : levels (nest 63) ≤ 63 := Nat.le_of_eq (levels_nest 63)
  have hdeep : 63 < levels (nest 64) := Nat.le_of_eq (levels_nest 64).symm
  exact ⟨(read_textOf (nest 63) .compact).1.1 hflat, (read_textOf (nest 64) .indented).2.1.1 hdeep⟩

end Crosswalk.Schema
