import Crosswalk.Proofs.Fields
import Crosswalk.Proofs.Schema.Origins
import Crosswalk.Schema.Lookup

/-!
# The way to a node

The keys that a node comes from lead to it from parent to child, because no two fields beside each
other have the same key.  The node that is passed before it is its parent, whose children stand
beside it.

* `Origin.exists_parent` : every node below the outermost ones has a parent.
* `Origin.descend` : the keys of a node lead to it.
* `suggestions_of_parent` : a filter can ask for the attributes that stand beside a node.
-/

namespace Crosswalk.Schema

/-! ### Parents -/

theorem Origin.keys_ne_nil {parent : String} {fields : Fields Json.Value} {keys : List String}
    {n : Node} {v : Json.Value} (h : Origin parent fields keys n v) : keys ≠ [] := by
  cases h with
  | here => exact List.cons_ne_nil _ _
  | inside => exact List.cons_ne_nil _ _

/-- The children of a node are inferred from the fields below its origin. -/
theorem Origin.children_eq {parent : String} {fields : Fields Json.Value} {keys : List String}
    {n : Node} {v : Json.Value} (h : Origin parent fields keys n v) :
    n.children = nodesOf n.path (childFields v) := by
  induction h with
  | here => rw [nodeOf_children, nodeOf_path]
  | inside _ _ ih => exact ih

/-- Only from an array an array is inferred. -/
theorem exists_items_of_kind {parent name : String} {v : Json.Value}
    (h : (nodeOf parent name v).kind = .array) : ∃ items, v = .array items := by
  cases v with
  | array items => exact ⟨items, rfl⟩
  | _ => simp [nodeOf, fieldNode, Kind.ofScalar] at h

/-- What stands below a node stands below its origin. -/
theorem Origin.trans {parent : String} {fields : Fields Json.Value} {keys below : List String}
    {m n : Node} {w v : Json.Value} (hm : Origin parent fields keys m w)
    (hn : Origin m.path (childFields w) below n v) : Origin parent fields (keys ++ below) n v := by
  induction hm with
  | here hfield =>
    rw [nodeOf_path] at hn
    exact .inside hfield hn
  | inside hfield _ ih => exact .inside hfield (ih hn)

/-- **Every node has a parent**, unless it is one of the outermost. -/
theorem Origin.exists_parent {parent : String} {fields : Fields Json.Value} {keys : List String}
    {n : Node} {v : Json.Value} (h : Origin parent fields keys n v) (hlength : 1 < keys.length) :
    ∃ above key p w, keys = above ++ [key] ∧ Origin parent fields above p w ∧
      (key, v) ∈ childFields w ∧ n = nodeOf p.path key v := by
  induction h with
  | here => exact absurd hlength (by simp)
  | @inside parent key fields keys n v w hfield hn ih =>
    cases hn with
    | @here _ last _ _ hlast =>
      exact ⟨[key], last, nodeOf parent key w, w, rfl, .here hfield, hlast, by rw [nodeOf_path]⟩
    | @inside _ next _ later _ _ x hnext hlater =>
      have hmore : 1 < (next :: later).length := by
        cases hlater <;> simp
      obtain ⟨above, last, p, u, hkeys, hp, hlast, hnode⟩ := ih hmore
      exact ⟨key :: above, last, p, u, by rw [hkeys, List.cons_append], .inside hfield hp, hlast,
        hnode⟩

/-! ### The way down -/

theorem childPath_injective {parent first second : String}
    (h : childPath parent first = childPath parent second) : first = second := by
  unfold childPath at h
  split at h
  · exact h
  · simpa using h

theorem mem_nodesOf {parent : String} {fields : Fields Json.Value} {n : Node} :
    n ∈ nodesOf parent fields ↔ ∃ f ∈ fields, n = nodeOf parent f.1 f.2 := by
  induction fields with
  | nil => simp [nodesOf]
  | cons f rest ih =>
    obtain ⟨key, v⟩ := f
    simp [nodesOf, ih]

/-- The node of a field is found by its path among those of the fields beside it. -/
theorem find?_nodesOf (parent : String) {fields : Fields Json.Value}
    (hnodup : (Fields.names fields).Nodup) {key : String} {v : Json.Value} (h : (key, v) ∈ fields) :
    (nodesOf parent fields).find? (fun n => n.path == childPath parent key)
      = some (nodeOf parent key v) := by
  induction fields with
  | nil => cases h
  | cons f rest ih =>
    obtain ⟨first, w⟩ := f
    obtain ⟨hfirst, hrest⟩ := List.nodup_cons.1 hnodup
    rw [nodesOf]
    rcases List.mem_cons.1 h with heq | hmem
    · obtain ⟨rfl, rfl⟩ := Prod.mk.inj heq
      rw [List.find?_cons_of_pos (by rw [nodeOf_path, beq_iff_eq])]
    · have hne : childPath parent first ≠ childPath parent key := by
        intro heq
        obtain rfl := childPath_injective heq
        exact hfirst (List.mem_map.2 ⟨_, hmem, rfl⟩)
      rw [List.find?_cons_of_neg (by rw [nodeOf_path, beq_iff_eq]; exact hne)]
      exact ih hrest hmem

/-- **The keys of a node lead to it**, if no two fields beside each other have the same key. -/
theorem Origin.descend {distinct : Fields Json.Value → Prop}
    (hdistinct : ∀ fields, distinct fields →
      (Fields.names fields).Nodup ∧ ∀ f ∈ fields, distinct (childFields f.2))
    {parent : String} {fields : Fields Json.Value} {keys : List String} {n : Node} {v : Json.Value}
    (h : Origin parent fields keys n v) (hfields : distinct fields)
    (hkeys : ∀ key ∈ keys, '[' ∉ key.toList) :
    ∃ chain, Schema.descend parent (nodesOf parent fields) keys = some chain ∧
      chain.getLast? = some n := by
  induction h with
  | @here parent key fields v hfield =>
    have hfound := find?_nodesOf parent (hdistinct fields hfields).1 hfield
    refine ⟨[nodeOf parent key v], ?_, rfl⟩
    simp [Schema.descend, Path.bareName_of_no_opening (hkeys key List.mem_cons_self), hfound]
  | @inside parent key fields keys n v w hfield hn ih =>
    obtain ⟨hnodup, hbelow⟩ := hdistinct fields hfields
    obtain ⟨hkey, hlater⟩ := List.forall_mem_cons.1 hkeys
    obtain ⟨chain, hchain, hlast⟩ := ih (hbelow _ hfield) hlater
    have hfound := find?_nodesOf parent hnodup hfield
    refine ⟨nodeOf parent key w :: chain, ?_, ?_⟩
    · simp [Schema.descend, Path.bareName_of_no_opening hkey, hfound, nodeOf_children, hchain]
    · cases chain with
      | nil => cases hlast
      | cons next chain => rw [List.getLast?_cons_cons, hlast]

/-- All but the last piece lead to all but the last node. -/
theorem descend_dropLast {reached : String} {nodes chain : List Node} {pieces : List String}
    {last : String} (h : descend reached nodes (pieces ++ [last]) = some chain) :
    descend reached nodes pieces = some chain.dropLast := by
  induction pieces generalizing reached nodes chain with
  | nil =>
    have hlength : chain.length = 1 := descend_length h
    obtain ⟨n, rfl⟩ := List.length_eq_one_iff.1 hlength
    rfl
  | cons piece pieces ih =>
    rw [List.cons_append, descend] at h
    rw [descend]
    split at h
    · cases h
    · obtain ⟨below, hbelow, rfl⟩ := Option.map_eq_some_iff.1 h
      have hne : below ≠ [] := by
        rintro rfl
        have hlength := descend_length hbelow
        simp at hlength
      rw [ih hbelow, List.dropLast_cons_of_ne_nil hne]
      rfl

/-- **What a filter can ask for** are the attributes among the children of the parent. -/
theorem suggestions_of_parent {nodes chain before : List Node} {path last : String}
    {pieces : List String} {p : Node} (hsplit : Path.split path = pieces ++ [last])
    (hchain : descend "" nodes (pieces ++ [last]) = some chain)
    (hbefore : descend "" nodes pieces = some before) (hp : before.getLast? = some p) :
    suggestions nodes path = attributeNames p.children := by
  have hancestry : ancestry nodes path = some chain := by
    rw [ancestry, hsplit]
    split
    · rename_i hnil
      simp at hnil
    · exact hchain
  have hparent : chain.dropLast.getLast? = some p := by
    obtain rfl : chain.dropLast = before :=
      Option.some.inj ((descend_dropLast hchain).symm.trans hbefore)
    exact hp
  rw [suggestions, hancestry]
  simp only
  rw [hparent]

end Crosswalk.Schema
