import Crosswalk.Proofs.Fields
import Crosswalk.Proofs.Path.Spelling
import Crosswalk.Proofs.Preview.Slots
import Crosswalk.Proofs.Schema.Origins

/-!
# The paths of a schema in its document

A schema and a search agree on what a path means.  The path of a node leads a search to the value
that the node was inferred from: both go on from the first item where they meet an array, but for an
array that is the whole document, of which the schema names every item by its position.

* `stepValue?_of_mem_childFields` : a search goes to a field in one step.
* `followValue?_of_origin` : the keys of a node lead to its value.
* `findValue?_path` : so does its path.
-/

namespace Crosswalk

namespace Json.Value

/-- Whether a key can be a step of its own: it is a plain piece, closes no bracket and is no
position. -/
def IsPlainKey (key : String) : Prop :=
  Path.IsPlainPiece key ∧ ']' ∉ key.toList ∧ Segment.isDigits key.toList = false

instance (key : String) : Decidable (IsPlainKey key) :=
  inferInstanceAs (Decidable (_ ∧ _ ∧ _))

mutual

/-- Whether every key of every object in a value is plain. -/
def HasPlainKeys : Value → Prop
  | array items => AllHavePlainKeys items
  | object fields => EntriesHavePlainKeys fields
  | _ => True

/-- Whether this holds of every value in a list. -/
def AllHavePlainKeys : List Value → Prop
  | [] => True
  | v :: rest => v.HasPlainKeys ∧ AllHavePlainKeys rest

/-- Whether the key of every field is plain and this holds of its entry. -/
def EntriesHavePlainKeys : List (String × Value) → Prop
  | [] => True
  | (key, v) :: rest => (IsPlainKey key ∧ v.HasPlainKeys) ∧ EntriesHavePlainKeys rest

end

theorem allHavePlainKeys_iff {items : List Value} :
    AllHavePlainKeys items ↔ ∀ v ∈ items, v.HasPlainKeys := by
  induction items with
  | nil => simp [AllHavePlainKeys]
  | cons v rest ih => simp [AllHavePlainKeys, ih]

theorem entriesHavePlainKeys_iff {fields : Fields Value} :
    EntriesHavePlainKeys fields ↔ ∀ f ∈ fields, IsPlainKey f.1 ∧ f.2.HasPlainKeys := by
  induction fields with
  | nil => simp [EntriesHavePlainKeys]
  | cons f rest ih => simp [EntriesHavePlainKeys, ih]

end Json.Value

namespace Preview

open Schema (Origin childFields topFields)

/-- Whether a search finds its way in a value: its names are apart from each other, and each of
them can be a step of its own. -/
def IsSearchable (v : Json.Value) : Prop :=
  v.HasDistinctNames ∧ v.HasPlainKeys

/-! ### One step -/

/-- The fields of an object that can be searched. -/
theorem IsSearchable.fields {fields : Fields Json.Value} (h : IsSearchable (.object fields)) :
    (Fields.names fields).Nodup ∧
      ∀ f ∈ fields, Json.Value.IsPlainKey f.1 ∧ IsSearchable f.2 := by
  obtain ⟨⟨hnodup, hdistinct⟩, hplain⟩ := h
  rw [Json.Value.entriesHaveDistinctNames_iff] at hdistinct
  rw [Json.Value.HasPlainKeys, Json.Value.entriesHavePlainKeys_iff] at hplain
  refine ⟨hnodup, ?_⟩
  intro f hf
  exact ⟨(hplain f hf).1, hdistinct f hf, (hplain f hf).2⟩

/-- The items of an array that can be searched. -/
theorem IsSearchable.items {items : List Json.Value} (h : IsSearchable (.array items)) :
    ∀ v ∈ items, IsSearchable v := by
  obtain ⟨hdistinct, hplain⟩ := h
  rw [Json.Value.HasDistinctNames, Json.Value.allHaveDistinctNames_iff] at hdistinct
  rw [Json.Value.HasPlainKeys, Json.Value.allHavePlainKeys_iff] at hplain
  exact fun v hv => ⟨hdistinct v hv, hplain v hv⟩

/-- What the children of a node are inferred from can be searched in turn. -/
theorem IsSearchable.childFields {w : Json.Value} (h : IsSearchable w) :
    (Fields.names (childFields w)).Nodup ∧
      ∀ f ∈ childFields w, Json.Value.IsPlainKey f.1 ∧ IsSearchable f.2 := by
  unfold Schema.childFields
  split
  · exact h.fields
  · exact (h.items _ List.mem_cons_self).fields
  · exact ⟨List.nodup_nil, fun f hf => nomatch hf⟩

/-- **One step** leads to the field that a child is inferred from, by way of the first item if it
is taken in an array. -/
theorem stepValue?_of_mem_childFields {key : String} {v w : Json.Value} (hw : IsSearchable w)
    (h : (key, v) ∈ childFields w) : stepValue? key w = some v := by
  obtain ⟨hnodup, hfields⟩ := hw.childFields
  have hget : Fields.get? key (childFields w) = some v := Fields.get?_of_mem hnodup h
  have hdigits : Segment.isDigits key.toList = false := (hfields _ h).1.2.2
  have hindex : Segment.indexOf? key.toList = none := by simp [Segment.indexOf?, hdigits]
  revert hget
  unfold childFields
  split
  · exact id
  · intro hget
    rw [stepValue?, hindex]
    exact hget
  · intro hget
    cases hget

/-- A search from a value to some fields: one step leads to each of them, and each can be searched
in turn. -/
def Leads (d : Json.Value) (fields : Fields Json.Value) : Prop :=
  ∀ f ∈ fields, stepValue? f.1 d = some f.2 ∧ Path.IsPlainPiece f.1 ∧ IsSearchable f.2

theorem leads_childFields {w : Json.Value} (h : IsSearchable w) : Leads w (childFields w) := by
  intro f hf
  obtain ⟨⟨hpiece, -⟩, hentry⟩ := h.childFields.2 f hf
  exact ⟨stepValue?_of_mem_childFields h hf, hpiece, hentry⟩

/-- The numbered items of an array that is the whole document. -/
theorem leads_numbered {items : List Json.Value} (h : IsSearchable (.array items))
    (hsize : items.length ≤ Segment.positionCount) :
    Leads (.array items) (Schema.numbered items) := by
  intro f hf
  obtain ⟨⟨v, i⟩, hmem, rfl⟩ := List.mem_map.1 hf
  have hitem : items[i]? = some v := List.mem_zipIdx_iff_getElem?.1 hmem
  have hv : v ∈ items := List.mem_of_getElem? hitem
  have hi : i < Segment.positionCount := by
    obtain ⟨hlt, -⟩ := List.getElem?_eq_some_iff.1 hitem
    omega
  have hindex := Segment.indexOf?_toString hi
  change stepValue? (toString i) (.array items) = some v ∧ Path.IsPlainPiece (toString i) ∧
    IsSearchable v
  refine ⟨?_, Path.isPlainPiece_toString i, h.items v hv⟩
  simp only [stepValue?, hindex, hitem]

theorem leads_topFields {d : Json.Value} (h : IsSearchable d)
    (hsize : ∀ items, d = .array items → items.length ≤ Segment.positionCount) :
    Leads d (topFields d) := by
  cases d with
  | object fields => exact leads_childFields h
  | array items => exact leads_numbered h (hsize items rfl)
  | _ => exact fun f hf => nomatch hf

/-! ### All steps -/

theorem Leads.keys {parent : String} {d v : Json.Value} {fields : Fields Json.Value}
    {keys : List String} {n : Schema.Node} (h : Leads d fields)
    (horigin : Origin parent fields keys n v) :
    ∀ key ∈ keys, Path.IsPlainPiece key := by
  induction horigin generalizing d with
  | here hfield =>
    intro key hkey
    obtain rfl := List.mem_singleton.1 hkey
    exact (h _ hfield).2.1
  | inside hfield _ ih =>
    obtain ⟨-, hfirst, hentry⟩ := h _ hfield
    intro key hkey
    rcases List.mem_cons.1 hkey with rfl | hrest
    · exact hfirst
    · exact ih (leads_childFields hentry) key hrest

/-- **The keys** that a node comes from lead to its value, unless that is null.  A search that
meets null ends there, but nothing is inferred from what is below null. -/
theorem followValue?_of_origin {parent : String} {d v : Json.Value} {fields : Fields Json.Value}
    {keys : List String} {n : Schema.Node} (h : Leads d fields)
    (horigin : Origin parent fields keys n v) : followValue? keys d = present v := by
  induction horigin generalizing d with
  | @here _ key _ v hfield =>
    rw [followValue?_cons, (h _ hfield).1]
    cases v <;> rfl
  | @inside _ key fields keys n v w hfield hn ih =>
    obtain ⟨hstep, -, hentry⟩ := h _ hfield
    have hrest : followValue? keys w = present v := ih (leads_childFields hentry)
    have hw : present w = some w := by
      cases w with
      | null => cases hn <;> contradiction
      | _ => rfl
    rw [followValue?_cons, hstep, Option.bind_some, hw, Option.bind_some, hrest]

/-- **The path of a node** leads to the value that the node was inferred from, in every document
whose keys can be steps of their own.  A null is no value to a search.

The names in an object are always apart from each other, and no array has more items than 64 bits
can number. -/
theorem findValue?_path {d : Json.Value} (hdistinct : d.HasDistinctNames)
    (hplain : d.HasPlainKeys)
    (hsize : ∀ items, d = .array items → items.length ≤ Segment.positionCount) :
    ∀ n ∈ Schema.preorder (Schema.infer d),
      (∃ keys v, Origin "" (topFields d) keys n v) ∧
        ∀ keys v, Origin "" (topFields d) keys n v →
          findValue? n.path d = if v matches .null then none else some v := by
  intro n hn
  rw [Schema.infer_eq] at hn
  refine ⟨Schema.mem_preorder_nodesOf.1 hn, ?_⟩
  intro keys v horigin
  have hleads : Leads d (topFields d) := leads_topFields ⟨hdistinct, hplain⟩ hsize
  have hsplit : Path.split n.path = keys := horigin.split_path (hleads.keys horigin)
  have hfollow : followValue? keys d = present v := followValue?_of_origin hleads horigin
  rw [findValue?, hsplit, hfollow]
  cases v <;> rfl

/-- An array in an array of objects, and a null beside it. -/
theorem findValue?_path_in_arrays :
    let d : Json.Value := .array [.object [("a", .array [.object [("b", .bool true)]]),
      ("c", .null)]]
    (d.HasDistinctNames ∧ d.HasPlainKeys ∧
      ∀ items, d = .array items → items.length ≤ Segment.positionCount) ∧
      ∀ n ∈ Schema.preorder (Schema.infer d),
        (∃ keys v, Origin "" (topFields d) keys n v) ∧
          ∀ keys v, Origin "" (topFields d) keys n v →
            findValue? n.path d = if v matches .null then none else some v := by
  intro d
  have hdistinct : d.HasDistinctNames := by
    simp [d, Json.Value.HasDistinctNames, Json.Value.AllHaveDistinctNames,
      Json.Value.EntriesHaveDistinctNames, Fields.names]
  have hkeys : ∀ key ∈ ["a", "b", "c"], Json.Value.IsPlainKey key := by decide +kernel
  have hplain : d.HasPlainKeys := by
    simp [d, Json.Value.HasPlainKeys, Json.Value.AllHavePlainKeys,
      Json.Value.EntriesHavePlainKeys, hkeys]
  have hsize : ∀ items, d = .array items → items.length ≤ Segment.positionCount := by
    intro items heq
    obtain rfl := Json.Value.array.inj heq
    decide
  exact ⟨⟨hdistinct, hplain, hsize⟩, findValue?_path hdistinct hplain hsize⟩

end Preview

end Crosswalk
