import Crosswalk.Proofs.Schema.Origins
import Mathlib.Data.List.Forall2

/-!
# Only first items shape a schema

An array gives its node the fields of its first item, so whatever comes after that item leaves no
trace in the schema.  This holds at every depth at once: all arrays of a document may be cut down
to their first items, except the document itself if it is an array, of which every item has a node.

* `trimmedBelow` : a document with its arrays cut down.
* `AgreeBelow` : two documents differ only in later items of arrays.
* `infer_first_items` : neither makes a difference to the schema.
-/

namespace Crosswalk.Schema

open Json (Value)

mutual

/-- A value with every array cut down to its first item. -/
def trimmed : Value → Value
  | .array [] => .array []
  | .array (v :: _) => .array [trimmed v]
  | .object fields => .object (trimmedFields fields)
  | v => v

/-- Fields with every array in their entries cut down to its first item. -/
def trimmedFields : List (String × Value) → List (String × Value)
  | [] => []
  | (name, v) :: rest => (name, trimmed v) :: trimmedFields rest

end

/-- A document with every array in it cut down to its first item.  The document itself keeps all its
items if it is an array. -/
def trimmedBelow : Value → Value
  | .array items => .array (items.map trimmed)
  | d => trimmed d

mutual

/-- Whether two values differ in nothing but later items of arrays: arrays are both empty or have
first items that agree, and objects have the same names with entries that agree. -/
def Agree : Value → Value → Prop
  | .array [], .array [] => True
  | .array (v :: _), .array (w :: _) => Agree v w
  | .object fields, .object others => FieldsAgree fields others
  | v, w => v = w

/-- Whether fields have the same names, in the same order, with entries that agree. -/
def FieldsAgree : List (String × Value) → List (String × Value) → Prop
  | [], [] => True
  | (name, v) :: rest, (other, w) :: others => name = other ∧ Agree v w ∧ FieldsAgree rest others
  | _, _ => False

end

/-- Whether two documents differ in nothing but later items of arrays below the outermost level. -/
def AgreeBelow : Value → Value → Prop
  | .array items, .array others => List.Forall₂ Agree items others
  | d, e => Agree d e

/-! ### Agreement -/

theorem trimmed_array (items : List Value) :
    trimmed (.array items) = .array (items.head?.map trimmed).toList := by
  cases items <;> rfl

/-- Values of which one is neither an array nor an object agree if they are the same. -/
theorem agree_of_scalar {v w : Value} (h : v.isContainer = false ∨ w.isContainer = false) :
    Agree v w ↔ trimmed v = trimmed w := by
  cases v <;> cases w <;> simp_all [Agree, trimmed, trimmed_array, Json.Value.isContainer]

mutual

/-- Values agree exactly if the same is left of them when their arrays are cut down. -/
theorem agree_iff (v w : Value) : Agree v w ↔ trimmed v = trimmed w := by
  match v, w with
  | .array [], .array [] => simp [Agree]
  | .array [], .array (w :: others) => simp [Agree, trimmed]
  | .array (v :: later), .array [] => simp [Agree, trimmed]
  | .array (v :: later), .array (w :: others) =>
    simpa [Agree, trimmed] using agree_iff v w
  | .array items, .object fields => simp [Agree, trimmed, trimmed_array]
  | .object fields, .array items => simp [Agree, trimmed, trimmed_array]
  | .object fields, .object others =>
    simpa [Agree, trimmed] using fieldsAgree_iff fields others
  | .null, w => exact agree_of_scalar (Or.inl rfl)
  | .bool b, w => exact agree_of_scalar (Or.inl rfl)
  | .number n, w => exact agree_of_scalar (Or.inl rfl)
  | .string s, w => exact agree_of_scalar (Or.inl rfl)
  | v, .null => exact agree_of_scalar (Or.inr rfl)
  | v, .bool b => exact agree_of_scalar (Or.inr rfl)
  | v, .number n => exact agree_of_scalar (Or.inr rfl)
  | v, .string s => exact agree_of_scalar (Or.inr rfl)

theorem fieldsAgree_iff (fields others : List (String × Value)) :
    FieldsAgree fields others ↔ trimmedFields fields = trimmedFields others := by
  match fields, others with
  | [], [] => simp [FieldsAgree]
  | [], (other, w) :: others => simp [FieldsAgree, trimmedFields]
  | (name, v) :: rest, [] => simp [FieldsAgree, trimmedFields]
  | (name, v) :: rest, (other, w) :: others =>
    simp [FieldsAgree, trimmedFields, agree_iff v w, fieldsAgree_iff rest others, and_assoc]

end

/-- Documents agree exactly if the same is left of them when the arrays in them are cut down. -/
theorem agreeBelow_iff (d e : Value) : AgreeBelow d e ↔ trimmedBelow d = trimmedBelow e := by
  by_cases hboth : ∃ items others, d = .array items ∧ e = .array others
  · obtain ⟨items, others, rfl, rfl⟩ := hboth
    have hsame : Agree = fun v w => trimmed v = trimmed w := by
      funext v w
      exact propext (agree_iff v w)
    rw [AgreeBelow, trimmedBelow, trimmedBelow, Value.array.injEq, ← List.forall₂_eq_eq_eq,
      List.forall₂_map_left_iff, List.forall₂_map_right_iff, hsame]
  · have hagree : AgreeBelow d e ↔ Agree d e := by
      cases d <;> cases e <;> simp_all [AgreeBelow]
    rw [hagree, agree_iff]
    -- Only one of the two can be an array, so what is left of them is different anyway.
    cases d <;> cases e <;> simp_all [trimmedBelow, trimmed, trimmed_array]

/-! ### The schema of what is left -/

mutual

/-- A field has the same node when the arrays in its value are cut down. -/
theorem nodeOf_trimmed (parent name : String) (v : Value) :
    nodeOf parent name (trimmed v) = nodeOf parent name v := by
  match v with
  | .object fields => simp only [trimmed, nodeOf, nodesOf_trimmed _ fields]
  | .array (.object fields :: later) => simp only [trimmed, nodeOf, nodesOf_trimmed _ fields]
  | .array [] => rfl
  | .array (.array items :: later) => simp [trimmed, trimmed_array, nodeOf]
  | .array (.null :: later) => rfl
  | .array (.bool b :: later) => rfl
  | .array (.number n :: later) => rfl
  | .array (.string s :: later) => rfl
  | .null => rfl
  | .bool b => rfl
  | .number n => rfl
  | .string s => rfl

theorem nodesOf_trimmed (parent : String) (fields : List (String × Value)) :
    nodesOf parent (trimmedFields fields) = nodesOf parent fields := by
  match fields with
  | [] => rfl
  | (name, v) :: rest =>
    rw [trimmedFields, nodesOf, nodesOf, nodeOf_trimmed parent name v, nodesOf_trimmed parent rest]

end

theorem trimmedFields_eq_map (fields : List (String × Value)) :
    trimmedFields fields = fields.map (Prod.map id trimmed) := by
  induction fields with
  | nil => rfl
  | cons f rest ih =>
    rw [trimmedFields, ih]
    rfl

/-- The items of a document that is an array keep their positions. -/
theorem numbered_map_trimmed (items : List Value) :
    numbered (items.map trimmed) = trimmedFields (numbered items) := by
  rw [trimmedFields_eq_map, numbered, numbered, List.zipIdx_map, List.map_map, List.map_map]
  rfl

/-- The schema of a document is that of what is left when the arrays in it are cut down. -/
theorem infer_trimmedBelow (d : Value) : infer (trimmedBelow d) = infer d := by
  cases d with
  | object fields => exact nodesOf_trimmed "" fields
  | array items =>
    rw [trimmedBelow, infer, numbered_map_trimmed, nodesOf_trimmed, infer]
  | _ => rfl

/-- **Only first items shape a schema.**  Cutting all arrays in a document down to their first items
leaves its schema as it is, and documents that differ in nothing but later items of such arrays have
the same schema. -/
theorem infer_first_items (d : Value) :
    infer (trimmedBelow d) = infer d ∧ ∀ e, AgreeBelow d e → infer e = infer d := by
  refine ⟨infer_trimmedBelow d, ?_⟩
  intro e hagree
  rw [← infer_trimmedBelow e, ← (agreeBelow_iff d e).1 hagree, infer_trimmedBelow]

/-- Later items are changed, added and left out at three depths, below items of an array that is the
document itself. -/
theorem infer_first_items_at_depths :
    let d : Value := .array [.object [("a", .array [.object [("x", .array [.null, .bool true])],
      .string "u"])], .array [.string "v"]]
    let e : Value := .array [.object [("a", .array [.object [("x", .array [.null])], .null,
      .object []])], .array [.string "v", .object [("y", .null)]]]
    AgreeBelow d e ∧ infer (trimmedBelow d) = infer d ∧ infer e = infer d := by
  intro d e
  have hagree : AgreeBelow d e := (agreeBelow_iff d e).2 rfl
  obtain ⟨htrimmed, hsame⟩ := infer_first_items d
  exact ⟨hagree, htrimmed, hsame e hagree⟩

end Crosswalk.Schema
