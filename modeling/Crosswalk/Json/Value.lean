import Crosswalk.Fields

/-!
# JSON values

A JSON value is null, a boolean, a number, a string, an array or an object whose fields keep their
order.  A number is an integer when it is written without point and exponent and fits 64 bits;
every other number is a floating-point number.
-/

namespace Crosswalk.Json

/-- A number. -/
inductive Number where
  | integer (i : Int)
  | float (x : Float)

/-- A JSON value. -/
inductive Value where
  | null
  | bool (b : Bool)
  | number (n : Number)
  | string (s : String)
  | array (items : List Value)
  | object (fields : List (String × Value))

namespace Value

instance : Inhabited Value := ⟨null⟩

/-- Whether a value can hold other values. -/
def isContainer : Value → Bool
  | array _ => true
  | object _ => true
  | _ => false

/-- The entry of a field of an object. -/
def field? (name : String) : Value → Option Value
  | object fields => Fields.get? name fields
  | _ => none

mutual

/-- Whether the fields of every object in a value have different names. -/
def HasDistinctNames : Value → Prop
  | array items => AllHaveDistinctNames items
  | object fields => (Fields.names fields).Nodup ∧ EntriesHaveDistinctNames fields
  | _ => True

/-- Whether this holds of every value in a list. -/
def AllHaveDistinctNames : List Value → Prop
  | [] => True
  | v :: rest => v.HasDistinctNames ∧ AllHaveDistinctNames rest

/-- Whether this holds of the entry of every field. -/
def EntriesHaveDistinctNames : List (String × Value) → Prop
  | [] => True
  | (_, v) :: rest => v.HasDistinctNames ∧ EntriesHaveDistinctNames rest

end

theorem allHaveDistinctNames_iff {items : List Value} :
    AllHaveDistinctNames items ↔ ∀ v ∈ items, v.HasDistinctNames := by
  induction items with
  | nil => simp [AllHaveDistinctNames]
  | cons v rest ih => simp [AllHaveDistinctNames, ih]

theorem entriesHaveDistinctNames_iff {fields : Fields Value} :
    EntriesHaveDistinctNames fields ↔ ∀ f ∈ fields, f.2.HasDistinctNames := by
  induction fields with
  | nil => simp [EntriesHaveDistinctNames]
  | cons f rest ih => simp [EntriesHaveDistinctNames, ih]

end Value

end Crosswalk.Json
