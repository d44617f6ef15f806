import Crosswalk.Json.Data
import Crosswalk.Json.Skip

/-!
# Reading JSON into data

Data of a certain form is read straight from a text: strings, flags, lists, choices among words,
and records whose fields come by name in an object or by position in an array.  Reading stops at
the first thing that is wrong, be it the grammar or the form.

A fault in the form has its own place: after a wrong string, number, boolean or null; before a wrong
array or object; and after the end of the record when a field is missing.
-/

namespace Crosswalk.Json

open Text

variable {α σ : Type}

/-- The fault of a value that is not what was expected; no white space stands in front of it. -/
def wrongType (expected : String) (s : List Char) : Fault :=
  match s with
  | '[' :: _ => .inData (.wrongType .array expected) s
  | '{' :: _ => .inData (.wrongType .object expected) s
  | _ =>
    match readScalar s with
    | .error e => e
    | .ok (v, rest) => .inData (.wrongType v.found expected) rest.text

/-- Reads a string. -/
def readText : Reader String := fun s =>
  match skipBlank s with
  | ⟨[], _⟩ => .error (.before .endInValue [])
  | ⟨c :: r, hc⟩ =>
    if c = '"' then do
      let (cs, rest) ← (Left.mk r hc).rest.read readString
      return (String.ofList cs, rest)
    else .error (wrongType "a string" (c :: r))

/-- Reads true or false. -/
def readFlag : Reader Bool := fun s =>
  match skipBlank s with
  | ⟨[], _⟩ => .error (.before .endInValue [])
  | ⟨c :: r, hc⟩ =>
    if c = 't' then
      (Left.mk r hc).rest.read fun s => do return (true, ← readWord ['r', 'u', 'e'] s)
    else if c = 'f' then
      (Left.mk r hc).rest.read fun s => do return (false, ← readWord ['a', 'l', 's', 'e'] s)
    else .error (wrongType "a boolean" (c :: r))

/-- Reads a list.  `inner` reads its items; without it no array may be opened. -/
def readList (inner : Option (Reader α)) : Reader (List α) := fun s =>
  match skipBlank s with
  | ⟨[], _⟩ => .error (.before .endInValue [])
  | ⟨c :: r, hc⟩ =>
    if c = '[' then
      match inner with
      | none => .error (.at_ .tooDeep (c :: r))
      | some inner => (Left.mk r hc).rest.read (readItems inner)
    else .error (wrongType "a sequence" (c :: r))

/-! ### Choices -/

/-- Reads one of some words of which the opening quote has been read. -/
def readWordOf (choices : List (String × α)) : Reader α := fun s => do
  let (word, rest) ← readString s
  match choose choices (String.ofList word) with
  | .error fault => throw (.inData fault rest.text)
  | .ok a => return (a, rest)

/-- Reads null. -/
def readNull : Reader Unit := fun s =>
  match skipBlank s with
  | ⟨[], _⟩ => .error (.before .endInValue [])
  | ⟨c :: r, hc⟩ =>
    if c = 'n' then
      (Left.mk r hc).rest.read fun s => do return ((), ← readWord ['u', 'l', 'l'] s)
    else .error (wrongType "unit" (c :: r))

/-- Reads one of some words as the name of a field, and null as its entry, and the brace that
closes the object. -/
def readOnlyField (choices : List (String × α)) : Reader α := fun s => do
  let (_, opened) ← readNameQuote s
  let (a, afterName) ← opened.read (readWordOf choices)
  let (_, afterEntry) ← afterName.read (readEntry readNull)
  match skipBlank afterEntry.text with
  | ⟨[], _⟩ => throw (.before .endInObject [])
  | ⟨c :: r, hc⟩ =>
    if c = '}' then return (a, afterEntry.andThen (Left.mk r hc).rest)
    else throw (.before .expectedValue (c :: r))

/-- Reads a choice: one of some words, or an object whose only field is named by one of them and
has the entry null. -/
def readChoice (depth : Nat) (choices : List (String × α)) : Reader α := fun s =>
  match skipBlank s with
  | ⟨[], _⟩ => .error (.before .endInValue [])
  | ⟨c :: r, hc⟩ =>
    if c = '"' then (Left.mk r hc).rest.read (readWordOf choices)
    else if c = '{' then
      if depth = 0 then .error (.at_ .tooDeep (c :: r))
      else (Left.mk r hc).rest.read (readOnlyField choices)
    else .error (.at_ .expectedValue (c :: r))

/-! ### Records -/

/-- A field of a record that is being put together in a draft. -/
structure Field (σ : Type) where
  name : String
  /-- Whether the draft has an entry for the field. -/
  isSet : σ → Bool
  /-- Whether the record cannot do without the field. -/
  required : Bool
  /-- Reads the entry into the draft. -/
  read : σ → Reader σ

/-- A field whose entry is read by the given reader and kept by the given function. -/
def Field.of {α : Type} (name : String) (required : Bool) (reader : Reader α)
    (get : σ → Option α) (set : σ → α → σ) : Field σ where
  name := name
  isSet draft := (get draft).isSome
  required := required
  read draft := fun s => do
    let (a, rest) ← reader s
    return (set draft a, rest)

/-- Skips the entry of a field. -/
def skipField : OnField σ := fun draft _ s => do
  let (_, rest) ← readEntry skipValue s
  return (draft, rest)

/-- How a record is read. -/
structure Record (σ α : Type) where
  /-- What messages call the record. -/
  title : String
  /-- The fields in the order of their positions. -/
  fields : List (Field σ)
  /-- The draft with no entry. -/
  blank : σ
  /-- The record that a draft gives. -/
  finish : σ → Except DataFault α
  /-- What is done with the entry of any other name. -/
  other : OnField σ := skipField

/-- What is left at the place that a fault inside an object is reported at: the end of the object,
if that comes next. -/
def afterBrace (s : List Char) : List Char :=
  match (skipBlank s).text with
  | '}' :: r => r
  | r => r

/-- Reads the entry of the field of a given name. -/
def Record.onField {α : Type} (record : Record σ α) : OnField σ := fun draft name s =>
  match record.fields.find? (fun f => f.name == name) with
  | none => record.other draft name s
  | some field =>
    if field.isSet draft then .error (.inData (.duplicateField name) (afterBrace s))
    else readEntry (field.read draft) s

/-- Reads what closes an array whose positions are all taken. -/
def readEnd : Reader Unit := fun s =>
  match skipBlank s with
  | ⟨[], _⟩ => .error (.before .endInList [])
  | ⟨c :: r, hc⟩ =>
    if c = ']' then .ok ((), (Left.mk r hc).rest)
    else if c = ',' then
      match (skipBlank r).text with
      | ']' :: t => .error (.at_ .trailingComma (']' :: t))
      | t => .error (.at_ .trailingCharacters t)
    else .error (.at_ .trailingCharacters (c :: r))

/-- Reads the comma between two positions; no white space stands in front. -/
def readComma : Reader Unit := fun s =>
  match s with
  | ',' :: r =>
    match skipBlank r with
    | ⟨[], _⟩ => .error (.before .endInValue [])
    | ⟨c :: t, hc⟩ =>
      if c = ']' then .error (.at_ .trailingComma (c :: t))
      else .ok ((), (Rest.tail ',' r).andThen ⟨c :: t, hc⟩)
  | s => .error (.at_ .expectedCommaOrBracket s)

/-- The fault of a record that ends after `taken` positions, if it cannot do without one of the
fields that are left. -/
def Record.lengthFault? {α : Type} (record : Record σ α) (fields : List (Field σ)) (taken : Nat) :
    Option DataFault :=
  (fields.findIdx? Field.required).map fun i =>
    .wrongLength (taken + i)
      (record.title ++ " with " ++ toString record.fields.length ++ " elements")

/-- Reads fields by position, `taken` of which have been read. -/
def Record.readPositions {α : Type} (record : Record σ α) :
    (fields : List (Field σ)) → (taken : Nat) → (draft : σ) → Reader σ
  | [], _, draft, s => do
    let (_, rest) ← readEnd s
    return (draft, rest)
  | field :: fields, taken, draft, s =>
    match skipBlank s with
    | ⟨[], _⟩ => .error (.before .endInList [])
    | ⟨c :: r, hc⟩ =>
      if c = ']' then
        match record.lengthFault? (field :: fields) taken with
        | some fault => .error (.inData fault r)
        | none => .ok (draft, (Left.mk r hc).rest)
      else do
        let (_, rest) ←
          (Rest.mk (c :: r) hc).read (if taken = 0 then readNothing else readComma)
        let (next, rest) ← rest.read (field.read draft)
        rest.read (record.readPositions fields (taken + 1) next)

/-- Reads a draft and gives its record. -/
def Record.finished {α : Type} (record : Record σ α) (draft : Reader σ) : Reader α := fun s => do
  let (draft, rest) ← draft s
  match record.finish draft with
  | .error fault => throw (.inData fault rest.text)
  | .ok a => return (a, rest)

/-- Reads a record from an object. -/
def Record.readObject {α : Type} (record : Record σ α) (depth : Nat) : Reader α := fun s =>
  match skipBlank s with
  | ⟨[], _⟩ => .error (.before .endInValue [])
  | ⟨c :: r, hc⟩ =>
    if c = '{' then
      if depth = 0 then .error (.at_ .tooDeep (c :: r))
      else
        (Left.mk r hc).rest.read (record.finished (readFields record.onField record.blank))
    else .error (wrongType record.title (c :: r))

/-- Reads a record from an object, or from an array that has the entries in their order. -/
def Record.read {α : Type} (record : Record σ α) (depth : Nat) : Reader α := fun s =>
  match skipBlank s with
  | ⟨[], _⟩ => .error (.before .endInValue [])
  | ⟨c :: r, hc⟩ =>
    if c = '[' then
      if depth = 0 then .error (.at_ .tooDeep (c :: r))
      else
        (Left.mk r hc).rest.read
          (record.finished (record.readPositions record.fields 0 record.blank))
    else (Rest.mk (c :: r) hc).read (record.readObject depth)

end Crosswalk.Json
