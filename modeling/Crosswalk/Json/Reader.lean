import Crosswalk.Json.Scan

/-!
# Reading JSON

A value is read from the front of a text; no more than 127 arrays and objects may be open at a
time.  Items and fields are read by loops that take the way to read one item or field as an
argument, so the same loops serve values of any form.  When an object repeats a name, the first
place of the name and its last entry count.
-/

namespace Crosswalk.Json

open Text

/-- How many arrays and objects may be open at a time. -/
def maxDepth : Nat := 127

/-- Reads a word as the value that it stands for; its first letter has been read. -/
def readConstant (word : List Char) (v : Value) : Reader Value := fun s => do
  return (v, ← readWord word s)

/-- Reads a string as a value; its opening quote has been read. -/
def readStringValue : Reader Value := fun s => do
  let (cs, rest) ← readString s
  return (.string (String.ofList cs), rest)

/-- Reads a number as a value; its sign, if there was one, has been read. -/
def readNumber (negative : Bool) : Reader Value := fun s => do
  let (n, rest) ← readUnsigned negative s
  return (.number n, rest)

/-- Reads a value that is neither an array nor an object; no white space stands in front. -/
def readScalar : Reader Value := fun s =>
  match s with
  | [] => .error (.before .endInValue [])
  | c :: r =>
    if c = 'n' then (Rest.tail c r).read (readConstant ['u', 'l', 'l'] .null)
    else if c = 't' then (Rest.tail c r).read (readConstant ['r', 'u', 'e'] (.bool true))
    else if c = 'f' then (Rest.tail c r).read (readConstant ['a', 'l', 's', 'e'] (.bool false))
    else if c = '"' then (Rest.tail c r).read readStringValue
    else if c = '-' then (Rest.tail c r).read (readNumber true)
    else if c.isDigit then readNumber false (c :: r)
    else .error (.at_ .expectedValue (c :: r))

/-! ### Arrays -/

variable {α σ : Type}

/-- Reads the bracket that closes an array, or a comma and one more item.  The items before it are
given last one first. -/
def itemStep (item : Reader α) (before : List α) (s : List Char) :
    Except Fault (Step (List α) (List α) s) :=
  match skipBlank s with
  | ⟨[], _⟩ => .error (.before .endInList [])
  | ⟨c :: r, hc⟩ =>
    if c = ']' then .ok (.done before.reverse (Left.mk r hc).rest)
    else if c = ',' then
      match skipBlank r with
      | ⟨[], _⟩ => .error (.before .endInValue [])
      | ⟨d :: t, hd⟩ =>
        if d = ']' then .error (.at_ .trailingComma (d :: t))
        else do
          let (a, rest) ← (Rest.mk (d :: t) hd).read item
          return .more (a :: before) ((Left.mk r hc).andThen rest)
    else .error (.at_ .expectedCommaOrBracket (c :: r))

/-- Reads the items of an array of which the opening bracket has been read. -/
def readItems (item : Reader α) : Reader (List α) := fun s =>
  match skipBlank s with
  | ⟨[], _⟩ => .error (.before .endInList [])
  | ⟨c :: r, hc⟩ =>
    if c = ']' then .ok ([], (Left.mk r hc).rest)
    else do
      let (a, rest) ← (Rest.mk (c :: r) hc).read item
      loop (itemStep item) [a] rest

/-! ### Objects -/

/-- What is done with a field of an object, of which the name has been read. -/
abbrev OnField (σ : Type) : Type := σ → String → Reader σ

/-- Reads a name and does with its field what is to be done; the opening quote of the name has been
read. -/
def readField (onField : OnField σ) (state : σ) : Reader σ := fun s => do
  let (name, rest) ← readString s
  rest.read (onField state (String.ofList name))

/-- Reads the brace that closes an object, or a comma and one more field. -/
def fieldStep (onField : OnField σ) (state : σ) (s : List Char) : Except Fault (Step σ σ s) :=
  match skipBlank s with
  | ⟨[], _⟩ => .error (.before .endInObject [])
  | ⟨c :: r, hc⟩ =>
    if c = '}' then .ok (.done state (Left.mk r hc).rest)
    else if c = ',' then
      match skipBlank r with
      | ⟨[], _⟩ => .error (.before .endInValue [])
      | ⟨d :: t, hd⟩ =>
        if d = '"' then do
          let (next, rest) ← (Left.mk t hd).rest.read (readField onField state)
          return .more next ((Left.mk r hc).andThen rest)
        else if d = '}' then .error (.at_ .trailingComma (d :: t))
        else .error (.at_ .nameNotString (d :: t))
    else .error (.at_ .expectedCommaOrBrace (c :: r))

/-- Reads the fields of an object of which the opening brace has been read. -/
def readFields (onField : OnField σ) (state : σ) : Reader σ := fun s =>
  match skipBlank s with
  | ⟨[], _⟩ => .error (.before .endInObject [])
  | ⟨c :: r, hc⟩ =>
    if c = '}' then .ok (state, (Left.mk r hc).rest)
    else if c = '"' then do
      let (next, rest) ← (Left.mk r hc).rest.read (readField onField state)
      loop (fieldStep onField) next rest
    else .error (.at_ .nameNotString (c :: r))

/-- Reads the quote that opens the name of a field which has to come next. -/
def readNameQuote : Reader Unit := fun s =>
  match skipBlank s with
  | ⟨[], _⟩ => .error (.before .endInObject [])
  | ⟨c :: r, hc⟩ =>
    if c = '"' then .ok ((), (Left.mk r hc).rest)
    else .error (.at_ .nameNotString (c :: r))

/-- Reads the colon after a name, and then the entry. -/
def readEntry (entry : Reader α) : Reader α := fun s =>
  match skipBlank s with
  | ⟨[], _⟩ => .error (.before .endInObject [])
  | ⟨c :: r, hc⟩ =>
    if c = ':' then (Left.mk r hc).rest.read entry
    else .error (.at_ .expectedColon (c :: r))

/-! ### Values -/

/-- Reads the entry of a field and puts it among the fields before it. -/
def putField (value : Reader Value) : OnField (Fields Value) := fun fields name s => do
  let (v, rest) ← readEntry value s
  return (Fields.put name v fields, rest)

/-- Reads an array of which the opening bracket has been read. -/
def readArray (value : Reader Value) : Reader Value := fun s => do
  let (items, rest) ← readItems value s
  return (.array items, rest)

/-- Reads an object of which the opening brace has been read. -/
def readObject (value : Reader Value) : Reader Value := fun s => do
  let (fields, rest) ← readFields (putField value) [] s
  return (.object fields, rest)

/-- Reads a value.  `inner` reads the values in an array or object; without it none may be
opened. -/
def readValueWith (inner : Option (Reader Value)) : Reader Value := fun s =>
  match skipBlank s with
  | ⟨[], _⟩ => .error (.before .endInValue [])
  | ⟨c :: r, hc⟩ =>
    if c = '[' ∨ c = '{' then
      match inner with
      | none => .error (.at_ .tooDeep (c :: r))
      | some inner =>
        (Left.mk r hc).rest.read (if c = '[' then readArray inner else readObject inner)
    else (Rest.mk (c :: r) hc).read readScalar

/-- Reads a value in which no more than `depth` arrays and objects are open at a time. -/
def readValue : (depth : Nat) → Reader Value
  | 0 => readValueWith none
  | depth + 1 => readValueWith (some (readValue depth))

/-- Reads all of a text, which may have white space at its end. -/
def readWhole (reader : Reader α) (text : String) : Except Error α :=
  let cs := text.toList
  match reader cs with
  | .error fault => .error (fault.inText cs)
  | .ok (a, rest) =>
    match (skipBlank rest.text).text with
    | [] => .ok a
    | left => .error ((Fault.at_ .trailingCharacters left).inText cs)

/-- Reads a text as a value. -/
def Value.read (text : String) : Except Error Value :=
  readWhole (readValue maxDepth) text

end Crosswalk.Json
