import Crosswalk.Json.Reader

/-!
# Skipping values

The entry of a field that nobody asked for is passed over without being built.  Its grammar is
checked, but more loosely than that of a value that is read: it may be nested to any depth, a
number may be of any size, and the halves of a surrogate pair need not match.

While skipping, a list of the containers that are still open is kept; the innermost stands first.
-/

namespace Crosswalk.Json

open Text

/-- An array or an object that has been opened. -/
inductive Container where
  | array
  | object
deriving DecidableEq

namespace Container

/-- The bracket that closes a container. -/
def closing : Container → Char
  | array => ']'
  | object => '}'

/-- The fault of a text that ends inside a container. -/
def endFault : Container → SyntaxFault
  | array => .endInList
  | object => .endInObject

/-- The fault of a container whose entries are not separated. -/
def commaFault : Container → SyntaxFault
  | array => .expectedCommaOrBracket
  | object => .expectedCommaOrBrace

end Container

/-! ### Strings and numbers -/

/-- Skips what follows the backslash of an escape. -/
def skipEscape (s : List Char) : Except Fault (Rest s) :=
  match s with
  | [] => .error (.before .endInString [])
  | c :: r =>
    if c = 'u' then do
      let (_, rest) ← (Rest.tail c r).read readHexQuad
      return rest
    else if (escaped? c).isSome then .ok (.tail c r)
    else .error (.at_ .invalidEscape (c :: r))

/-- Skips characters of a string up to an escape, with the escape, or through the closing quote.  A
control character is found in front of itself, other than in a string that is read. -/
def skipStringStep (_ : Unit) (s : List Char) : Except Fault (Step Unit Unit s) :=
  match skip isPlain s with
  | ⟨[], _⟩ => .error (.before .endInString [])
  | ⟨'"' :: r, hr⟩ => .ok (.done () (Left.mk r hr).rest)
  | ⟨'\\' :: r, hr⟩ => do return .more () ((Left.mk r hr).andThen (← skipEscape r))
  | ⟨c :: r, _⟩ => .error (.before .controlCharacter (c :: r))

/-- Skips a string of which the opening quote has been read. -/
def skipString : Reader Unit := fun s =>
  loop skipStringStep () (.all s)

/-- Skips one digit or more. -/
def skipDigits : Reader Unit := fun s =>
  match s with
  | [] => .error (.at_ .invalidNumber [])
  | c :: r =>
    if c.isDigit then .ok ((), skip Char.isDigit (c :: r))
    else .error (.at_ .invalidNumber (c :: r))

/-- Skips the digits of an exponent, with a sign if one stands in front. -/
def skipExponentDigits : Reader Unit := fun s =>
  match s with
  | '+' :: r => (Rest.tail '+' r).read skipDigits
  | '-' :: r => (Rest.tail '-' r).read skipDigits
  | s => skipDigits s

/-- Skips an exponent, if one stands in front. -/
def skipExponent : Reader Unit := fun s =>
  match s with
  | [] => .ok ((), .all [])
  | c :: r =>
    if isExponentMark c then (Rest.tail c r).read skipExponentDigits else .ok ((), .all (c :: r))

/-- Skips a fraction and an exponent, if they stand in front. -/
def skipAfterWhole : Reader Unit := fun s =>
  match s with
  | '.' :: r => do
    let (_, rest) ← (Rest.tail '.' r).read skipDigits
    rest.read skipExponent
  | s => skipExponent s

/-- Skips a number of which the sign, if there was one, has been read. -/
def skipUnsigned : Reader Unit := fun s =>
  match s with
  | [] => .error (.at_ .invalidNumber [])
  | c :: r =>
    if c = '0' ∧ (r.head?.any Char.isDigit) then .error (.at_ .invalidNumber r)
    else do
      let (_, rest) ← skipDigits (c :: r)
      rest.read skipAfterWhole

/-- Skips a value that is neither an array nor an object; no white space stands in front. -/
def skipScalar : Reader Unit := fun s =>
  match s with
  | [] => .error (.before .endInValue [])
  | c :: r =>
    if c = '"' then (Rest.tail c r).read skipString
    else if c = '-' then (Rest.tail c r).read skipUnsigned
    else if c.isDigit then skipUnsigned (c :: r)
    else do
      let (_, rest) ← readScalar (c :: r)
      return ((), rest)

/-! ### Containers -/

/-- Skips the colon after a name. -/
def skipColon : Reader Unit :=
  readEntry readNothing

/-- Skips the name of a field and its colon. -/
def skipName : Reader Unit := fun s => do
  let (_, opened) ← readNameQuote s
  let (_, afterName) ← opened.read skipString
  afterName.read skipColon

/-- Skips what stands in front of a value in a container. -/
def Container.skipToValue : Container → Reader Unit
  | array => readNothing
  | object => skipName

/-- A step in skipping values: the containers that are open are kept, the innermost in front. -/
abbrev SkipStep (s : List Char) : Type := Step (List Container) Unit s

/-- Skips what follows a value, closing the containers that end there, up to the next value inside
one of them.  Nothing more is to be skipped when the outermost has ended. -/
def skipClosings : (opened : List Container) → (s : List Char) → Except Fault (SkipStep s)
  | [], s => .ok (.done () (.all s))
  | container :: outer, s =>
    match skipBlank s with
    | ⟨[], _⟩ => .error (.before container.endFault [])
    | ⟨c :: r, hc⟩ =>
      if c = ',' then do
        let (_, rest) ← container.skipToValue r
        return .more (container :: outer) ((Left.mk r hc).andThen rest)
      else if c = container.closing then do
        return (← skipClosings outer r).behind (Left.mk r hc).rest
      else .error (.at_ container.commaFault (c :: r))

/-- Skips the bracket that opens a container, and what follows it up to the first value inside or,
if the container is empty, up to the next value inside one of those around it. -/
def skipOpening (container : Container) (opened : List Container) (bracket : Char)
    (s : List Char) : Except Fault (SkipStep (bracket :: s)) :=
  match skipBlank s with
  | ⟨[], _⟩ => .error (.before container.endFault [])
  | ⟨c :: r, hc⟩ =>
    if c = container.closing then do
      return (← skipClosings opened r).behind (Left.mk r hc).rest.past.rest
    else do
      let (_, rest) ← (Rest.mk (c :: r) hc).read container.skipToValue
      return .more (container :: opened) rest.past

/-- Skips a value up to the next one that is left to be skipped. -/
def skipStep (opened : List Container) (s : List Char) : Except Fault (SkipStep s) :=
  match skipBlank s with
  | ⟨[], _⟩ => .error (.before .endInValue [])
  | ⟨c :: r, hc⟩ => do
    if c = '[' then return (← skipOpening .array opened c r).behind ⟨c :: r, hc⟩
    else if c = '{' then return (← skipOpening .object opened c r).behind ⟨c :: r, hc⟩
    else
      let (_, rest) ← (Rest.mk (c :: r) hc).read skipScalar
      return (← skipClosings opened rest.text).behind rest

/-- Skips a value. -/
def skipValue : Reader Unit := fun s =>
  loop skipStep [] (.all s)

end Crosswalk.Json
