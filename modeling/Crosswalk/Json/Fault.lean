import Crosswalk.Json.Text
import Crosswalk.Text.Quoted

/-!
# What can be wrong with JSON

A JSON text is at fault either in its grammar or in its data, when a value is not of the form that
was asked for.  A fault in a text has a place: the line and, counted in bytes from the start of the
line, the column reached.  While reading, a place is kept as the number of bytes that are still
unread; the line and column are worked out once, from the whole text.
-/

namespace Crosswalk.Json

/-- What a value turned out to be. -/
inductive Found where
  | null
  | bool (b : Bool)
  | number (n : Number)
  | string (s : String)
  | array
  | object

/-- What a value is, for a fault about it. -/
def Value.found : Value → Found
  | .null => .null
  | .bool b => .bool b
  | .number n => .number n
  | .string s => .string s
  | .array _ => .array
  | .object _ => .object

/-- The wording for what was found. -/
def Found.text : Found → String
  | .null => "null"
  | .bool b => "boolean `" ++ (if b then "true" else "false") ++ "`"
  | .number (.integer i) => "integer `" ++ String.ofList (Decimal.integerText i) ++ "`"
  | .number (.float x) => "floating point `" ++ String.ofList (Decimal.floatText x) ++ "`"
  | .string s => "string " ++ Text.quoted s
  | .array => "sequence"
  | .object => "map"

/-- What is wrong with the grammar of a text. -/
inductive SyntaxFault where
  | endInValue
  | endInList
  | endInObject
  | endInString
  | expectedValue
  | expectedWord
  | expectedColon
  | expectedCommaOrBracket
  | expectedCommaOrBrace
  | trailingComma
  | nameNotString
  | trailingCharacters
  | invalidNumber
  | numberOutOfRange
  | invalidEscape
  | loneSurrogate
  | unfinishedPair
  | controlCharacter
  | tooDeep
deriving DecidableEq

/-- The wording of a fault in the grammar. -/
def SyntaxFault.message : SyntaxFault → String
  | endInValue => "EOF while parsing a value"
  | endInList => "EOF while parsing a list"
  | endInObject => "EOF while parsing an object"
  | endInString => "EOF while parsing a string"
  | expectedValue => "expected value"
  | expectedWord => "expected ident"
  | expectedColon => "expected `:`"
  | expectedCommaOrBracket => "expected `,` or `]`"
  | expectedCommaOrBrace => "expected `,` or `\x7d`"
  | trailingComma => "trailing comma"
  | nameNotString => "key must be a string"
  | trailingCharacters => "trailing characters"
  | invalidNumber => "invalid number"
  | numberOutOfRange => "number out of range"
  | invalidEscape => "invalid escape"
  | loneSurrogate => "lone leading surrogate in hex escape"
  | unfinishedPair => "unexpected end of hex escape"
  | controlCharacter => "control character (\\u0000-\\u001F) found while parsing a string"
  | tooDeep => "recursion limit exceeded"

/-- What is wrong with a value that is not of the form asked for. -/
inductive DataFault where
  | missingField (name : String)
  | duplicateField (name : String)
  | unknownChoice (given : String) (choices : List String)
  | wrongType (found : Found) (expected : String)
  /-- The place of a choice in the list of choices is out of range. -/
  | choiceOutOfRange (given : Int) (count : Nat)
  /-- An object that names a choice has not exactly one field. -/
  | notOneField
  | wrongLength (length : Nat) (expected : String)

/-- A list of choices for a message. -/
def choicesText : List String → String
  | [] => "there are no variants"
  | [a] => "expected `" ++ a ++ "`"
  | [a, b] => "expected `" ++ a ++ "` or `" ++ b ++ "`"
  | many => "expected one of " ++ String.intercalate ", " (many.map fun a => "`" ++ a ++ "`")

/-- The wording of a fault in the data. -/
def DataFault.message : DataFault → String
  | missingField name => "missing field `" ++ name ++ "`"
  | duplicateField name => "duplicate field `" ++ name ++ "`"
  | unknownChoice given choices => "unknown variant `" ++ given ++ "`, " ++ choicesText choices
  | wrongType found expected => "invalid type: " ++ found.text ++ ", expected " ++ expected
  | choiceOutOfRange given count =>
    "invalid value: integer `" ++ toString given ++ "`, expected variant index 0 <= i < "
      ++ toString count
  | notOneField => "invalid value: map, expected map with a single key"
  | wrongLength length expected =>
    "invalid length " ++ toString length ++ ", expected " ++ expected

/-- What is wrong. -/
inductive Cause where
  | grammar (fault : SyntaxFault)
  | data (fault : DataFault)

/-- The wording of a cause. -/
def Cause.message : Cause → String
  | grammar fault => fault.message
  | data fault => fault.message

/-- A line, counted from 1, and the number of bytes since its start. -/
structure Position where
  line : Nat
  column : Nat
deriving DecidableEq, Repr

/-- The place that is reached from `here` after a number of bytes, which may end within a
character. -/
def Position.after (here : Position) : (bytes : Nat) → List Char → Position
  | _, [] => here
  | bytes, c :: rest =>
    if bytes < c.utf8Size then ⟨here.line, here.column + bytes⟩
    else if c = '\n' then after ⟨here.line + 1, 0⟩ (bytes - c.utf8Size) rest
    else after ⟨here.line, here.column + c.utf8Size⟩ (bytes - c.utf8Size) rest

/-- The number of bytes of a text. -/
def byteCount (cs : List Char) : Nat :=
  cs.foldl (fun n c => n + c.utf8Size) 0

/-- A cause, with the number of bytes that were unread when it was found. -/
structure Fault where
  cause : Cause
  unread : Nat

namespace Fault

/-- A fault in the grammar, found in front of what is left. -/
def before (fault : SyntaxFault) (left : List Char) : Fault :=
  ⟨.grammar fault, byteCount left⟩

/-- A fault in the grammar, found at the first byte of what is left. -/
def at_ (fault : SyntaxFault) (left : List Char) : Fault :=
  ⟨.grammar fault, byteCount left - 1⟩

/-- A fault in the data, found in front of what is left. -/
def inData (fault : DataFault) (left : List Char) : Fault :=
  ⟨.data fault, byteCount left⟩

end Fault

/-- A cause, with its place when it was found in a text. -/
structure Error where
  cause : Cause
  place : Option Position

/-- The wording of an error. -/
def Error.message (e : Error) : String :=
  match e.place with
  | none => e.cause.message
  | some p =>
    e.cause.message ++ " at line " ++ toString p.line ++ " column " ++ toString p.column

/-- The error for a fault that was found while reading a text. -/
def Fault.inText (fault : Fault) (text : List Char) : Error :=
  ⟨fault.cause, some (Position.after ⟨1, 0⟩ (byteCount text - fault.unread) text)⟩

/-- The error for a fault in a value that was not read from a text. -/
def DataFault.inValue (fault : DataFault) : Error :=
  ⟨.data fault, none⟩

end Crosswalk.Json
