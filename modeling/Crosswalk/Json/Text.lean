import Crosswalk.Decimal.Notation
import Crosswalk.Json.Value

/-!
# JSON text

A value is written either compactly, without any white space, or indented by two spaces for each
level, each item and field on a line of its own.  In a string the quote, the backslash and the
control characters are escaped; every other character stands for itself.

* `encodeChar_of_plain` : a character that is neither a quote, a backslash nor a control stands for
  itself.
-/

namespace Crosswalk.Json

/-- How a value is laid out. -/
inductive Layout where
  | compact
  | indented
deriving DecidableEq

/-- What stands between an opening bracket or a comma and what follows it on the given level. -/
def Layout.gap : Layout → Nat → List Char
  | .compact, _ => []
  | .indented, level => '\n' :: List.replicate (2 * level) ' '

/-- What stands between the name of a field and its entry. -/
def Layout.colon : Layout → List Char
  | .compact => [':']
  | .indented => [':', ' ']

/-- Four hexadecimal digits. -/
def hexQuad (n : Nat) : List Char :=
  let digits := Nat.toDigits 16 n
  List.replicate (4 - digits.length) '0' ++ digits

/-- The form of a character in a string. -/
def encodeChar (c : Char) : List Char :=
  if c = '"' then ['\\', '"']
  else if c = '\\' then ['\\', '\\']
  else if c = '\x08' then ['\\', 'b']
  else if c = '\x0c' then ['\\', 'f']
  else if c = '\n' then ['\\', 'n']
  else if c = '\r' then ['\\', 'r']
  else if c = '\t' then ['\\', 't']
  else if c.toNat < 0x20 then '\\' :: 'u' :: hexQuad c.toNat
  else [c]

/-- A string in quotes, as characters. -/
def encodeString (s : String) : List Char :=
  '"' :: s.toList.flatMap encodeChar ++ ['"']

/-- A string in quotes. -/
def literal (s : String) : String :=
  String.ofList (encodeString s)

/-- The text of a number.  What is not finite has no number text. -/
def Number.chars : Number → List Char
  | .integer i => Decimal.integerText i
  | .float x => if x.isFinite then Decimal.floatText x else ['n', 'u', 'l', 'l']

namespace Value

mutual

/-- The text of a value that stands on the given level. -/
def chars (layout : Layout) (level : Nat) : Value → List Char
  | null => ['n', 'u', 'l', 'l']
  | bool true => ['t', 'r', 'u', 'e']
  | bool false => ['f', 'a', 'l', 's', 'e']
  | number n => n.chars
  | string s => encodeString s
  | array [] => ['[', ']']
  | array (v :: rest) =>
    '[' :: (layout.gap (level + 1) ++ chars layout (level + 1) v
      ++ itemChars layout (level + 1) rest ++ layout.gap level ++ [']'])
  | object [] => ['{', '}']
  | object ((name, v) :: rest) =>
    '{' :: (layout.gap (level + 1) ++ encodeString name ++ layout.colon
      ++ chars layout (level + 1) v ++ fieldChars layout (level + 1) rest
      ++ layout.gap level ++ ['}'])

/-- The text of the items after the first one. -/
def itemChars (layout : Layout) (level : Nat) : List Value → List Char
  | [] => []
  | v :: rest =>
    ',' :: (layout.gap level ++ chars layout level v ++ itemChars layout level rest)

/-- The text of the fields after the first one. -/
def fieldChars (layout : Layout) (level : Nat) : List (String × Value) → List Char
  | [] => []
  | (name, v) :: rest =>
    ',' :: (layout.gap level ++ encodeString name ++ layout.colon ++ chars layout level v
      ++ fieldChars layout level rest)

end

/-- The text of a value without white space. -/
def compact (v : Value) : String :=
  String.ofList (v.chars .compact 0)

/-- The text of a value, indented. -/
def indented (v : Value) : String :=
  String.ofList (v.chars .indented 0)

end Value

/-- A character that is neither a quote, a backslash nor a control stands for itself. -/
theorem encodeChar_of_plain {c : Char} (hq : c ≠ '"') (hb : c ≠ '\\') (hc : 0x20 ≤ c.toNat) :
    encodeChar c = [c] := by
  have apart : ∀ d : Char, d.toNat < 0x20 → c ≠ d := by
    rintro d hd rfl
    omega
  have h1 := apart '\x08' (by decide)
  have h2 := apart '\x0c' (by decide)
  have h3 := apart '\n' (by decide)
  have h4 := apart '\r' (by decide)
  have h5 := apart '\t' (by decide)
  simp [encodeChar, hq, hb, h1, h2, h3, h4, h5, Nat.not_lt.2 hc]

end Crosswalk.Json
