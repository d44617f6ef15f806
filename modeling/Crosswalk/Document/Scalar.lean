import Crosswalk.Decimal.Reading
import Crosswalk.Json.Value

/-!
# Scalars from plain text

The text of an element is taken as a boolean when it is one of the two words, and as a number when
it looks like one: digits, without a leading zero that could belong to an identifier, perhaps with
a fraction and an exponent, a hyphen allowed in front.  Every other text is a string.

* `scalarOfText_of_not_numeric` : a text that does not look like a number and is no boolean is a
  string.
-/

namespace Crosswalk.Document

/-- Whether a character may stand in a number. -/
def isNumberChar (c : Char) : Bool :=
  c.isDigit || c == '.' || c == 'e' || c == 'E' || c == '-' || c == '+'

/-- Whether a text without its sign looks like a number: it begins with a digit, a zero at its
front is followed by a point or nothing, and it is made of the characters of numbers. -/
def looksUnsigned : List Char → Bool
  | [] => false
  | ['0'] => true
  | '0' :: c :: rest => c == '.' && rest.all isNumberChar
  | c :: rest => c.isDigit && rest.all isNumberChar

/-- Whether a text looks like a number. -/
def looksNumeric : List Char → Bool
  | '-' :: cs => looksUnsigned cs
  | cs => looksUnsigned cs

/-- Whether an integer fits 64 bits. -/
def fitsInteger (i : Int) : Bool :=
  -9223372036854775808 ≤ i && i < 9223372036854775808

/-- The number that a text spells: an integer if it is one that fits, else a finite floating-point
number. -/
def numberOf? (cs : List Char) : Option Json.Number :=
  match (Decimal.integerOf? cs).filter fitsInteger with
  | some i => some (.integer i)
  | none => ((Decimal.floatOf? cs).filter Float.isFinite).map .float

/-- The scalar that a text spells. -/
def scalarOfText (text : String) : Json.Value :=
  if text = "true" then .bool true
  else if text = "false" then .bool false
  else if looksNumeric text.toList then
    match numberOf? text.toList with
    | some n => .number n
    | none => .string text
  else .string text

/-- A text that does not look like a number and is no boolean is a string. -/
theorem scalarOfText_of_not_numeric {text : String} (ht : text ≠ "true") (hf : text ≠ "false")
    (h : looksNumeric text.toList = false) : scalarOfText text = .string text := by
  simp [scalarOfText, ht, hf, h]

end Crosswalk.Document
