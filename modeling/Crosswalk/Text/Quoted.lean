import Crosswalk.Text.Unprintable

/-!
# Texts in quotes, for messages

A message that shows a text, or a single character, puts it between quotes and escapes whatever a
reader could not see or could mistake: the quote itself, the backslash, line breaks, tabs and NUL
by a letter, every other unprintable character by its code point in hexadecimal.
-/

namespace Crosswalk.Text

/-- The form of a character between quotes of the given kind. -/
def escape (quote c : Char) : List Char :=
  if c = '\x00' then ['\\', '0']
  else if c = '\t' then ['\\', 't']
  else if c = '\n' then ['\\', 'n']
  else if c = '\r' then ['\\', 'r']
  else if c = '\\' ∨ c = quote then ['\\', c]
  else if isUnprintable c then ['\\', 'u', '{'] ++ Nat.toDigits 16 c.toNat ++ ['}']
  else [c]

/-- A text between double quotes. -/
def quoted (s : String) : String :=
  String.ofList ('"' :: s.toList.flatMap (escape '"') ++ ['"'])

/-- A character between single quotes. -/
def quotedChar (c : Char) : String :=
  String.ofList ('\'' :: escape '\'' c ++ ['\''])

end Crosswalk.Text
