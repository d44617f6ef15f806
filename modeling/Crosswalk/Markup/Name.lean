import Crosswalk.Text.Ranges

/-!
# Names in markup

The characters that may stand in markup at all, the characters of a name and those that may begin
one, and names as they are written: a base name, in front of which a qualifier and a colon may
stand.

* `isNameChar_of_isNameStart` : whatever begins a name may also stand inside it.
-/

namespace Crosswalk.Markup

/-- Whether a character may stand in markup: every one but the controls other than tab and line
ends, and the two that are no characters. -/
def isMarkupChar (c : Char) : Bool :=
  if c.toNat < 0x20 then c == '\t' || c == '\n' || c == '\r'
  else c.toNat != 0xFFFE && c.toNat != 0xFFFF

/-- The code points that may begin a name. -/
def nameStartRanges : List (Nat × Nat) :=
  [(0x3A, 0x3A), (0x41, 0x5A), (0x5F, 0x5F), (0x61, 0x7A), (0xC0, 0xD6), (0xD8, 0xF6),
   (0xF8, 0x2FF), (0x370, 0x37D), (0x37F, 0x1FFF), (0x200C, 0x200D), (0x2070, 0x218F),
   (0x2C00, 0x2FEF), (0x3001, 0xD7FF), (0xF900, 0xFDCF), (0xFDF0, 0xFFFD), (0x10000, 0xEFFFF)]

/-- The code points that may stand in a name but not begin it. -/
def nameInnerRanges : List (Nat × Nat) :=
  [(0x2D, 0x2E), (0x30, 0x39), (0xB7, 0xB7), (0x300, 0x36F), (0x203F, 0x2040)]

/-- Whether a character may begin a name. -/
def isNameStart (c : Char) : Bool :=
  Text.memRanges nameStartRanges c.toNat

/-- Whether a character may stand in a name. -/
def isNameChar (c : Char) : Bool :=
  isNameStart c || Text.memRanges nameInnerRanges c.toNat

/-- Whatever begins a name may also stand inside it. -/
theorem isNameChar_of_isNameStart {c : Char} (h : isNameStart c = true) : isNameChar c = true := by
  simp [isNameChar, h]

/-- A name as it is written. -/
structure Written where
  /-- What stands in front of the colon; empty if there is no colon. -/
  qualifier : String
  base : String
deriving DecidableEq, Repr

/-- The text of a name. -/
def Written.text (w : Written) : String :=
  if w.qualifier.isEmpty then w.base else w.qualifier ++ ":" ++ w.base

end Crosswalk.Markup
