import Crosswalk.Text.Ranges

/-!
# Blank characters

A character is blank when it has the Unicode property White_Space: 25 code points, among them the
no-break space and the ideographic space, but neither the zero-width space nor the byte-order mark.
Trimming drops blank characters from both ends of a text.

* `trimChars_of_ends` : a text that neither begins nor ends with a blank is its own trimming.
-/

namespace Crosswalk.Text

/-- The code points with the property White_Space. -/
def blankRanges : List (Nat × Nat) :=
  [(0x09, 0x0D), (0x20, 0x20), (0x85, 0x85), (0xA0, 0xA0), (0x1680, 0x1680), (0x2000, 0x200A),
   (0x2028, 0x2029), (0x202F, 0x202F), (0x205F, 0x205F), (0x3000, 0x3000)]

/-- Whether a character has the property White_Space. -/
def isBlank (c : Char) : Bool :=
  memRanges blankRanges c.toNat

/-- The characters of a text without the blanks at either end. -/
def trimChars (cs : List Char) : List Char :=
  ((cs.dropWhile isBlank).reverse.dropWhile isBlank).reverse

/-- A text without the blanks at either end. -/
def trim (s : String) : String :=
  String.ofList (trimChars s.toList)

/-- Whether a text has no character that is not blank. -/
def isBlankText (s : String) : Bool :=
  s.toList.all isBlank

/-- A text that neither begins nor ends with a blank is its own trimming. -/
theorem trimChars_of_ends {cs : List Char} (hfirst : ∀ c ∈ cs.head?, isBlank c = false)
    (hlast : ∀ c ∈ cs.getLast?, isBlank c = false) : trimChars cs = cs := by
  have drop_of_head : ∀ l : List Char, (∀ c ∈ l.head?, isBlank c = false) →
      l.dropWhile isBlank = l := by
    intro l h
    cases l with
    | nil => rfl
    | cons c l => simp [h c (by simp)]
  rw [trimChars, drop_of_head cs hfirst, drop_of_head cs.reverse, List.reverse_reverse]
  simpa using hlast

/-- Trimming leaves nothing exactly when every character is blank. -/
theorem trimChars_eq_nil_iff (cs : List Char) : trimChars cs = [] ↔ cs.all isBlank = true := by
  have drop_nil : ∀ l : List Char, l.dropWhile isBlank = [] ↔ l.all isBlank = true := by
    intro l
    induction l with
    | nil => simp
    | cons c l ih => by_cases h : isBlank c <;> simp_all
  have all_drop : ∀ l : List Char, (l.dropWhile isBlank).all isBlank = l.all isBlank := by
    intro l
    induction l with
    | nil => simp
    | cons c l ih => by_cases h : isBlank c <;> simp_all
  rw [trimChars, List.reverse_eq_nil_iff, drop_nil, List.all_reverse, all_drop]

end Crosswalk.Text
