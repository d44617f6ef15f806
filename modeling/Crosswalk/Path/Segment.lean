import Crosswalk.Path.Filter
import Crosswalk.Path.Split

/-!
# The steps of a field path

Each piece of a path is one step: `@_name` goes to an attribute, digits alone are a position in an
array, and anything else is the name of a child element or object key, which may carry a filter
in square brackets at its end.  A number of more than 64 bits is no position but a name.

* `ofChars_of_mark` and `ofChars_of_digits` : the two spellings that are not names.
-/

namespace Crosswalk

/-- One step of a field path. -/
inductive Segment where
  /-- A child element or object key.  The text in the brackets at its end, if there is one, is
  kept as it was written. -/
  | element (name : String) (brackets : Option String)
  /-- An attribute of the element that was reached, named without its mark. -/
  | attribute (name : String)
  /-- A position in an array. -/
  | index (position : Nat)
deriving DecidableEq, Repr

namespace Segment

/-- Whether a piece is made of digits alone. -/
def isDigits (piece : List Char) : Bool :=
  !piece.isEmpty && piece.all Char.isDigit

/-- How many positions 64 bits can tell apart. -/
def positionCount : Nat := 18446744073709551616

/-- The number that a piece of digits alone spells, if it has no more than 64 bits. -/
def indexOf? (piece : List Char) : Option Nat :=
  if isDigits piece then
    let n := Nat.ofDigitChars 10 piece 0
    if n < positionCount then some n else none
  else none

/-- The name and the bracketed text of a piece that ends in a bracket: the name ends at the first
opening bracket, and the text reaches to the last character. -/
def bracketed? (piece : List Char) : Option (List Char × List Char) :=
  match piece.dropWhile (· ≠ '[') with
  | _ :: inside =>
    if inside.getLast? = some ']' then some (piece.takeWhile (· ≠ '['), inside.dropLast) else none
  | [] => none

/-- The step that a piece of a path spells. -/
def ofChars (piece : List Char) : Segment :=
  match piece with
  | '@' :: '_' :: name => .attribute (String.ofList name)
  | _ =>
    match indexOf? piece with
    | some n => .index n
    | none =>
      match bracketed? piece with
      | some (name, brackets) => .element (String.ofList name) (some (String.ofList brackets))
      | none => .element (String.ofList piece) none

/-- The step that a piece of a path spells. -/
def ofText (piece : String) : Segment :=
  ofChars piece.toList

/-- The written form of a step. -/
def text : Segment → String
  | .element name (some brackets) => name ++ "[" ++ brackets ++ "]"
  | .element name none => name
  | .attribute name => "@_" ++ name
  | .index n => toString n

/-- The name of the element or attribute. -/
def name? : Segment → Option String
  | .element name _ => some name
  | .attribute name => some name
  | .index _ => none

/-- The text in brackets, as it was written. -/
def brackets? : Segment → Option String
  | .element _ brackets => brackets
  | _ => none

/-- The filter that the text in brackets spells. -/
def filter? (s : Segment) : Option Filter :=
  s.brackets?.bind Filter.read?

/-- Whether a step is a position in an array. -/
def isIndex : Segment → Bool
  | .index _ => true
  | _ => false

/-- Whether a step goes to an attribute. -/
def isAttribute : Segment → Bool
  | .attribute _ => true
  | _ => false

/-- A piece that begins with the mark of an attribute is one. -/
theorem ofChars_of_mark (name : List Char) :
    ofChars ('@' :: '_' :: name) = .attribute (String.ofList name) := rfl

/-- A piece of digits alone that fits 64 bits is a position. -/
theorem ofChars_of_digits {piece : List Char} {n : Nat} (h : indexOf? piece = some n) :
    ofChars piece = .index n := by
  unfold ofChars
  split
  · simp [indexOf?, isDigits, Char.isDigit] at h
  · rw [h]

end Segment

/-- The steps that a text spells, whether or not it is a field path: one for each of its pieces. -/
def Path.segments (path : String) : List Segment :=
  (Path.pieces path.toList).map Segment.ofChars

/-- The steps that a text spells, positions left out. -/
def Path.namedSegments (path : String) : List Segment :=
  (Path.segments path).filter (fun s => !s.isIndex)

end Crosswalk
