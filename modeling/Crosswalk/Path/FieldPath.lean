import Crosswalk.Path.Segment

/-!
# Field paths

A text is a field path when it is not blank, every bracket in it is closed, no bracket is closed
that was not opened, and it has a piece.

* `read_isOk_iff` : these conditions are exactly the ones under which reading succeeds.
-/

namespace Crosswalk

/-- A path to a field: one step or more. -/
structure FieldPath where
  segments : List Segment
  segments_ne_nil : segments ≠ []

/-- Why a text is not a field path, or not a filter. -/
inductive Path.Fault where
  /-- There is nothing in the path. -/
  | empty
  /-- The brackets of the path do not match. -/
  | unbalancedBrackets (path : String)
  /-- The text is not a filter. -/
  | filter (text : String) (cause : Filter.Fault)
deriving DecidableEq, Repr

/-- The wording of a fault. -/
def Path.Fault.message : Path.Fault → String
  | .empty => "Path is empty"
  | .unbalancedBrackets path => "Unbalanced brackets in path '" ++ path ++ "'"
  | .filter text cause => "Invalid predicate '" ++ text ++ "': " ++ cause.message

/-- Whether all brackets match, when reading begins with `depth` of them open. -/
def Path.balancedFrom : Nat → List Char → Bool
  | depth, [] => depth == 0
  | depth, c :: rest =>
    if c = '[' then balancedFrom (depth + 1) rest
    else if c = ']' then depth != 0 && balancedFrom (depth - 1) rest
    else balancedFrom depth rest

/-- Whether all brackets of a text match. -/
def Path.isBalanced (path : String) : Bool :=
  Path.balancedFrom 0 path.toList

namespace FieldPath

/-- Reads a text as a field path. -/
def read (text : String) : Except Path.Fault FieldPath :=
  if Text.isBlankText text then .error .empty
  else if !Path.isBalanced text then .error (.unbalancedBrackets text)
  else
    match h : Path.segments text with
    | [] => .error .empty
    | s :: rest => .ok ⟨s :: rest, by simp⟩

/-- The written form of a field path. -/
def text (p : FieldPath) : String :=
  Path.join (p.segments.map Segment.text)

/-- Reading succeeds exactly on texts that are not blank, have matching brackets and a piece. -/
theorem read_isOk_iff (text : String) :
    (∃ p, read text = .ok p) ↔
      Text.isBlankText text = false ∧ Path.isBalanced text = true ∧ Path.segments text ≠ [] := by
  unfold read
  split
  · simp_all
  · split
    · simp_all
    · split <;> simp_all

end FieldPath

/-- Reads a text as a filter; a fault names the text. -/
def Path.readFilter (text : String) : Except Path.Fault Filter :=
  match Filter.read text with
  | .ok f => .ok f
  | .error cause => .error (.filter text cause)

end Crosswalk
