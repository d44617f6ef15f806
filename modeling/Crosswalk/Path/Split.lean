/-!
# Pieces of a field path

A field path is written as pieces joined by dots.  What stands in square brackets belongs to its
piece as a whole, so a dot splits only where no bracket is open.  A closing bracket too many is
ignored: the depth never falls below the outside.  Leading, trailing and doubled dots would give
empty pieces; those are dropped.

* `rawPieces_append_dot` : a dot met on the outside separates the pieces before it from those after.
-/

namespace Crosswalk.Path

/-- The mark in front of the name of an attribute. -/
def attributeMark : List Char := ['@', '_']

/-- How many brackets are open after one more character. -/
def depthAfter (depth : Nat) (c : Char) : Nat :=
  if c = '[' then depth + 1 else if c = ']' then depth - 1 else depth

/-- How many brackets are open after a whole text. -/
def depthAfterAll (depth : Nat) (cs : List Char) : Nat :=
  cs.foldl depthAfter depth

/-- The texts between the dots that no bracket encloses, empty ones included, when reading begins
with `depth` brackets open. -/
def rawPieces : Nat → List Char → List (List Char)
  | _, [] => [[]]
  | depth, c :: rest =>
    if c = '.' ∧ depth = 0 then [] :: rawPieces depth rest
    else
      match rawPieces (depthAfter depth c) rest with
      | [] => [[c]]
      | piece :: pieces => (c :: piece) :: pieces

/-- The non-empty pieces of a path, as characters. -/
def pieces (path : List Char) : List (List Char) :=
  (rawPieces 0 path).filter (fun piece => !piece.isEmpty)

/-- The non-empty pieces of a path. -/
def split (path : String) : List String :=
  (pieces path.toList).map String.ofList

/-- Pieces written one after the other with dots between them. -/
def join (pieces : List String) : String :=
  String.intercalate "." pieces

/-- The name at the start of a piece: everything before its first opening bracket. -/
def bareName (piece : String) : String :=
  String.ofList (piece.toList.takeWhile (· ≠ '['))

/-- Whether a piece begins with the mark of an attribute. -/
def isAttributePiece (piece : String) : Bool :=
  attributeMark.isPrefixOf piece.toList

/-- Reading always gives at least one piece. -/
theorem rawPieces_ne_nil (depth : Nat) (cs : List Char) : rawPieces depth cs ≠ [] := by
  cases cs with
  | nil => simp [rawPieces]
  | cons c rest =>
    rw [rawPieces]
    split
    · simp
    · split <;> simp

/-- Every piece that is kept has a character. -/
theorem ne_nil_of_mem_pieces {path piece : List Char} (h : piece ∈ pieces path) : piece ≠ [] := by
  simp only [pieces, List.mem_filter, Bool.not_eq_true', List.isEmpty_eq_false_iff] at h
  exact h.2

/-- A dot met on the outside separates the pieces before it from those after it. -/
theorem rawPieces_append_dot (depth : Nat) (before after : List Char)
    (h : depthAfterAll depth before = 0) :
    rawPieces depth (before ++ '.' :: after) = rawPieces depth before ++ rawPieces 0 after := by
  induction before generalizing depth with
  | nil =>
    have h0 : depth = 0 := by simpa [depthAfterAll] using h
    subst h0
    simp [rawPieces]
  | cons c before ih =>
    simp only [List.cons_append, rawPieces]
    split
    · rename_i hdot
      have hd : depthAfter depth c = depth := by simp [depthAfter, hdot.1]
      rw [depthAfterAll, List.foldl_cons, hd] at h
      rw [ih depth h, List.cons_append]
    · rw [depthAfterAll, List.foldl_cons] at h
      rw [ih _ h]
      cases hraw : rawPieces (depthAfter depth c) before with
      | nil => exact absurd hraw (rawPieces_ne_nil _ _)
      | cons piece rest => simp

end Crosswalk.Path
