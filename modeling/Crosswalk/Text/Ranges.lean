/-!
# Sets of code points as closed ranges

A property of characters is carried as the closed ranges of the code points that have it, listed
in ascending order and apart from each other.  The order lets a search stop at the first range
that begins beyond the code point.
-/

namespace Crosswalk.Text

/-- Whether a code point lies in one of the ranges of an ascending table. -/
def memRanges : List (Nat × Nat) → Nat → Bool
  | [], _ => false
  | (first, last) :: rest, n =>
    if n < first then false else if n ≤ last then true else memRanges rest n

end Crosswalk.Text
