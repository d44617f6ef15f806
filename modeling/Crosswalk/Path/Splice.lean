import Crosswalk.Path.FieldPath

/-!
# Adding a filter to a path

A filter goes on the last step of a path, or, when that step is an attribute, on the element that
owns the attribute.  A blank filter text leaves the path as it is; so do a text that is no filter
and a step that has brackets already, each with a notice.

* `splice_blank` : a blank filter text changes nothing.
-/

namespace Crosswalk.Path

/-- A remark on a filter that was not added. -/
inductive Notice where
  /-- The text is no filter. -/
  | badFilter (path : String) (fault : Path.Fault)
  /-- The step has brackets already. -/
  | alreadyFiltered (piece : String) (filter : Filter)
deriving DecidableEq, Repr

/-- The wording of a notice. -/
def Notice.message : Notice → String
  | .badFilter path fault => "Ignoring predicate for '" ++ path ++ "': " ++ fault.message
  | .alreadyFiltered piece filter =>
    "Segment '" ++ piece ++ "' already has a predicate; ignoring '" ++ filter.text ++ "'"

/-- Divides the pieces of a path at the one that a filter goes on: the pieces before it, the piece
itself and the attribute after it, if there is one. -/
def target? (pieces : List String) : Option (List String × String × List String) :=
  match pieces.reverse with
  | [] => none
  | last :: before =>
    if isAttributePiece last then
      match before with
      | [] => none
      | owner :: before => some (before.reverse, owner, [last])
    else some (before.reverse, last, [])

/-- A path with a filter added, and the notice about a filter that was not added. -/
def splice (path filterText : String) : String × Option Notice :=
  if Text.isBlankText filterText then (path, none)
  else
    match readFilter filterText with
    | .error fault => (path, some (.badFilter path fault))
    | .ok filter =>
      match target? (split path) with
      | none => (path, none)
      | some (before, piece, after) =>
        if piece.toList.contains '[' then (path, some (.alreadyFiltered piece filter))
        else (join (before ++ [piece ++ "[" ++ filter.text ++ "]"] ++ after), none)

/-- A blank filter text changes nothing. -/
theorem splice_blank (path : String) {filterText : String}
    (h : Text.isBlankText filterText = true) : splice path filterText = (path, none) := by
  simp [splice, h]

/-- The pieces before the target, the target and the piece after it are all the pieces. -/
theorem target?_append {pieces before after : List String} {piece : String}
    (h : target? pieces = some (before, piece, after)) : before ++ piece :: after = pieces := by
  unfold target? at h
  split at h
  · simp at h
  · rename_i last rest hrev
    have hpieces : pieces = rest.reverse ++ [last] := by
      rw [← List.reverse_reverse pieces, hrev, List.reverse_cons]
    split at h
    · split at h
      · simp at h
      · simp only [Option.some.injEq, Prod.mk.injEq] at h
        obtain ⟨rfl, rfl, rfl⟩ := h
        simp [hpieces]
    · simp only [Option.some.injEq, Prod.mk.injEq] at h
      obtain ⟨rfl, rfl, rfl⟩ := h
      simp [hpieces]

end Crosswalk.Path
