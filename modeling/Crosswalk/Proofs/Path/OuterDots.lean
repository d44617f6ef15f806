import Crosswalk.Proofs.Path.Splitting

/-!
# Dots on the outside

A dot stands on the outside of a text when no bracket is open there.  Closing brackets too many do not
count against later opening ones, and brackets may stay open to the end, so this is said of every
text, however its brackets nest.  A path is divided at the dots on its outside and nowhere else.

* `isWhole_iff` : the texts that are not divided are those without a dot on the outside.
* `split_append_dot` : a path is divided at each dot on its outside.
* `split_exact` : the laws of splitting.
-/

namespace Crosswalk.Path

/-- Whether a text has a dot where no bracket is open. -/
def HasOuterDot (cs : List Char) : Prop :=
  ∃ before after, cs = before ++ '.' :: after ∧ depthAfterAll 0 before = 0

/-- **A text is not divided** exactly if every dot in it has an open bracket before it. -/
theorem isWhole_iff {depth : Nat} {cs : List Char} :
    IsWhole depth cs ↔
      ∀ before after, cs = before ++ '.' :: after → depthAfterAll depth before ≠ 0 := by
  constructor
  · intro hwhole before after heq
    rw [heq, isWhole_append, isWhole_cons] at hwhole
    intro hdepth
    exact hwhole.2.1 ⟨rfl, hdepth⟩
  · intro h
    induction cs generalizing depth with
    | nil => exact isWhole_nil depth
    | cons c cs ih =>
      rw [isWhole_cons]
      constructor
      · intro ⟨hc, hdepth⟩
        subst hc
        exact h [] cs rfl hdepth
      · apply ih
        intro before after heq
        -- The character in front belongs to what is read before the dot.
        exact h (c :: before) after (by rw [heq, List.cons_append])

theorem isWhole_zero_iff {cs : List Char} : IsWhole 0 cs ↔ ¬ HasOuterDot cs := by
  rw [isWhole_iff]
  constructor
  · intro h ⟨before, after, heq, hdepth⟩
    exact h before after heq hdepth
  · intro h before after heq hdepth
    exact h ⟨before, after, heq, hdepth⟩

/-- A piece of a path has no dot on its outside. -/
theorem not_hasOuterDot_of_mem_split {path piece : String} (h : piece ∈ split path) :
    ¬ HasOuterDot piece.toList :=
  isWhole_zero_iff.1 ((divided_split path).isWhole (List.mem_map_of_mem h))

/-- **A dot on the outside** divides a path into the pieces before it and those after it. -/
theorem split_append_dot {before : String} (h : depthAfterAll 0 before.toList = 0)
    (after : String) : split (before ++ "." ++ after) = split before ++ split after := by
  have hchars : (before ++ "." ++ after).toList = before.toList ++ '.' :: after.toList := by
    simp [String.toList_append]
  rw [split, split, split, hchars, pieces, rawPieces_append_dot 0 _ _ h, List.filter_append,
    List.map_append]
  rfl

/-- A text without a dot on the outside is one piece. -/
theorem split_of_not_hasOuterDot {piece : String} (hne : piece ≠ "")
    (h : ¬ HasOuterDot piece.toList) : split piece = [piece] := by
  have hraw : rawPieces 0 piece.toList = [piece.toList] := isWhole_zero_iff.2 h
  rw [split, pieces, hraw]
  simp [hne]

/-- **Splitting is exact.**  No piece is empty or has a dot on its outside, and a text like that is
its own only piece.  The pieces of a path are read again from their join.  A dot before which all
brackets are closed separates the pieces before it from those after it. -/
theorem split_exact :
    (∀ path, ∀ piece ∈ split path, piece ≠ "" ∧ ¬ HasOuterDot piece.toList) ∧
      (∀ piece, piece ≠ "" → ¬ HasOuterDot piece.toList → split piece = [piece]) ∧
      (∀ path, split (join (split path)) = split path) ∧
      ∀ before after, depthAfterAll 0 before.toList = 0 →
        split (before ++ "." ++ after) = split before ++ split after := by
  refine ⟨?_, ?_, split_join_split, ?_⟩
  · intro path piece hpiece
    have hchars : piece.toList ≠ [] := ne_empty_of_mem_split hpiece
    exact ⟨by simpa using hchars, not_hasOuterDot_of_mem_split hpiece⟩
  · intro piece hne houter
    exact split_of_not_hasOuterDot hne houter
  · intro before after hdepth
    exact split_append_dot hdepth after

/-- A path with a closing bracket too many, a dot in brackets, empty pieces and a bracket that stays
open. -/
theorem split_exact_of_stray_brackets :
    let before := "a].b[c.d]."
    let after := "e[f.g"
    (depthAfterAll 0 before.toList = 0 ∧
        split (before ++ "." ++ after) = split before ++ split after) ∧
      split (before ++ "." ++ after) = ["a]", "b[c.d]", "e[f.g"] ∧
      ("b[c.d]" ∈ split before ∧ "b[c.d]" ≠ "" ∧ ¬ HasOuterDot "b[c.d]".toList) ∧
      (after ≠ "" ∧ ¬ HasOuterDot after.toList ∧ split after = [after]) := by
  intro before after
  obtain ⟨hpieces, hone, -, hdot⟩ := split_exact
  have hdepth : depthAfterAll 0 before.toList = 0 := by decide
  have hmem : "b[c.d]" ∈ split before := by decide
  have hlast : after ∈ split after := by decide
  have hafter := hpieces after after hlast
  exact ⟨⟨hdepth, hdot before after hdepth⟩, by decide, ⟨hmem, hpieces before _ hmem⟩,
    hafter.1, hafter.2, hone after hafter.1 hafter.2⟩

end Crosswalk.Path
