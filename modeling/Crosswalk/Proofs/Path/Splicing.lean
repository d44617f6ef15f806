import Crosswalk.Path.Splice
import Crosswalk.Proofs.Path.Grammar
import Crosswalk.Proofs.Path.Splitting

/-!
# Splitting a path with a filter added

A filter that was read can be spelled, so nothing in its name is a dot or a bracket.  If the brackets
in its value match, the piece that carries it is still one piece, and splitting the path with the
filter gives the old pieces but for that one.

* `Filter.isWhole_text` : inside of brackets the written form of a filter is not divided.
* `split_splice` : only the target differs among the pieces, or nothing does.
-/

namespace Crosswalk

namespace Filter

/-- There is no bracket among the characters of a name. -/
theorem ne_bracket_of_isNameChar {c : Char} (h : isNameChar c = true) : c ≠ '[' ∧ c ≠ ']' := by
  constructor
  · rintro rfl
    exact absurd h (by decide +kernel)
  · rintro rfl
    exact absurd h (by decide +kernel)

/-- Whether the brackets in the value of a filter match, so that a piece can carry it. -/
def IsBalanced (f : Filter) : Prop :=
  Path.IsWhole 1 f.value.toList ∧ Path.depthAfterAll 1 f.value.toList = 1

/-- A value without brackets can be carried by a piece. -/
theorem isBalanced_of_no_bracket {f : Filter} (h : ∀ c ∈ f.value.toList, c ≠ '[' ∧ c ≠ ']') :
    f.IsBalanced :=
  ⟨Path.isWhole_of_no_bracket h Nat.one_ne_zero, Path.depthAfterAll_of_no_bracket h 1⟩

/-- The written form of a filter is not divided inside of brackets. -/
theorem isWhole_text {f : Filter} (hf : f.Spellable) (hvalue : f.IsBalanced) :
    Path.IsWhole 1 f.text.toList ∧ Path.depthAfterAll 1 f.text.toList = 1 := by
  have hname : ∀ c ∈ f.name.toList, c ≠ '[' ∧ c ≠ ']' :=
    fun c hc => ne_bracket_of_isNameChar (hf.name_chars c hc)
  have hdepth : Path.depthAfterAll 1 f.name.toList = 1 :=
    Path.depthAfterAll_of_no_bracket hname 1
  have hmark : Path.depthAfterAll 1 ['@'] = 1 := by decide
  have hsigns : Path.depthAfterAll 1 ['=', '\''] = 1 := by decide
  have hshape : f.text.toList
      = ['@'] ++ (f.name.toList ++ (['=', '\''] ++ (f.value.toList ++ ['\'']))) := by
    simp [text, String.toList_append]
  rw [hshape]
  constructor
  · rw [Path.isWhole_append, hmark, Path.isWhole_append, hdepth, Path.isWhole_append, hsigns,
      Path.isWhole_append, hvalue.2]
    have hwhole : Path.IsWhole 1 f.name.toList := Path.isWhole_of_no_bracket hname Nat.one_ne_zero
    exact ⟨rfl, hwhole, rfl, hvalue.1, rfl⟩
  · rw [Path.depthAfterAll_append, hmark, Path.depthAfterAll_append, hdepth,
      Path.depthAfterAll_append, hsigns, Path.depthAfterAll_append, hvalue.2]
    decide

end Filter

namespace Path

/-- The piece that carries a filter. -/
def filtered (piece : String) (filter : Filter) : String :=
  piece ++ "[" ++ filter.text ++ "]"

theorem toList_filtered (piece : String) (filter : Filter) :
    (filtered piece filter).toList
      = piece.toList ++ '[' :: (filter.text.toList ++ [']']) :=
  toList_bracketed piece filter.text

/-- The name at the start of a piece does not depend on a filter that the piece carries. -/
theorem bareName_filtered (piece : String) (filter : Filter) :
    bareName (filtered piece filter) = bareName piece :=
  bareName_bracketed piece filter.text

/-- A filter neither brings nor hides the mark of an attribute. -/
theorem isAttributePiece_filtered (piece : String) (filter : Filter) :
    isAttributePiece (filtered piece filter) = isAttributePiece piece :=
  isAttributePiece_bracketed piece filter.text

section Target

variable {path : String} {before after : List String} {piece : String} {filter : Filter}

/-- A piece of a path that has no brackets can carry a filter. -/
theorem split_join_filtered (htarget : target? (split path) = some (before, piece, after))
    (hopen : '[' ∉ piece.toList) (hfilter : filter.Spellable) (hvalue : filter.IsBalanced) :
    split (join (before ++ filtered piece filter :: after))
      = before ++ filtered piece filter :: after := by
  have hpieces : before ++ piece :: after = split path := target?_append htarget
  have hdivided := divided_split path
  rw [← hpieces, List.map_append, List.map_cons] at hdivided
  have hpiece : IsWhole 0 piece.toList := hdivided.isWhole (by simp)
  obtain ⟨hwhole, hclosed⟩ :
      IsWhole 0 (filtered piece filter).toList ∧ IsClosed (filtered piece filter).toList := by
    obtain ⟨hinner, hdepth⟩ := Filter.isWhole_text hfilter hvalue
    rw [toList_filtered]
    exact isWhole_bracketed hpiece (isClosed_of_no_opening hopen) hinner hdepth
  apply split_join
  · rw [List.map_append, List.map_cons]
    exact hdivided.exchange hwhole hclosed
  · intro p hp
    by_cases hnew : p = filtered piece filter
    · rw [hnew, toList_filtered]
      simp
    · -- Every other piece was there before.
      suffices hmem : p ∈ split path from ne_empty_of_mem_split hmem
      rw [← hpieces]
      simp only [List.mem_append, List.mem_cons] at hp ⊢
      rcases hp with hp | hp | hp
      · exact Or.inl hp
      · exact absurd hp hnew
      · exact Or.inr (Or.inr hp)

/-- A filter that is added stands on the target. -/
theorem splice_of_target {filterText : String} (hasked : Text.isBlankText filterText = false)
    (hread : Filter.read filterText = .ok filter)
    (htarget : target? (split path) = some (before, piece, after)) (hopen : '[' ∉ piece.toList) :
    (splice path filterText).1 = join (before ++ filtered piece filter :: after) := by
  simp [splice, hasked, readFilter, hread, htarget, hopen, filtered]

end Target

/-- **Splitting a path with a filter.**  Either the path is as it was, or the target carries the
filter and all other pieces are as they were. -/
theorem split_splice {path filterText : String} {filter : Filter}
    (hread : Filter.read filterText = .ok filter) (hvalue : filter.IsBalanced) :
    (splice path filterText).1 = path ∨
      ∃ before piece after, target? (split path) = some (before, piece, after) ∧
        '[' ∉ piece.toList ∧
        split (splice path filterText).1 = before ++ filtered piece filter :: after := by
  by_cases hasked : Text.isBlankText filterText = true
  · exact Or.inl (by rw [splice_blank path hasked])
  · cases htarget : target? (split path) with
    | none => exact Or.inl (by simp [splice, hasked, readFilter, hread, htarget])
    | some parts =>
      obtain ⟨before, piece, after⟩ := parts
      by_cases hopen : '[' ∈ piece.toList
      · exact Or.inl (by simp [splice, hasked, readFilter, hread, htarget, hopen])
      · refine Or.inr ⟨before, piece, after, rfl, hopen, ?_⟩
        rw [splice_of_target (by simpa using hasked) hread htarget hopen]
        exact split_join_filtered htarget hopen (Filter.spellable_of_read hread) hvalue

end Path

end Crosswalk
