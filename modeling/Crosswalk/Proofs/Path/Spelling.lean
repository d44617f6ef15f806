import Crosswalk.Path.Segment
import Crosswalk.Proofs.Path.Positions
import Crosswalk.Proofs.Path.Splitting
import Mathlib.Data.List.TakeWhile

/-!
# Pieces and the steps they spell

A step is read from a piece of a path, and its written form is read as it again.  A step that is no
position has only one spelling.  So the pieces of a path that are no positions and the steps they
spell say the same thing, and two paths agree in the one exactly when they agree in the other.

* `text_ofText` : a step that is no position is written as the piece it was read from.
* `ofText_of_plain`, `ofText_bracketed` : the steps that names without and with brackets spell.
* `isSpelled_ofText` : every step that is read from a piece is read again from its written form.
* `namedSegments_eq_map` : the named steps of a path are what its named pieces spell.
* `map_text_namedSegments` : written down again, they are these pieces.
* `segments_reduced` : joined again, they make a path without positions.
-/

namespace Crosswalk

namespace Segment

/-- The bracketed text of a piece is what stands between its first opening bracket and its last
character. -/
theorem eq_append_of_bracketed? {piece name brackets : List Char}
    (h : bracketed? piece = some (name, brackets)) :
    piece = name ++ '[' :: (brackets ++ [']']) := by
  unfold bracketed? at h
  split at h
  · rename_i first inside hdrop
    split at h
    · rename_i hlast
      simp only [Option.some.injEq, Prod.mk.injEq] at h
      obtain ⟨rfl, rfl⟩ := h
      have hfirst : first = '[' := by
        have hhead := List.head?_dropWhile_not (· ≠ '[') piece
        rw [hdrop] at hhead
        simpa using hhead
      obtain ⟨before, rfl⟩ := List.getLast?_eq_some_iff.1 hlast
      have hwhole : piece.takeWhile (· ≠ '[') ++ piece.dropWhile (· ≠ '[') = piece :=
        List.takeWhile_append_dropWhile
      rw [hdrop, hfirst] at hwhole
      rw [List.dropLast_concat, hwhole]
    · simp at h
  · simp at h

/-- **One spelling.**  A step that is no position is written as the piece it was read from. -/
theorem text_ofChars {piece : List Char} (h : (ofChars piece).isIndex = false) :
    (ofChars piece).text = String.ofList piece := by
  unfold ofChars at h ⊢
  split
  · rename_i name
    apply String.toList_injective
    simp [text]
  · split
    · rename_i hn
      simp [hn, isIndex] at h
    · split
      · rename_i hb
        rw [eq_append_of_bracketed? hb]
        apply String.toList_injective
        simp [text]
      · simp [text]

/-- A step that is no position is written as the piece it was read from. -/
theorem text_ofText {piece : String} (h : (ofText piece).isIndex = false) :
    (ofText piece).text = piece := by
  rw [ofText, text_ofChars h, String.ofList_toList]

/-! ### What names without and with brackets spell -/

theorem bracketed?_of_no_opening {piece : List Char} (h : '[' ∉ piece) :
    bracketed? piece = none := by
  have hall : piece.dropWhile (· ≠ '[') = [] := by
    rw [List.dropWhile_eq_nil_iff]
    intro c hc
    exact decide_eq_true fun heq => h (heq ▸ hc)
  rw [bracketed?, hall]

theorem bracketed?_append {name : List Char} (h : '[' ∉ name) (inner : List Char) :
    bracketed? (name ++ '[' :: (inner ++ [']'])) = some (name, inner) := by
  have hnot : ∀ c ∈ name, decide (c ≠ '[') = true := by
    intro c hc
    exact decide_eq_true fun heq => h (heq ▸ hc)
  rw [bracketed?, List.dropWhile_append_of_pos hnot, List.takeWhile_append_of_pos hnot]
  simp

/-- A piece that is no position and has no mark of an attribute is a step to a child. -/
theorem ofText_of_unmarked {piece : String} (hmark : Path.isAttributePiece piece = false)
    (hindex : indexOf? piece.toList = none) :
    ofText piece = (bracketed? piece.toList).elim (.element piece none)
      fun parts => .element (String.ofList parts.1) (some (String.ofList parts.2)) := by
  unfold ofText ofChars
  split
  · rename_i heq
    rw [Path.isAttributePiece, heq] at hmark
    cases hmark
  · cases hbrackets : bracketed? piece.toList with
    | none => simp [hindex]
    | some parts => simp [hindex]

theorem indexOf?_of_not_isDigits {piece : List Char} (h : isDigits piece = false) :
    indexOf? piece = none := by
  simp [indexOf?, h]

/-- A name without brackets is a step to the child of that name, unless it is made of digits or has
the mark of an attribute. -/
theorem ofText_of_plain {name : String} (hopen : '[' ∉ name.toList)
    (hdigits : isDigits name.toList = false) (hmark : Path.isAttributePiece name = false) :
    ofText name = .element name none := by
  rw [ofText_of_unmarked hmark (indexOf?_of_not_isDigits hdigits), bracketed?_of_no_opening hopen]
  rfl

/-- A name with text in brackets after it is a step to the child of that name with this text, unless
it has the mark of an attribute. -/
theorem ofText_bracketed {name : String} (hopen : '[' ∉ name.toList)
    (hmark : Path.isAttributePiece name = false) (inner : String) :
    ofText (name ++ "[" ++ inner ++ "]") = .element name (some inner) := by
  have hdigits : isDigits (name ++ "[" ++ inner ++ "]").toList = false := by
    rw [Path.toList_bracketed]
    simp [isDigits]
  have hunmarked : Path.isAttributePiece (name ++ "[" ++ inner ++ "]") = false := by
    rw [Path.isAttributePiece_bracketed, hmark]
  rw [ofText_of_unmarked hunmarked (indexOf?_of_not_isDigits hdigits), Path.toList_bracketed,
    bracketed?_append hopen]
  simp

/-- A piece of digits alone is a position, or a step to the child of that name if it does not fit 64
bits. -/
theorem ofText_of_isDigits {piece : String} (h : isDigits piece.toList = true) :
    (∃ n, ofText piece = .index n) ∨ ofText piece = .element piece none := by
  have hdigit := isDigit_of_isDigits h
  have hopen : '[' ∉ piece.toList := by
    intro hmem
    cases hdigit _ hmem
  have hat : '@' ∉ piece.toList := by
    intro hmem
    cases hdigit _ hmem
  cases hindex : indexOf? piece.toList with
  | some n => exact Or.inl ⟨n, ofChars_of_digits hindex⟩
  | none =>
    refine Or.inr ?_
    rw [ofText_of_unmarked (Path.isAttributePiece_of_no_at hat) hindex,
      bracketed?_of_no_opening hopen]
    rfl

/-! ### Steps and their spellings -/

/-- A step that is read again from its own spelling. -/
def IsSpelled (s : Segment) : Prop := ofText s.text = s

/-- What spells a position is read as one. -/
theorem exists_position_of_isIndex {piece : String} (h : (ofText piece).isIndex = true) :
    ∃ n, indexOf? piece.toList = some n ∧ ofText piece = .index n := by
  unfold ofText ofChars at h
  split at h
  · cases h
  · split at h
    · rename_i n hn
      exact ⟨n, hn, ofChars_of_digits hn⟩
    · split at h <;> cases h

/-- **Every step that is read from a piece** is read again from its spelling. -/
theorem isSpelled_ofText (piece : String) : (ofText piece).IsSpelled := by
  by_cases hindex : (ofText piece).isIndex = true
  · obtain ⟨n, hn, hstep⟩ := exists_position_of_isIndex hindex
    rw [IsSpelled, hstep, text, ofText]
    exact ofChars_of_digits (indexOf?_toString (indexOf?_eq_some_iff.1 hn).2.2)
  · rw [IsSpelled, text_ofText (by simpa using hindex)]

/-- Steps with the same spelling are the same. -/
theorem IsSpelled.eq_of_text {s t : Segment} (hs : s.IsSpelled) (ht : t.IsSpelled)
    (h : s.text = t.text) : s = t := by
  rw [← hs, ← ht, h]

end Segment

namespace Path

/-- A number brings neither dots nor brackets into a path. -/
theorem ne_mark_of_mem_toString {n : Nat} {c : Char} (hc : c ∈ (toString n).toList) :
    c ≠ '.' ∧ c ≠ '[' ∧ c ≠ ']' := by
  have hdigit := Segment.isDigit_of_isDigits (Segment.isDigits_toString n) c hc
  refine ⟨?_, ?_, ?_⟩ <;> rintro rfl <;> cases hdigit

/-- The usual spelling of a number can be a piece wherever it stands. -/
theorem isPlainPiece_toString (n : Nat) : IsPlainPiece (toString n) := by
  refine ⟨fun hempty => ?_, fun hdot => (ne_mark_of_mem_toString hdot).1 rfl,
    fun hopen => (ne_mark_of_mem_toString hopen).2.1 rfl⟩
  have hdigits := Segment.isDigits_toString n
  rw [hempty] at hdigits
  cases hdigits

/-- The pieces of a path that are no positions. -/
def namedPieces (path : String) : List String :=
  (split path).filter fun piece => !(Segment.ofText piece).isIndex

/-- The steps of a path are what its pieces spell. -/
theorem segments_eq_map (path : String) :
    segments path = (split path).map Segment.ofText := by
  simp [segments, split, Segment.ofText, Function.comp_def]

/-- The named steps of a path are what its named pieces spell. -/
theorem namedSegments_eq_map (path : String) :
    namedSegments path = (namedPieces path).map Segment.ofText := by
  rw [namedSegments, segments_eq_map, List.filter_map, namedPieces]
  rfl

/-- A named piece of a path spells no position. -/
theorem isIndex_of_mem_namedPieces {path piece : String} (h : piece ∈ namedPieces path) :
    (Segment.ofText piece).isIndex = false := by
  simpa using (List.mem_filter.1 h).2

/-- The named steps of a path, written down, are its named pieces. -/
theorem map_text_namedSegments (path : String) :
    (namedSegments path).map Segment.text = namedPieces path := by
  rw [namedSegments_eq_map, List.map_map]
  refine (List.map_congr_left ?_).trans (List.map_id _)
  intro piece hpiece
  exact Segment.text_ofText (isIndex_of_mem_namedPieces hpiece)

/-- The named steps of a path are read again from their spellings. -/
theorem isSpelled_of_mem_namedSegments {path : String} {step : Segment}
    (h : step ∈ namedSegments path) : step.IsSpelled := by
  rw [namedSegments_eq_map] at h
  obtain ⟨piece, -, rfl⟩ := List.mem_map.1 h
  exact Segment.isSpelled_ofText piece

/-! ### Paths without positions -/

/-- The named pieces of a path can stand beside each other. -/
theorem divided_namedPieces (path : String) : Divided ((namedPieces path).map String.toList) := by
  have hnamed : (namedPieces path).map String.toList
      = ((split path).map String.toList).filter
          fun piece => !(Segment.ofChars piece).isIndex := by
    rw [namedPieces, List.filter_map]
    rfl
  rw [hnamed]
  exact (divided_split path).filter _

theorem ne_empty_of_mem_namedPieces {path piece : String} (h : piece ∈ namedPieces path) :
    piece.toList ≠ [] :=
  ne_empty_of_mem_split (List.mem_filter.1 h).1

/-- A path with its positions left out, and with no more dots than it needs. -/
def reduced (path : String) : String :=
  join (namedPieces path)

/-- What is left of a path are its named pieces. -/
theorem split_reduced (path : String) : split (reduced path) = namedPieces path :=
  split_join (divided_namedPieces path) fun _ hp => ne_empty_of_mem_namedPieces hp

theorem namedPieces_reduced (path : String) : namedPieces (reduced path) = namedPieces path := by
  rw [namedPieces, split_reduced, List.filter_eq_self]
  intro piece hpiece
  simp [isIndex_of_mem_namedPieces hpiece]

@[simp] theorem reduced_reduced (path : String) : reduced (reduced path) = reduced path := by
  rw [reduced, namedPieces_reduced, reduced]

/-- **Nothing but positions is lost** in a path without positions. -/
theorem segments_reduced (path : String) : segments (reduced path) = namedSegments path := by
  rw [segments_eq_map, split_reduced, namedSegments_eq_map]

theorem namedSegments_reduced (path : String) :
    namedSegments (reduced path) = namedSegments path := by
  rw [namedSegments_eq_map, namedPieces_reduced, namedSegments_eq_map]

end Path

end Crosswalk
