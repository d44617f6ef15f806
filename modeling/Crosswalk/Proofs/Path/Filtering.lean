import Crosswalk.Proofs.Path.Names
import Crosswalk.Proofs.Path.Splicing

/-!
# Filters that are written down and added

A filter that can be spelled is read from its written form, and a step that carries it is read as a
step with it.  The names of markup attributes may have characters that the name of a filter may not
have; then the written form is no filter, and adding it changes nothing.

* `Filter.read_text_of_refused` : when the written form is no filter.
* `Segment.ofText_filtered` : the step that carries a filter.
* `Path.target?_element`, `Path.target?_attribute` : the step that a filter goes on.
* `Path.split_splice_text` : the pieces of a path with the filter.
-/

namespace Crosswalk

namespace Filter

variable {f : Filter}

theorem isBlankText_text (f : Filter) : Text.isBlankText f.text = false := by
  have hmark : Text.isBlank '@' = false := by decide
  rw [Text.isBlankText, toList_text, List.all_cons, hmark]
  rfl

/-- The first character that is refused. -/
theorem exists_refused {cs : List Char} (h : ∃ c ∈ cs, isNameChar c = false) :
    ∃ taken c more, cs = taken ++ c :: more ∧ (∀ d ∈ taken, isNameChar d = true) ∧
      isNameChar c = false := by
  induction cs with
  | nil =>
    obtain ⟨c, hc, -⟩ := h
    cases hc
  | cons d cs ih =>
    by_cases hd : isNameChar d = true
    · obtain ⟨c, hc, hrefused⟩ := h
      have hne : c ≠ d := by
        rintro rfl
        rw [hd] at hrefused
        cases hrefused
      obtain ⟨taken, e, more, rfl, htaken, he⟩ :=
        ih ⟨c, (List.mem_cons.1 hc).resolve_left hne, hrefused⟩
      exact ⟨d :: taken, e, more, rfl, List.forall_mem_cons.2 ⟨hd, htaken⟩, he⟩
    · exact ⟨[], d, cs, rfl, by simp, by simpa using hd⟩

/-- **A name with a character that is refused** is not read to its end. -/
theorem read_text_of_refused (hchars : ∀ c ∈ f.name.toList, c ≠ '=' ∧ c.isWhitespace = false)
    (hrefused : ∃ c ∈ f.name.toList, isNameChar c = false) :
    ∃ fault, read f.text = .error fault := by
  obtain ⟨taken, c, more, hname, htaken, hc⟩ := exists_refused hrefused
  have hmem : c ∈ f.name.toList := by
    rw [hname]
    simp
  obtain ⟨hequals, hblank⟩ := hchars c hmem
  obtain ⟨rest, hshape⟩ : ∃ rest, f.text.toList = '@' :: (taken ++ c :: rest) :=
    ⟨more ++ '=' :: '\'' :: (f.value.toList ++ ['\'']), by
      rw [toList_text, hname, List.append_assoc, List.cons_append]⟩
  have hstart : ∃ fault, readStart f.text.toList = .error fault := by
    rw [hshape]
    by_cases hnone : taken = []
    · refine ⟨.missingName (String.ofList (c :: rest)), ?_⟩
      simp [hnone, readStart, afterSign, run, hc, bind, Except.bind]
    · have hrun := run_append .missingName c rest hnone htaken hc
      refine ⟨.missingSign (String.ofList (c :: rest)), ?_⟩
      simp [readStart, afterSign, hrun, hblank, hequals, bind, Except.bind]
  obtain ⟨fault, hfault⟩ := hstart
  rw [read, trim_text, hfault]
  exact ⟨fault, rfl⟩

end Filter

namespace Segment

/-- A piece without brackets that carries a filter is a step to the child of that name with the
filter, unless it has the mark of an attribute. -/
theorem ofText_filtered_of_plain {piece : String} (hopen : '[' ∉ piece.toList)
    (hmark : Path.isAttributePiece piece = false) (f : Filter) :
    ofText (Path.filtered piece f) = .element piece (some f.text) :=
  ofText_bracketed hopen hmark f.text

/-- A name that carries a filter is a step to the child of that name with the filter. -/
theorem ofText_filtered {name : String} (h : Markup.IsName name.toList) (f : Filter) :
    ofText (Path.filtered name f) = .element name (some f.text) :=
  ofText_filtered_of_plain (Markup.not_mem_of_isName h (by decide))
    (Path.isAttributePiece_of_isName h) f

end Segment

namespace Path

/-- A filter goes on the last step, if that is no attribute. -/
theorem target?_element {last : String} (h : isAttributePiece last = false)
    (before : List String) : target? (before ++ [last]) = some (before, last, []) := by
  simp [target?, h]

/-- A filter goes on the owner of an attribute. -/
theorem target?_attribute {last : String} (h : isAttributePiece last = true)
    (before : List String) (owner : String) :
    target? (before ++ [owner, last]) = some (before, owner, [last]) := by
  simp [target?, h]

/-- **The pieces of a path** to which the written form of a filter is added. -/
theorem split_splice_text {path piece : String} {before after : List String} {f : Filter}
    (hf : f.Spellable) (hvalue : ∀ c ∈ f.value.toList, c ≠ '[' ∧ c ≠ ']')
    (htarget : target? (split path) = some (before, piece, after)) (hopen : '[' ∉ piece.toList) :
    split (splice path f.text).1 = before ++ filtered piece f :: after := by
  rw [splice_of_target f.isBlankText_text (Filter.read_text hf) htarget hopen]
  exact split_join_filtered htarget hopen hf (Filter.isBalanced_of_no_bracket hvalue)

/-- A text that is no filter changes nothing. -/
theorem splice_of_fault (path : String) {filterText : String} {fault : Filter.Fault}
    (h : Filter.read filterText = .error fault) : (splice path filterText).1 = path := by
  unfold splice
  split
  · rfl
  · rw [readFilter, h]

end Path

end Crosswalk
