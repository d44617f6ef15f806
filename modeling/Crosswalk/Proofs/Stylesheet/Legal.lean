import Crosswalk.Proofs.Markup.WellFormed
import Crosswalk.Proofs.Path.Spelling
import Crosswalk.Proofs.Path.Splitting
import Crosswalk.Stylesheet.Overrides

/-!
# The characters and names in a stylesheet

The names that a stylesheet writes into tags and patterns are those of the steps of output paths, and
the characters of a location path are those of the path that it was made from.

* `Segment.Writable` : the steps that may be written.
* `isLegal_ofPath`, `isLegal_pattern` : a location path and a pattern bring in no other characters.
-/

namespace Crosswalk

open Markup

/-! ### Paths -/

namespace Path

theorem isLegal_of_mem_pieces {path piece : List Char} (hpath : IsLegal path)
    (h : piece ∈ pieces path) : IsLegal piece := by
  intro c hc
  exact hpath c (mem_of_mem_rawPieces (List.mem_filter.1 h).1 hc)

end Path

namespace XPath

variable {qualifier : String}

/-- A step of a location path has the characters of the piece that it was made from. -/
theorem isLegal_step (hqualifier : IsLegal qualifier.toList) {piece : List Char}
    (h : IsLegal piece) : IsLegal (step qualifier (Segment.ofChars piece)).toList := by
  have hslash : IsLegal "/".toList := by decide
  have hcolon : IsLegal ":".toList := by decide
  have hat : IsLegal "/@".toList := by decide
  unfold Segment.ofChars
  split
  · rename_i name
    have hname : IsLegal name := fun c hc => h c (by simp [hc])
    simp only [step, String.toList_append, String.toList_ofList]
    exact hat.append hname
  · split
    · exact isLegal_nil
    · split
      · rename_i name brackets hbrackets
        rw [Segment.eq_append_of_bracketed? hbrackets] at h
        have hname : IsLegal name := fun c hc => h c (by simp [hc])
        have hinside : IsLegal ('[' :: (brackets ++ [']'])) := fun c hc =>
          h c (List.mem_append_right _ hc)
        simp only [step, String.toList_append, String.toList_ofList]
        refine (((hslash.append hqualifier).append hcolon).append hname).append ?_
        simpa using hinside
      · simp only [step, String.toList_append, String.toList_ofList]
        refine (((hslash.append hqualifier).append hcolon).append h).append ?_
        exact isLegal_nil

theorem isLegal_orRoot {path : String} (h : IsLegal path.toList) :
    IsLegal (orRoot path).toList := by
  unfold orRoot
  split
  · decide
  · exact h

/-- **Location paths** have no characters but those of the path and of the qualifier. -/
theorem isLegal_ofPath (hqualifier : IsLegal qualifier.toList) {path : String}
    (h : IsLegal path.toList) : IsLegal (ofPath qualifier path).toList := by
  apply isLegal_orRoot
  rw [String.toList_join]
  apply isLegal_flatMap
  intro text htext
  obtain ⟨segment, hsegment, rfl⟩ := List.mem_map.1 htext
  obtain ⟨piece, hpiece, rfl⟩ := List.mem_map.1 hsegment
  exact isLegal_step hqualifier (Path.isLegal_of_mem_pieces h hpiece)

end XPath

/-! ### Steps and sources -/

/-- Whether a step of an output path may be written: it has a name without a colon, and so has the
filter that it carries, whose value is made of legal characters. -/
structure Segment.Writable (s : Segment) : Prop where
  name : ∃ name, s.name? = some name ∧ IsPlainName name.toList
  filter : ∀ f, s.filter? = some f → IsPlainName f.name.toList ∧ IsLegal f.value.toList

/-- Whether the path or the constant of a source is made of legal characters. -/
def Source.IsLegal : Source → Prop
  | .direct path => Markup.IsLegal path.toList
  | .constant value => Markup.IsLegal value.toList

theorem Segment.Writable.isName {s : Segment} (h : s.Writable) :
    IsName (Stylesheet.elementName s).toList := by
  obtain ⟨name, hname, hplain, -⟩ := h.name
  rw [Stylesheet.elementName, hname]
  exact hplain

/-- A pattern has no characters but those of the names and of the qualifier. -/
theorem XPath.isLegal_pattern {qualifier : String} (hqualifier : Markup.IsLegal qualifier.toList)
    {steps : List Segment} (h : ∀ step ∈ steps, step.Writable) :
    Markup.IsLegal (XPath.pattern qualifier steps).toList := by
  apply isLegal_orRoot
  rw [String.toList_intercalate]
  apply isLegal_intercalate (by decide)
  intro cs hcs
  obtain ⟨text, htext, rfl⟩ := List.mem_map.1 hcs
  obtain ⟨step, hstep, hname⟩ := List.mem_filterMap.1 htext
  obtain ⟨name, hown, hplain, -⟩ := (h step hstep).name
  rcases step with ⟨base, brackets⟩ | base | n
  · simp only [Segment.name?, Option.some.injEq] at hown
    simp only [XPath.elementName?, Option.some.injEq] at hname
    subst hown hname
    have hcolon : Markup.IsLegal ":".toList := by decide
    rw [String.toList_append, String.toList_append]
    exact (hqualifier.append hcolon).append hplain.isLegal
  · simp [XPath.elementName?] at hname
  · simp [XPath.elementName?] at hname

end Crosswalk
