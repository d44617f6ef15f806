import Crosswalk.Document.Content
import Crosswalk.Path.Segment
import Crosswalk.Proofs.Markup.WellFormed
import Crosswalk.Proofs.Path.Spelling

/-!
# Names in paths

The names of a markup document can be the pieces of a path, if no dot divides them: the name of an
element is a step to a child, and the field name of an attribute is a step to the attribute.

* `Segment.ofText_of_isName`, `Segment.ofText_attributeKey` : the steps that they spell.
* `Path.isPlainPiece_of_isName`, `Path.isPlainPiece_attributeKey` : they are plain pieces.
-/

namespace Crosswalk

namespace Markup

/-- What may not stand in a name. -/
theorem not_mem_of_isName {name : List Char} (h : IsName name) {c : Char}
    (hc : isNameChar c = false) : c ∉ name := by
  obtain ⟨first, rest, rfl, hfirst, hrest⟩ := h
  intro hmem
  rcases List.mem_cons.1 hmem with rfl | hinner
  · rw [isNameChar_of_isNameStart hfirst] at hc
    cases hc
  · rw [hrest c hinner] at hc
    cases hc

end Markup

namespace Document

theorem toList_attributeKey (base : String) :
    (attributeKey base).toList = '@' :: '_' :: base.toList := by
  simp [attributeKey]

end Document

namespace Path

open Document Markup

/-- A name has no mark of an attribute. -/
theorem isAttributePiece_of_isName {name : String} (h : IsName name.toList) :
    isAttributePiece name = false :=
  isAttributePiece_of_no_at (not_mem_of_isName h (by decide))

theorem isAttributePiece_attributeKey (base : String) :
    isAttributePiece (attributeKey base) = true := by
  rw [isAttributePiece, toList_attributeKey]
  rfl

end Path

namespace Segment

open Document Markup

/-- A name does not begin with a digit. -/
theorem isDigits_of_isName {name : List Char} (h : IsName name) : isDigits name = false := by
  obtain ⟨first, rest, rfl, hfirst, -⟩ := h
  have hdigit : first.isDigit = false := by
    by_contra hne
    rw [Bool.not_eq_false, Char.isDigit, Bool.and_eq_true, decide_eq_true_eq,
      decide_eq_true_eq] at hne
    have hlow : first.toNat < 0x3A := by
      have hle := UInt32.le_iff_toNat_le.1 hne.2
      exact Nat.lt_succ_of_le hle
    simp [isNameStart, nameStartRanges, Text.memRanges, hlow] at hfirst
  simp [isDigits, hdigit]

/-- **A name** is a step to the child of that name. -/
theorem ofText_of_isName {name : String} (h : IsName name.toList) :
    ofText name = .element name none :=
  ofText_of_plain (not_mem_of_isName h (by decide)) (isDigits_of_isName h)
    (Path.isAttributePiece_of_isName h)

/-- The field name of an attribute is a step to it. -/
theorem ofText_attributeKey (base : String) :
    ofText (attributeKey base) = .attribute base := by
  rw [ofText, toList_attributeKey, ofChars_of_mark, String.ofList_toList]

end Segment

namespace Path

open Document Markup

/-- Names and field names of attributes can be pieces of a path, if no dot divides them. -/
theorem isPlainPiece_of_isName {name : String} (h : IsName name.toList) (hdot : '.' ∉ name.toList) :
    IsPlainPiece name := by
  refine ⟨?_, hdot, not_mem_of_isName h (by decide)⟩
  rintro rfl
  exact absurd h (by decide)

theorem isPlainPiece_attributeKey {base : String} (h : IsName base.toList)
    (hdot : '.' ∉ base.toList) : IsPlainPiece (attributeKey base) := by
  have hopen : '[' ∉ base.toList := not_mem_of_isName h (by decide)
  rw [IsPlainPiece, toList_attributeKey]
  refine ⟨?_, ?_, ?_⟩
  · intro hempty
    have hchars := toList_attributeKey base
    rw [hempty] at hchars
    cases hchars
  · simpa using hdot
  · simpa using hopen

end Path

end Crosswalk
