import Crosswalk.Markup.Part

/-!
# What is read in written text

Running text is written with references for three characters.  Whoever reads it puts the characters
back, so nothing is lost and nothing comes in, whatever stands before and after.

* `decode_escapeText` : a text that is written is read again.
* `Part.characterData_element` : so the character data of an element are the texts in it.
-/

namespace Crosswalk.Markup

/-- Written text with the characters put back that references stand for. -/
def decode : List Char → List Char
  | '&' :: 'l' :: 't' :: ';' :: rest => '<' :: decode rest
  | '&' :: 'g' :: 't' :: ';' :: rest => '>' :: decode rest
  | '&' :: 'a' :: 'm' :: 'p' :: ';' :: rest => '&' :: decode rest
  | '&' :: 'q' :: 'u' :: 'o' :: 't' :: ';' :: rest => '"' :: decode rest
  | '&' :: 'a' :: 'p' :: 'o' :: 's' :: ';' :: rest => '\'' :: decode rest
  | c :: rest => c :: decode rest
  | [] => []

theorem decode_textChar (c : Char) (rest : List Char) :
    decode (textChar c ++ rest) = c :: decode rest := by
  unfold textChar
  split
  · rename_i hc
    simp [decode, hc]
  · split
    · rename_i hc
      simp [decode, hc]
    · split
      · rename_i hc
        simp [decode, hc]
      · rename_i hc
        -- No reference begins with any other character.
        rw [List.singleton_append, decode]
        all_goals
          intro _ heq
          simp_all

/-- **A text that is written is read again**, before anything else. -/
theorem decode_escapeText (s : String) (rest : List Char) :
    decode (escapeText s ++ rest) = s.toList ++ decode rest := by
  unfold escapeText
  induction s.toList with
  | nil => rfl
  | cons c cs ih => rw [List.flatMap_cons, List.append_assoc, decode_textChar, ih, List.cons_append]

namespace Part

/-- The text of a part that is running text. -/
def text? : Part → Option String
  | text content => some content
  | _ => none

/-- The character data of an element: the running text that stands in it, as it is read. -/
def characterData : Part → List Char
  | element _ _ content => decode (charsOf (content.filter fun p => p.text?.isSome))
  | _ => []

/-- Running text is read as it was given. -/
theorem decode_charsOf (texts : List String) :
    decode (charsOf (texts.map text)) = texts.flatMap String.toList := by
  induction texts with
  | nil => rfl
  | cons s texts ih =>
    rw [List.map_cons, charsOf, chars, decode_escapeText, ih, List.flatMap_cons]

mutual

/-- A part and all parts in it, outer ones first. -/
def inside : Part → List Part
  | element name attributes content => element name attributes content :: insideAll content
  | single name attributes => [single name attributes]
  | text content => [text content]
  | comment content => [comment content]

/-- Some parts and all parts in them. -/
def insideAll : List Part → List Part
  | [] => []
  | p :: rest => p.inside ++ insideAll rest

end

theorem insideAll_eq_flatMap (ps : List Part) : insideAll ps = ps.flatMap inside := by
  induction ps with
  | nil => rw [insideAll, List.flatMap_nil]
  | cons p ps ih => rw [insideAll, ih, List.flatMap_cons]

theorem insideAll_append (ps qs : List Part) :
    insideAll (ps ++ qs) = insideAll ps ++ insideAll qs := by
  rw [insideAll_eq_flatMap, insideAll_eq_flatMap, insideAll_eq_flatMap, List.flatMap_append]

/-- A part is among the parts in it. -/
theorem singleton_sublist_inside (p : Part) : [p].Sublist p.inside := by
  cases p with
  | element name attributes content =>
    rw [inside]
    exact (List.nil_sublist _).cons_cons _
  | _ => exact List.Sublist.refl _

/-- What is in a part among others is in all of them. -/
theorem inside_sublist_insideAll {p : Part} {ps : List Part} (h : p ∈ ps) :
    p.inside.Sublist (insideAll ps) := by
  induction ps with
  | nil => cases h
  | cons q ps ih =>
    rw [insideAll]
    rcases List.mem_cons.1 h with rfl | h
    · exact List.sublist_append_left _ _
    · exact (ih h).trans (List.sublist_append_right _ _)

/-- What is in the content of an element is in the element. -/
theorem insideAll_sublist_element (name : String) (attributes : List Given) {ps content : List Part}
    (h : ps.Sublist (insideAll content)) :
    ps.Sublist (element name attributes content).inside := by
  rw [inside]
  exact h.cons _

/-- What is in some parts in the middle of the content of an element is in the element. -/
theorem insideAll_sublist_framed (name : String) (attributes : List Given)
    (before after : List Part) {ps content : List Part} (h : ps.Sublist (insideAll content)) :
    ps.Sublist (element name attributes (before ++ content ++ after)).inside := by
  apply insideAll_sublist_element
  rw [insideAll_append, insideAll_append]
  exact (h.trans (List.sublist_append_right _ _)).trans (List.sublist_append_left _ _)

/-- Parts are found in a list of parts that is put together from those they are found in. -/
theorem sublist_insideAll_flatMap {α : Type} (xs : List α) {found parts : α → List Part}
    (h : ∀ x ∈ xs, (found x).Sublist (insideAll (parts x))) :
    (xs.flatMap found).Sublist (insideAll (xs.flatMap parts)) := by
  induction xs with
  | nil => exact List.nil_sublist _
  | cons x xs ih =>
    obtain ⟨hfirst, hrest⟩ := List.forall_mem_cons.1 h
    rw [List.flatMap_cons, List.flatMap_cons, insideAll_append]
    exact hfirst.append (ih hrest)

/-- The character data of an element are the texts in it, one after the other. -/
theorem characterData_element (name : String) (attributes : List Given) (content : List Part) :
    (element name attributes content).characterData
      = (content.filterMap text?).flatMap String.toList := by
  have htexts : (content.filter fun p => p.text?.isSome) = (content.filterMap text?).map text := by
    induction content with
    | nil => rfl
    | cons p content ih =>
      cases p with
      | text content =>
        rw [List.filter_cons_of_pos rfl, ih]
        rfl
      | _ =>
        rw [List.filter_cons_of_neg (by simp [text?]), ih]
        rfl
  rw [characterData, htexts, decode_charsOf]

end Part

end Crosswalk.Markup
