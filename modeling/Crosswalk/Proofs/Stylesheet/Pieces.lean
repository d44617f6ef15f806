import Crosswalk.Proofs.Stylesheet.Constants

/-!
# Tags and values in a text

A part of a stylesheet is written as start tags, values and end tags, with line breaks and spaces
between them.  A scan that puts the open tags on a stack tells in which tags a value stands.

* `IsLaidOut.element`, `IsLaidOut.line` : an element is its content between its tags, and a line
  adds nothing to what stands on it.
* `Finds.around` : what a scan finds between a start tag and its end tag.
-/

namespace Crosswalk.Stylesheet

open Markup

variable {qualifier pad : String}

/-! ### Tags and values -/

/-- A start tag. -/
structure Tag where
  name : String
  attributes : List Given
deriving DecidableEq, Repr

/-- The start tag that stands for a step: the instruction for an attribute of its name, or an element
of its name with the attribute that its filter asks for.  A position has no tag of its own. -/
def tag : Segment → Tag
  | .attribute name => ⟨"xsl:attribute", [⟨"name", name, .plain, " "⟩]⟩
  | .element name brackets =>
    match brackets.bind Filter.read? with
    | some f => ⟨name, [⟨f.name, f.value, .quoted, " "⟩]⟩
    | none => ⟨name, []⟩
  | .index _ => ⟨"", []⟩

/-- What the lines of a tree are made of. -/
inductive Piece where
  | opening (tag : Tag)
  | closing (name : String)
  /-- The value of a rule. -/
  | value (rule : Rule)
deriving DecidableEq, Repr

/-- A piece as it is written. -/
def Piece.chars (qualifier : String) : Piece → List Char
  | opening tag => '<' :: (Part.tagChars tag.name tag.attributes ++ ['>'])
  | closing name => '<' :: '/' :: (name.toList ++ ['>'])
  | value rule => (Stylesheet.value qualifier rule.source).chars

/-- Pieces between a start tag and its end tag. -/
def Tag.around (t : Tag) (inside : List Piece) : List Piece :=
  .opening t :: (inside ++ [.closing t.name])

/-- The tag for a step that is no attribute is the one that is written. -/
theorem tag_of_element {step : Segment} (h : step.isAttribute = false) :
    tag step = ⟨elementName step, filterAttributes step⟩ := by
  cases step with
  | «attribute» name => cases h
  | element name brackets =>
    rw [tag, filterAttributes, Segment.filter?, Segment.brackets?]
    cases brackets.bind Filter.read? with
    | none => rfl
    | some f => rfl
  | index position => rfl

/-! ### Pieces with margins between them -/

/-- Whether a text is made of some pieces, with line breaks and spaces anywhere between them. -/
inductive IsLaidOut (qualifier : String) : List Piece → List Char → Prop
  | nil : IsLaidOut qualifier [] []
  | margin {pieces : List Piece} {cs ds : List Char} (h : IsMargin cs)
      (rest : IsLaidOut qualifier pieces ds) : IsLaidOut qualifier pieces (cs ++ ds)
  | piece (p : Piece) {pieces : List Piece} {ds : List Char}
      (rest : IsLaidOut qualifier pieces ds) :
      IsLaidOut qualifier (p :: pieces) (p.chars qualifier ++ ds)

namespace IsLaidOut

variable {pieces others : List Piece} {cs ds : List Char}

theorem append (h : IsLaidOut qualifier pieces cs) (hother : IsLaidOut qualifier others ds) :
    IsLaidOut qualifier (pieces ++ others) (cs ++ ds) := by
  induction h with
  | nil => exact hother
  | margin hmargin _ ih =>
    rw [List.append_assoc]
    exact .margin hmargin ih
  | piece p _ ih =>
    rw [List.append_assoc]
    exact .piece p ih

theorem single (p : Piece) : IsLaidOut qualifier [p] (p.chars qualifier) := by
  rw [← List.append_nil (p.chars qualifier)]
  exact .piece p .nil

/-- Escaping leaves line breaks and spaces as they are. -/
theorem text {content : String} (h : IsMargin content.toList) :
    IsLaidOut qualifier [] (Part.text content).chars := by
  have hescaped : ∀ c, c = '\n' ∨ c = ' ' → textChar c = [c] := by
    intro c hc
    rcases hc with rfl | rfl <;> rfl
  have hmargin : IsMargin (Part.text content).chars := by
    intro c hc
    rw [Part.chars, escapeText] at hc
    obtain ⟨d, hd, hc⟩ := List.mem_flatMap.1 hc
    rw [hescaped d (h d hd), List.mem_singleton] at hc
    exact hc ▸ h d hd
  rw [← List.append_nil (Part.text content).chars]
  exact .margin hmargin .nil

/-- An element is laid out as its tags around its content. -/
theorem element (t : Tag) {content : List Part}
    (h : IsLaidOut qualifier pieces (Part.charsOf content)) :
    IsLaidOut qualifier (t.around pieces) (Part.element t.name t.attributes content).chars := by
  have hclosed := IsLaidOut.piece (.opening t) (h.append (single (.closing t.name)))
  rw [Part.chars]
  simpa [Piece.chars, Tag.around] using hclosed

/-- A line is laid out as what stands on it. -/
theorem line {p : Part} (hpad : IsMargin pad.toList) (h : IsLaidOut qualifier pieces p.chars) :
    IsLaidOut qualifier pieces (Part.charsOf (line pad p)) := by
  have hbreak : IsLaidOut qualifier [] (Part.text "\n").chars := text (by decide)
  have hline := (text hpad).append (h.append hbreak)
  rw [List.nil_append, List.append_nil] at hline
  simpa [Stylesheet.line, Part.charsOf] using hline

/-- Parts for some rules are laid out one after the other. -/
theorem flatMap {rules : List Rule} {layout : Rule → List Piece} {parts : Rule → List Part}
    (h : ∀ rule, IsLaidOut qualifier (layout rule) (Part.charsOf (parts rule))) :
    IsLaidOut qualifier (rules.flatMap layout) (Part.charsOf (rules.flatMap parts)) := by
  induction rules with
  | nil => exact .nil
  | cons rule rules ih =>
    rw [List.flatMap_cons, List.flatMap_cons, Part.charsOf_append]
    exact (h rule).append ih

/-- The part for a value is laid out as that value. -/
theorem value (rule : Rule) : IsLaidOut qualifier [.value rule]
    (Part.charsOf [Stylesheet.value qualifier rule.source]) := by
  rw [Part.charsOf, Part.charsOf, List.append_nil]
  exact single (.value rule)

end IsLaidOut

/-! ### The tags around a value -/

/-- The values among some pieces, each with the tags that are open around it, from the outside in.
The tags that are open before the pieces are given from the inside out; every end tag has to close
the innermost one, and none may be left open. -/
def enclosed? : List Tag → List Piece → Option (List (List Tag × Rule))
  | [], [] => some []
  | _ :: _, [] => none
  | stack, .opening t :: rest => enclosed? (t :: stack) rest
  | [], .closing _ :: _ => none
  | t :: stack, .closing name :: rest => if t.name = name then enclosed? stack rest else none
  | stack, .value rule :: rest => (enclosed? stack rest).map ((stack.reverse, rule) :: ·)

/-- Whether some pieces leave the open tags as they are, and have the given values. -/
def Finds (stack : List Tag) (pieces : List Piece) (found : List (List Tag × Rule)) : Prop :=
  ∀ rest, enclosed? stack (pieces ++ rest) = (enclosed? stack rest).map (found ++ ·)

section Scan

variable {stack : List Tag} {pieces others : List Piece} {found more : List (List Tag × Rule)}

theorem Finds.nil (stack : List Tag) : Finds stack [] [] := by
  intro rest
  simp

theorem Finds.append (h : Finds stack pieces found) (hmore : Finds stack others more) :
    Finds stack (pieces ++ others) (found ++ more) := by
  intro rest
  rw [List.append_assoc, h, hmore, Option.map_map]
  simp [Function.comp_def]

theorem Finds.value (stack : List Tag) (rule : Rule) :
    Finds stack [.value rule] [(stack.reverse, rule)] := by
  intro rest
  cases stack <;> rfl

/-- What is found between a start tag and its end tag. -/
theorem Finds.around {t : Tag} (h : Finds (t :: stack) pieces found) :
    Finds stack (t.around pieces) found := by
  intro rest
  have hopen : enclosed? stack (t.around pieces ++ rest)
      = enclosed? (t :: stack) (pieces ++ (.closing t.name :: rest)) := by
    cases stack <;> simp [Tag.around, enclosed?]
  rw [hopen, h, enclosed?, if_pos rfl]

end Scan

end Crosswalk.Stylesheet
