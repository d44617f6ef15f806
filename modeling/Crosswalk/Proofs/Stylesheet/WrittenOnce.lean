import Crosswalk.Proofs.Stylesheet.Arranged
import Crosswalk.Proofs.Stylesheet.Pieces

/-!
# Values in their places

The lines of a tree of output fields are the tags and the values of its entries, with the attributes
first on every level.  A value stands in the tags of the steps that lead to its rule.

* `isLaidOut_levelLines` : the tags and the values in the lines of a level.
* `finds_outline` : what a scan finds between the tags of a level.
* `values_written_once` : every rule of a tree that is not below an attribute is written once, in
  its place.
-/

namespace Crosswalk.Stylesheet

open Markup

variable {qualifier pad : String}

/-! ### The tags and the values of a level -/

mutual

/-- The tags and the values of an entry, given the tag of its step. -/
def Entry.outline (t : Tag) : Entry → List Piece
  | .leaf rule => t.around [.value rule]
  | .fanout rules => rules.flatMap fun rule => t.around [.value rule]
  | .branch children => t.around (outline children)

/-- The tags and the values of a level. -/
def outline : List (Segment × Entry) → List Piece
  | [] => []
  | (step, entry) :: rest => entry.outline (tag step) ++ outline rest

end

theorem outline_append (level others : Level) :
    outline (level ++ others) = outline level ++ outline others := by
  induction level with
  | nil => rfl
  | cons e rest ih => simp [outline, ih]

/-! ### The lines of a level -/

theorem isLaidOut_attributeInstruction (hpad : IsMargin pad.toList) (name : String) (rule : Rule) :
    IsLaidOut qualifier ((tag (.attribute name)).around [.value rule])
      (Part.charsOf (line pad (attributeInstruction name (value qualifier rule.source)))) := by
  apply IsLaidOut.line hpad
  exact (IsLaidOut.value rule).element (tag (.attribute name))

/-- The lines for the attributes of a level. -/
theorem isLaidOut_attributeLines (hpad : IsMargin pad.toList) (level : Level) :
    IsLaidOut qualifier (outline (attributesOf level))
      (Part.charsOf (attributeLines qualifier pad level)) := by
  induction level with
  | nil => exact .nil
  | cons e rest ih =>
    obtain ⟨step, entry⟩ := e
    cases step with
    | «attribute» name =>
      cases entry with
      | leaf rule =>
        rw [attributeLines, Part.charsOf_append]
        exact (isLaidOut_attributeInstruction hpad name rule).append ih
      | fanout rules =>
        rw [attributeLines, Part.charsOf_append]
        exact (IsLaidOut.flatMap (isLaidOut_attributeInstruction hpad name)).append ih
      | branch children => exact ih
    | element name brackets => exact ih
    | index position => exact ih

mutual

/-- The lines of an element. -/
theorem Entry.isLaidOut_elementLines (entry : Entry) (pad : String) (hpad : IsMargin pad.toList)
    {step : Segment} (hstep : step.isAttribute = false) :
    IsLaidOut qualifier (entry.arranged.outline (tag step))
      (Part.charsOf (elementLines qualifier pad step entry)) := by
  rw [tag_of_element hstep]
  cases entry with
  | leaf rule =>
    rw [elementLines]
    exact ((IsLaidOut.value rule).element _).line hpad
  | fanout rules =>
    have hfront : IsMargin ("\n" ++ pad ++ "  ").toList := by
      rw [String.toList_append, String.toList_append]
      exact (isMargin_break.append hpad).append (by decide)
    have hback : IsMargin ("\n" ++ pad).toList := by
      rw [String.toList_append]
      exact isMargin_break.append hpad
    rw [elementLines]
    apply IsLaidOut.flatMap
    intro rule
    have hvalue : IsLaidOut qualifier [.value rule] _ := .value rule
    have hcontent := (IsLaidOut.text hfront).append (hvalue.append (.text hback))
    apply IsLaidOut.line hpad
    apply IsLaidOut.element ⟨elementName step, filterAttributes step⟩
    simpa [Part.charsOf] using hcontent
  | branch children =>
    have hattributes : IsLaidOut qualifier (outline (attributesOf children)) _ :=
      isLaidOut_attributeLines hpad.deeper children
    have hbelow := hattributes.append (isLaidOut_childLines children (pad ++ "  ") hpad.deeper)
    have hbreak : IsMargin "\n".toList := by decide
    have hcontent := (IsLaidOut.text hbreak).append (hbelow.append (.text hpad))
    rw [elementLines]
    apply IsLaidOut.line hpad
    apply IsLaidOut.element ⟨elementName step, filterAttributes step⟩
    rw [← outline_append, List.append_nil, List.nil_append] at hcontent
    simpa [Part.charsOf, Part.charsOf_append] using hcontent

/-- The lines for the elements of a level. -/
theorem isLaidOut_childLines (level : List (Segment × Entry)) (pad : String)
    (hpad : IsMargin pad.toList) :
    IsLaidOut qualifier (outline (elementsOf level))
      (Part.charsOf (childLines qualifier pad level)) := by
  match level with
  | [] => exact .nil
  | (step, entry) :: rest =>
    have hrest : IsLaidOut qualifier (outline (elementsOf rest)) _ :=
      isLaidOut_childLines rest pad hpad
    rw [childLines, elementsOf]
    cases hstep : step.isAttribute with
    | true => simpa using hrest
    | false =>
      rw [if_neg (by simp), if_neg (by simp), outline, Part.charsOf_append]
      exact (entry.isLaidOut_elementLines pad hpad hstep).append hrest

end

/-- **The lines of a level** have the tags and the values of its entries, attributes first. -/
theorem isLaidOut_levelLines (hpad : IsMargin pad.toList) (level : Level) :
    IsLaidOut qualifier (outline (arranged level))
      (Part.charsOf (levelLines qualifier pad level)) := by
  rw [arranged, outline_append, levelLines, Part.charsOf_append]
  exact (isLaidOut_attributeLines hpad level).append (isLaidOut_childLines level pad hpad)

/-! ### The tags around the values of a level -/

mutual

/-- In an entry a scan finds the rules of the entry below its tag. -/
theorem Entry.finds_outline (entry : Entry) (t : Tag) (stack : List Tag) :
    Finds stack (entry.outline t)
      (entry.held.map fun s => ((t :: stack).reverse ++ s.1.map tag, s.2)) := by
  cases entry with
  | leaf rule => simpa [Entry.held, Entry.outline] using (Finds.value (t :: stack) rule).around
  | fanout rules =>
    rw [Entry.held, Entry.outline]
    induction rules with
    | nil => exact .nil stack
    | cons rule rules ih =>
      have hfirst := (Finds.value (t :: stack) rule).around.append ih
      simpa using hfirst
  | branch children =>
    rw [Entry.held, Entry.outline]
    exact (finds_outline children (t :: stack)).around

/-- In a level a scan finds the rules of the level below the tags of the steps to them. -/
theorem finds_outline (level : List (Segment × Entry)) (stack : List Tag) :
    Finds stack (outline level)
      ((heldIn level).map fun s => (stack.reverse ++ s.1.map tag, s.2)) := by
  match level with
  | [] => exact .nil stack
  | (step, entry) :: rest =>
    have hlevel := (entry.finds_outline (tag step) stack).append (finds_outline rest stack)
    rw [outline, heldIn, List.map_append, List.map_map]
    simpa [Function.comp_def] using hlevel

end

/-- The values of a level stand in the tags of the steps to their rules. -/
theorem enclosed?_outline (level : Level) :
    enclosed? [] (outline level) = some ((heldIn level).map fun s => (s.1.map tag, s.2)) := by
  have hscan := finds_outline level [] []
  simpa [enclosed?] using hscan

/-! ### The result -/

theorem keptAmong_sublist (rules suffix : List Rule) : (keptAmong rules suffix).Sublist suffix := by
  induction suffix with
  | nil => exact List.Sublist.refl _
  | cons r later ih =>
    rw [keptAmong]
    split
    · exact ih.cons_cons r
    · exact ih.cons r

/-- **Every value in its place.**  The lines that write the tree of some rules are start tags,
values and end tags, with line breaks and spaces between them, in the order of the tree with the
attributes first on every level.  Every end tag closes the innermost open tag, and the tags that are
open around a value are those of the steps of its rule.  The values are those of the rules in the
tree that are not below an attribute, each once; rules with the same steps keep their order. -/
theorem values_written_once (rules : List Rule) (qualifier : String) :
    let tree := (Level.ofRules rules).1
    IsLaidOut qualifier (outline (arranged tree))
        (Part.charsOf (levelLines qualifier "    " tree)) ∧
      (∀ place, levelAt? place (arranged tree)
        = if place.all fun step => !step.isAttribute then
            (levelAt? place tree).map fun level => attributesOf level ++ elementsOf level
          else none) ∧
      enclosed? [] (outline (arranged tree))
        = some ((heldIn (arranged tree)).map fun s => (s.1.map tag, s.2)) ∧
      (heldIn (arranged tree)).Perm ((heldIn tree).filter fun s => IsOpen s.1) ∧
      (∀ s ∈ heldIn tree, s.1 = s.2.steps) ∧
      ∀ steps, (rulesAt steps (heldIn (arranged tree))).Sublist rules := by
  intro tree
  refine ⟨isLaidOut_levelLines (by decide) tree,
    fun place => levelAt?_arranged place tree, enclosed?_outline _,
    perm_of_rulesAt (rulesAt_arranged tree), ?_, ?_⟩
  · intro s hs
    have hsent := (perm_heldIn_ofRules rules).mem_iff.1 hs
    obtain ⟨rule, -, rfl⟩ := List.mem_map.1 hsent
    rfl
  · intro steps
    rw [rulesAt_arranged, rulesAt_filter]
    split
    · rw [rulesAt_ofRules]
      exact List.filter_sublist.trans (keptAmong_sublist rules rules)
    · exact List.nil_sublist _

/-- An attribute comes before the elements that were mentioned first, and what is sent below an
attribute is left out. -/
example :
    let first : Rule := ⟨"1", "a.b[@t='1']", .constant "x"⟩
    let onAttribute : Rule := ⟨"2", "a.@_k", .constant "y"⟩
    let belowAttribute : Rule := ⟨"3", "a.@_m.c", .constant "z"⟩
    let second : Rule := ⟨"4", "a.b[@t='1']", .direct "p.q"⟩
    enclosed? [] (outline (arranged
        (Level.ofRules [first, onAttribute, belowAttribute, second]).1))
      = some [([⟨"a", []⟩, ⟨"xsl:attribute", [plain "name" "k"]⟩], onAttribute),
          ([⟨"a", []⟩, ⟨"b", [quoted "t" "1"]⟩], first),
          ([⟨"a", []⟩, ⟨"b", [quoted "t" "1"]⟩], second)] := by
  decide +kernel

end Crosswalk.Stylesheet
