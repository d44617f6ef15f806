import Crosswalk.Stylesheet.Basic
import Crosswalk.Stylesheet.Tree

/-!
# Writing the output from nothing

One template for the whole document writes the tree of output fields.  On every level the
attributes come first, because they have to precede the child elements; each entry is on lines of
its own, indented by two spaces for each level.

* `attributeLines_append` : the attributes of a level are written in the order of its entries.
-/

namespace Crosswalk.Stylesheet

open Markup

/-- The attribute that the filter of a step gives to its element. -/
def filterAttributes (step : Segment) : List Given :=
  match step.filter? with
  | some f => [quoted f.name f.value]
  | none => []

/-- The name of the element of a step. -/
def elementName (step : Segment) : String :=
  step.name?.getD ""

/-- The attribute instructions of a level. -/
def attributeLines (qualifier pad : String) : Level → List Part
  | [] => []
  | (step, entry) :: rest =>
    let own := match step, entry with
      | .attribute name, .leaf rule =>
        line pad (attributeInstruction name (value qualifier rule.source))
      | .attribute name, .fanout rules =>
        rules.flatMap fun rule =>
          line pad (attributeInstruction name (value qualifier rule.source))
      | _, _ => []
    own ++ attributeLines qualifier pad rest

mutual

/-- The lines of an entry that is an element. -/
def elementLines (qualifier pad : String) (step : Segment) : Entry → List Part
  | .leaf rule =>
    line pad
      (.element (elementName step) (filterAttributes step) [value qualifier rule.source])
  | .fanout rules =>
    rules.flatMap fun rule =>
      line pad
        (.element (elementName step) (filterAttributes step)
          [.text ("\n" ++ pad ++ "  "), value qualifier rule.source, .text ("\n" ++ pad)])
  | .branch children =>
    line pad
      (.element (elementName step) (filterAttributes step)
        ([.text "\n"] ++ attributeLines qualifier (pad ++ "  ") children
          ++ childLines qualifier (pad ++ "  ") children ++ [.text pad]))

/-- The lines of the entries of a level that are elements. -/
def childLines (qualifier pad : String) : List (Segment × Entry) → List Part
  | [] => []
  | (step, entry) :: rest =>
    (if step.isAttribute then [] else elementLines qualifier pad step entry)
      ++ childLines qualifier pad rest

end

/-- The lines of a level. -/
def levelLines (qualifier pad : String) (level : Level) : List Part :=
  attributeLines qualifier pad level ++ childLines qualifier pad level

/-- The notices about attributes of a level that have entries below them. -/
def attributeNotices (level : Level) : List Notice :=
  level.filterMap fun
    | (.attribute name, .branch _) => some (.belowAttribute name)
    | _ => none

mutual

/-- The notices about the entries below an entry. -/
def Entry.notices : Entry → List Notice
  | .branch children => attributeNotices children ++ childNotices children
  | .leaf _ => []
  | .fanout _ => []

/-- The notices about what stands below the elements of a level. -/
def childNotices : List (Segment × Entry) → List Notice
  | [] => []
  | (step, entry) :: rest =>
    (if step.isAttribute then [] else entry.notices) ++ childNotices rest

end

/-- The notices about a level. -/
def levelNotices (level : Level) : List Notice :=
  attributeNotices level ++ childNotices level

/-- The template that writes the tree of output fields. -/
def rebuildingTemplate (qualifier : String) (level : Level) : Part :=
  .element "xsl:template" [plain "match" "/"]
    ([.text "\n"] ++ levelLines qualifier "    " level ++ [.text "  "])

/-- The attributes of a level are written in the order of its entries. -/
theorem attributeLines_append (qualifier pad : String) (first second : Level) :
    attributeLines qualifier pad (first ++ second)
      = attributeLines qualifier pad first ++ attributeLines qualifier pad second := by
  induction first with
  | nil => rfl
  | cons entry rest ih => simp [attributeLines, ih]

end Crosswalk.Stylesheet
