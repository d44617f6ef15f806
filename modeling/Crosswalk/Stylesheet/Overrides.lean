import Crosswalk.Fields
import Crosswalk.Stylesheet.Basic
import Crosswalk.Stylesheet.Rebuilding

/-!
# Appending to a copy of the input

The input is copied as it is, and each rule appends the last two steps of its output path: an
element with a field in it.  The rules that append to the same element, which is the one that the
steps before lead to, share a template.
-/

namespace Crosswalk.Stylesheet

open Markup

/-- A rule, with the steps of its output path that it appends. -/
structure Appended where
  rule : Rule
  /-- The element that is appended around the field, if there is one. -/
  parent : Option Segment
  /-- The field that is appended. -/
  field : Segment

/-- The steps that lead to the element that a rule appends to, and what it appends. -/
def Appended.ofRule? (rule : Rule) : Option (List Segment × Appended) :=
  match (Path.namedSegments rule.outputPath).reverse with
  | [] => none
  | [field] => some ([], ⟨rule, none, field⟩)
  | field :: parent :: above => some (above.reverse, ⟨rule, some parent, field⟩)

/-- Groups with one more member: at the end of its own group, or as a new group. -/
def addMember (groups : List (List Segment × List Appended))
    (member : List Segment × Appended) : List (List Segment × List Appended) :=
  let others := (Fields.get? member.1 groups).getD []
  Fields.put member.1 (others ++ [member.2]) groups

/-- The rules in groups that append to the same element, each with the steps that lead there. -/
def grouped (rules : List Rule) : List (List Segment × List Appended) :=
  (rules.filterMap Appended.ofRule?).foldl addMember []

/-! ### Writing -/

/-- The instruction for the attribute that the filter of a step demands, on a line of its own. -/
def filterInstruction (pad : String) (step : Segment) : List Part :=
  match step.filter? with
  | some f => line pad (attributeInstruction f.name (.text f.value))
  | none => []

/-- An instruction that writes the element of a step. -/
def elementInstruction (namespaceUri : String) (step : Segment) (content : List Part) : Part :=
  .element "xsl:element"
    [plain "name" (elementName step), quoted "namespace" namespaceUri] content

/-- The instruction that writes a field. -/
def fieldInstruction (namespaceUri pad : String) (content : Part) : Segment → Part
  | .attribute name => attributeInstruction name content
  | step =>
    elementInstruction namespaceUri step
      ([.text "\n"] ++ filterInstruction (pad ++ "  ") step ++ line (pad ++ "  ") content
        ++ [.text pad])

/-- The instructions for what a rule appends. -/
def Appended.parts (qualifier namespaceUri : String) (a : Appended) : List Part :=
  let content := value qualifier a.rule.source
  match a.parent with
  | none => [.text "      ", fieldInstruction namespaceUri "      " content a.field]
  | some parent =>
    [.text "      ",
     elementInstruction namespaceUri parent
       ([.text "\n"] ++ filterInstruction "        " parent
         ++ line "        " (fieldInstruction namespaceUri "        " content a.field)
         ++ [.text "      "])]

/-- The instruction that applies the templates to everything below. -/
def applyTemplates : Part :=
  .single "xsl:apply-templates" [plain "select" "@*|node()"]

/-- The template that copies everything. -/
def identityTemplate : Part :=
  .element "xsl:template" [plain "match" "@*|node()"]
    [.text "\n    ",
     .element "xsl:copy" [] [.text "\n      ", applyTemplates, .text "\n    "],
     .text "\n  "]

/-- The template for the elements that the given steps lead to. -/
def overrideTemplate (qualifier namespaceUri : String) (steps : List Segment)
    (members : List Appended) : Part :=
  let appended := members.flatMap fun a => .text "\n" :: a.parts qualifier namespaceUri
  .element "xsl:template" [quoted "match" (XPath.pattern qualifier steps)]
    [.text "\n    ",
     .element "xsl:copy" []
       ([.text "\n      ", applyTemplates] ++ appended ++ [.text "\n    "]),
     .text "\n  "]

/-- The templates of all groups, with an empty line between them. -/
def overrideTemplates (qualifier namespaceUri : String)
    (groups : List (List Segment × List Appended)) : List Part :=
  let templates := groups.map fun (steps, members) =>
    overrideTemplate qualifier namespaceUri steps members
  match templates with
  | [] => []
  | first :: rest => .text "\n  " :: first :: rest.flatMap fun t => [.text "\n\n  ", t]

/-- The templates of a stylesheet that copies the input. -/
def copyingTemplates (s : Stylesheet) : List Part :=
  [.comment " Identity transform: copy everything ", .text "\n  ", identityTemplate,
   .text "\n\n  ", .comment " Append mapped elements "]
    ++ overrideTemplates s.qualifier s.namespaceUri (grouped s.rules)

end Crosswalk.Stylesheet
