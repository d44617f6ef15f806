import Crosswalk.Mapping.Rule
import Crosswalk.Markup.Part
import Crosswalk.Stylesheet.Hyphens
import Crosswalk.Stylesheet.XPath
import Crosswalk.Text.Blank

/-!
# Stylesheets

A stylesheet carries out a mapping from one markup document to another.  It comes in two sorts: one
writes the output from nothing, the other copies the input and appends to it.  Here stands what
both share: the outermost element, the comment with the notes, and the content that gives the value
of a rule.
-/

namespace Crosswalk

/-- What a stylesheet is made from. -/
structure Stylesheet where
  /-- Remarks for a comment at the front. -/
  notes : String
  /-- Whether the input is copied. -/
  copiesInput : Bool
  /-- The namespace of the documents. -/
  namespaceUri : String
  /-- The qualifier that stands for the namespace. -/
  qualifier : String
  rules : List Rule

namespace Stylesheet

open Markup

/-- The namespace of the documents, where no other is given. -/
def defaultNamespace : String := "http://schema.infor.com/InforOAGIS/2"

/-- The qualifier, where no other is given. -/
def defaultQualifier : String := "ns"

/-- The extension of the files that hold stylesheets. -/
def fileExtension : String := "xsl"

/-! ### Parts -/

/-- An attribute after a space, whose value is made of names or is fixed. -/
def plain (name value : String) : Given := ⟨name, value, .plain, " "⟩

/-- An attribute after a space, whose value is escaped. -/
def quoted (name value : String) : Given := ⟨name, value, .quoted, " "⟩

/-- A part on a line of its own. -/
def line (pad : String) (p : Part) : List Part :=
  [.text pad, p, .text "\n"]

/-- The part that gives the value of a rule: the constant, or a selection from the input. -/
def value (qualifier : String) : Source → Part
  | .constant value => .text value
  | .direct path => .single "xsl:value-of" [quoted "select" (XPath.ofPath qualifier path)]

/-- An instruction that gives the element around it an attribute. -/
def attributeInstruction (name : String) (content : Part) : Part :=
  .element "xsl:attribute" [plain "name" name] [content]

/-- The comment with the notes; nothing if they are blank. -/
def notesComment (notes : String) : List Part :=
  if Text.isBlankText notes then []
  else
    [.comment (" Mapping Notes:\n" ++ String.ofList (Hyphens.part notes.toList) ++ "\n"),
      .text "\n"]

/-- The attributes of the outermost element, each on a line. -/
def rootAttributes (s : Stylesheet) : List Given :=
  [plain "version" "1.0",
   ⟨"xmlns:xsl", "http://www.w3.org/1999/XSL/Transform", .plain, "\n  "⟩,
   ⟨"xmlns:" ++ s.qualifier, s.namespaceUri, .namespaceUri, "\n  "⟩,
   ⟨"exclude-result-prefixes", s.qualifier, .plain, "\n  "⟩]

/-- The declaration of how the output is written. -/
def outputDeclaration : Part :=
  .single "xsl:output" [plain "method" "xml", plain "encoding" "UTF-8", plain "indent" "yes"]

/-- The parts of a document with the given templates. -/
def document (s : Stylesheet) (templates : List Part) : List Part :=
  notesComment s.notes
    ++ [.element "xsl:stylesheet" (rootAttributes s)
          ([.text "\n  ", outputDeclaration, .text "\n\n  "] ++ templates ++ [.text "\n"]),
        .text "\n"]

end Stylesheet

end Crosswalk
