import Crosswalk.Document.Scalar
import Crosswalk.Markup.Node
import Crosswalk.Text.Blank

/-!
# Elements as values

An element with neither attributes nor child elements is the scalar that its text spells.  Every
other element is an object: a field for each attribute, its name marked, then a field for each name
of a child element, and at last a field for the text, if there is any.  Children of one name make
an array, which stands where the first of them stands.  Names are taken without namespace, and
every run of text is trimmed on its own.

* `assembled_ne_array` : an element never becomes an array, so an array under a name is always the
  children of that name.
-/

namespace Crosswalk.Document

open Markup

/-- The field name of an attribute. -/
def attributeKey (base : String) : String :=
  "@_" ++ base

/-- The field name of the text that stands beside attributes or child elements. -/
def textKey : String := "#text"

/-- Fields with the attributes of an element. -/
def attributeFields (attributes : List Attribute) : Fields Json.Value :=
  attributes.foldl (fun fields a => Fields.put (attributeKey a.name.base) (.string a.value) fields)
    []

/-- Fields with one more child. -/
def addChild (fields : Fields Json.Value) (child : String × Json.Value) : Fields Json.Value :=
  match Fields.get? child.1 fields with
  | none => Fields.put child.1 child.2 fields
  | some (.array items) => Fields.put child.1 (.array (items ++ [child.2])) fields
  | some first => Fields.put child.1 (.array [first, child.2]) fields

/-- The runs of text among the given children, each trimmed, one after the other. -/
def ownText (children : List Node) : String :=
  String.join ((children.filterMap Node.text?).map Text.trim)

/-- The value of an element with the given attributes, named child values and text. -/
def assembled (attributes : List Attribute) (children : List (String × Json.Value))
    (text : String) : Json.Value :=
  let fields := children.foldl addChild (attributeFields attributes)
  if fields.isEmpty then scalarOfText text
  else if text.isEmpty then .object fields
  else .object (Fields.put textKey (scalarOfText text) fields)

/-- The values of the elements among the given children, with their names. -/
def childValues : List Node → List (String × Json.Value)
  | [] => []
  | .element name attributes children :: rest =>
    (name.base, assembled attributes (childValues children) (ownText children))
      :: childValues rest
  | .text _ :: rest => childValues rest
  | .aside :: rest => childValues rest

/-- The value of an element. -/
def elementValue (e : Element) : Json.Value :=
  assembled e.attributes (childValues e.children) (ownText e.children)

/-- The value of a document whose outermost element is given: an object with that element as its
only field. -/
def valueOfRoot (e : Element) : Json.Value :=
  .object [(e.name.base, elementValue e)]

/-- A text never spells an array. -/
theorem scalarOfText_ne_array (text : String) (items : List Json.Value) :
    scalarOfText text ≠ .array items := by
  unfold scalarOfText
  repeat' split
  all_goals simp

/-- An element never becomes an array. -/
theorem assembled_ne_array (attributes : List Attribute) (children : List (String × Json.Value))
    (text : String) (items : List Json.Value) :
    assembled attributes children text ≠ .array items := by
  simp only [assembled]
  split
  · exact scalarOfText_ne_array text items
  · split <;> simp

end Crosswalk.Document
