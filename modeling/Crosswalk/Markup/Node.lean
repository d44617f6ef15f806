/-!
# Markup as a tree

An element has a name, attributes and children.  A child is an element, a run of text, or an aside:
a comment or processing instruction, of which only the place matters, because it keeps the text on
its two sides apart.
-/

namespace Crosswalk.Markup

/-- A name and the namespace that it belongs to, if it belongs to one. -/
structure Name where
  space : Option String
  base : String
deriving DecidableEq, Repr

/-- An attribute of an element. -/
structure Attribute where
  name : Name
  value : String
deriving DecidableEq, Repr

/-- A part of a markup document. -/
inductive Node where
  | element (name : Name) (attributes : List Attribute) (children : List Node)
  | text (content : String)
  | aside

/-- An element. -/
structure Element where
  name : Name
  attributes : List Attribute
  children : List Node

namespace Node

/-- The element that a node is. -/
def element? : Node → Option Element
  | element name attributes children => some ⟨name, attributes, children⟩
  | _ => none

/-- The text of a node that is a run of text. -/
def text? : Node → Option String
  | text content => some content
  | _ => none

end Node

namespace Element

/-- An element as a node. -/
def node (e : Element) : Node :=
  .element e.name e.attributes e.children

/-- The value of the first attribute with the given base name, in whatever namespace. -/
def attribute? (e : Element) (base : String) : Option String :=
  (e.attributes.find? (fun a => a.name.base == base)).map Attribute.value

/-- The elements among the children. -/
def elements (e : Element) : List Element :=
  e.children.filterMap Node.element?

/-- The text at the front of the element: its first child, if that is a run of text. -/
def leadingText? (e : Element) : Option String :=
  e.children.head?.bind Node.text?

end Element

end Crosswalk.Markup
