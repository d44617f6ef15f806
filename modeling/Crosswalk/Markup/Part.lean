import Crosswalk.Markup.Escape

/-!
# Markup that is written

A document that is written is a tree of parts: elements with a start and an end tag, elements
without content, text and comments.  Only here does the tree become characters, so every element
that is opened is closed, and text is always escaped.

* `charsOf_append` : parts that follow each other are written one after the other.
-/

namespace Crosswalk.Markup

/-- How the value of an attribute is escaped. -/
inductive Quoting where
  /-- Not at all: the value is made of names or is fixed. -/
  | plain
  /-- For double quotes. -/
  | quoted
  /-- For double quotes, as a namespace. -/
  | namespaceUri
deriving DecidableEq, Repr

/-- A value, escaped. -/
def Quoting.escape (quoting : Quoting) (value : String) : List Char :=
  match quoting with
  | plain => value.toList
  | quoted => value.toList.flatMap quotedChar
  | namespaceUri => value.toList.flatMap namespaceChar

/-- An attribute to be written. -/
structure Given where
  name : String
  value : String
  quoting : Quoting
  /-- The white space in front of the name. -/
  gap : String
deriving DecidableEq, Repr

/-- An attribute as it is written. -/
def Given.chars (a : Given) : List Char :=
  a.gap.toList ++ a.name.toList ++ '=' :: '"' :: (a.quoting.escape a.value ++ ['"'])

/-- A part of a document to be written. -/
inductive Part where
  /-- An element with a start tag and an end tag. -/
  | element (name : String) (attributes : List Given) (content : List Part)
  /-- An element that has no content and only one tag. -/
  | single (name : String) (attributes : List Given)
  /-- Running text, which is escaped. -/
  | text (content : String)
  /-- A comment. -/
  | comment (content : String)

namespace Part

/-- The name and the attributes in a tag. -/
def tagChars (name : String) (attributes : List Given) : List Char :=
  name.toList ++ attributes.flatMap Given.chars

mutual

/-- A part as it is written. -/
def chars : Part → List Char
  | element name attributes content =>
    '<' :: (tagChars name attributes
      ++ '>' :: (charsOf content ++ '<' :: '/' :: (name.toList ++ ['>'])))
  | single name attributes => '<' :: (tagChars name attributes ++ ['/', '>'])
  | text content => escapeText content
  | comment content => '<' :: '!' :: '-' :: '-' :: (content.toList ++ ['-', '-', '>'])

/-- Parts as they are written one after the other. -/
def charsOf : List Part → List Char
  | [] => []
  | p :: rest => p.chars ++ charsOf rest

end

/-- Parts that follow each other are written one after the other. -/
theorem charsOf_append (ps qs : List Part) : charsOf (ps ++ qs) = charsOf ps ++ charsOf qs := by
  induction ps with
  | nil => rfl
  | cons p ps ih => simp [charsOf, ih]

end Part

end Crosswalk.Markup
