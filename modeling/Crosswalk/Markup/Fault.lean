import Crosswalk.Markup.Name
import Crosswalk.Text.Quoted

/-!
# What can be wrong with markup

Nearly every fault has a place: a row and a column, both counted in characters from 1.  While
reading, a place is kept as the number of characters that are still unread; the row and column are
worked out once, from the whole text.
-/

namespace Crosswalk.Markup

/-- A row and a column, both counted from 1. -/
structure Place where
  row : Nat
  column : Nat
deriving DecidableEq, Repr

/-- The place right after the given characters, which are all that stand in front of it. -/
def Place.of (passed : List Char) : Place :=
  passed.foldl (fun p c => if c = '\n' then ⟨p.row + 1, 1⟩ else ⟨p.row, p.column + 1⟩) ⟨1, 1⟩

/-- The text of a place. -/
def Place.text (p : Place) : String :=
  toString p.row ++ ":" ++ toString p.column

/-- What is wrong. -/
inductive Cause where
  /-- The document brings its own type definition. -/
  | typeDefinition
  | noRoot
  | unclosedRoot
  | endOfText
  | unknownToken
  | invalidName
  | noMarkupChar (c : Char)
  /-- A fixed word is not where it has to be. -/
  | expectedWord (word : String)
  /-- A sign is not where it has to be. -/
  | expectedSign (sign found : Char)
  /-- A character of a certain sort is not where it has to be. -/
  | expectedSort (sort : String) (found : Char)
  | commentHyphens
  | strayDeclaration
  | strayDataEnd
  | malformedReference
  | unknownReference (name : String)
  /-- A name is qualified by the mark of namespace declarations. -/
  | reservedQualifier
  /-- The namespace of namespace declarations is declared. -/
  | reservedSpace
  /-- The qualifier `xml` is declared for another namespace. -/
  | wrongXmlSpace
  /-- The namespace of the qualifier `xml` is declared for another one. -/
  | takenXmlSpace
  | repeatedDeclaration (qualifier : String)
  | unknownQualifier (qualifier : String)
  | repeatedAttribute (base : String)
  /-- An end tag is not that of the innermost open element. -/
  | wrongEndTag (expected found : String)
deriving DecidableEq, Repr

/-- The wording of a cause at a place. -/
def Cause.message (place : String) : Cause → String
  | typeDefinition => "XML with DTD detected"
  | noRoot => "the document does not have a root node"
  | unclosedRoot => "the root node was opened but never closed"
  | endOfText => "unexpected end of stream"
  | unknownToken => "unknown token at " ++ place
  | invalidName => "invalid name token at " ++ place
  | noMarkupChar c => "a non-XML character " ++ Text.quotedChar c ++ " found at " ++ place
  | expectedWord word => "expected '" ++ word ++ "' at " ++ place
  | expectedSign sign found =>
    "expected '" ++ sign.toString ++ "' not '" ++ found.toString ++ "' at " ++ place
  | expectedSort sort found =>
    "expected " ++ sort ++ " not '" ++ found.toString ++ "' at " ++ place
  | commentHyphens => "comment at " ++ place ++ " contains '--'"
  | strayDeclaration => "unexpected XML declaration at " ++ place
  | strayDataEnd => "']]>' at " ++ place ++ " is not allowed inside a character data"
  | malformedReference => "malformed entity reference at " ++ place
  | unknownReference name => "unknown entity reference '" ++ name ++ "' at " ++ place
  | reservedQualifier => "the 'xmlns' prefix is used at " ++ place ++ ", but it must not be"
  | reservedSpace => "the 'xmlns' URI is used at " ++ place ++ ", but it must not be declared"
  | wrongXmlSpace => "'xml' namespace prefix mapped to wrong URI at " ++ place
  | takenXmlSpace =>
    "the 'xml' namespace URI is used for not 'xml' prefix at " ++ place
  | repeatedDeclaration qualifier =>
    "namespace '" ++ qualifier ++ "' at " ++ place ++ " is already defined"
  | unknownQualifier qualifier =>
    "an unknown namespace prefix '" ++ qualifier ++ "' at " ++ place
  | repeatedAttribute base => "attribute '" ++ base ++ "' at " ++ place ++ " is already defined"
  | wrongEndTag expected found =>
    "expected '" ++ expected ++ "' tag, not '" ++ found ++ "' at " ++ place

/-- A cause, with the number of characters that were unread at its place. -/
structure Fault where
  cause : Cause
  unread : Nat

/-- A fault in front of what is left. -/
def Cause.before (cause : Cause) (left : List Char) : Fault :=
  ⟨cause, left.length⟩

/-- A cause and its place in a text. -/
structure Error where
  cause : Cause
  place : Place
deriving DecidableEq, Repr

/-- The wording of an error. -/
def Error.message (e : Error) : String :=
  e.cause.message e.place.text

/-- The error for a fault that was found while reading a text. -/
def Fault.inText (fault : Fault) (text : List Char) : Error :=
  ⟨fault.cause, Place.of (text.take (text.length - fault.unread))⟩

/-- How messages show a character: the first byte of its encoding, as a character of its own. -/
def firstByte (c : Char) : Char :=
  if c.toNat < 0x80 then c
  else if c.toNat < 0x800 then Char.ofNat (0xC0 + c.toNat / 0x40)
  else if c.toNat < 0x10000 then Char.ofNat (0xE0 + c.toNat / 0x1000)
  else Char.ofNat (0xF0 + c.toNat / 0x40000)

end Crosswalk.Markup
