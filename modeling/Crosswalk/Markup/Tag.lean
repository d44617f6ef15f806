import Crosswalk.Fields
import Crosswalk.Markup.CharacterData
import Crosswalk.Markup.Node

/-!
# Tags

A start tag is a name and attributes.  An attribute that is qualified by `xmlns`, or whose base name
is `xmlns`, declares a namespace for the element and what is inside it; the others belong to the
element.  A qualifier stands for the namespace that was declared for it last, from the outside in;
an attribute without a qualifier is in no namespace, an element without one in the default
namespace if there is one.
-/

namespace Crosswalk.Markup

open Text

/-- The namespace that the qualifier `xml` stands for. -/
def xmlSpace : String := "http://www.w3.org/XML/1998/namespace"

/-- The namespace of namespace declarations. -/
def declarationSpace : String := "http://www.w3.org/2000/xmlns/"

/-! ### Signs and names -/

/-- Reads a sign that has to come next. -/
def readSign (sign : Char) : Reader Unit := fun s =>
  match s with
  | [] => .error (Cause.endOfText.before [])
  | c :: r =>
    if c = sign then .ok ((), .tail c r)
    else .error ((Cause.expectedSign sign (firstByte c)).before (c :: r))

/-- Reads a word that has to come next. -/
def readWord (word : List Char) : Reader Unit := fun s =>
  match afterWord? word s with
  | some rest => .ok ((), rest)
  | none => .error ((Cause.expectedWord (String.ofList word)).before s)

/-- The characters of a qualified name at the front of a text: those of names, up to the second
colon. -/
def nameChars (colons : Nat) : List Char → List Char
  | [] => []
  | c :: r =>
    if c = ':' then (if colons = 0 then c :: nameChars 1 r else [])
    else if isNameChar c then c :: nameChars colons r
    else []

/-- Whether a part of a name begins as a name has to. -/
def beginsName : List Char → Bool
  | [] => false
  | c :: _ => isNameStart c

/-- The parts of a qualified name: what stands in front of the colon, if there is one, and what
stands after it. -/
def nameParts (chars : List Char) : List Char × List Char :=
  if chars.contains ':' then
    (chars.takeWhile (· ≠ ':'), (chars.dropWhile (· ≠ ':')).drop 1)
  else ([], chars)

/-- Reads the name of an element or attribute. -/
def readName : Reader Written := fun s =>
  let chars := nameChars 0 s
  let rest := Rest.drop chars.length s
  let (qualifier, base) := nameParts chars
  if rest.text.head? = some ':' then .error (Cause.invalidName.before s)
  else if (qualifier.isEmpty || beginsName qualifier) && beginsName base then
    .ok (⟨String.ofList qualifier, String.ofList base⟩, rest)
  else .error (Cause.invalidName.before s)

/-! ### Attributes as they are written -/

/-- An attribute as it stands in a tag: its value is not yet freed of references. -/
structure RawAttribute where
  written : Written
  value : List Char
  /-- What follows the value. -/
  after : List Char
  /-- The text that begins with the attribute. -/
  here : List Char

/-- Whether a character may stand between quotes of a kind. -/
def standsQuoted (quote c : Char) : Bool := c != quote && c != '<'

/-- Reads what stands between quotes, and the closing one; the opening quote has been read. -/
def readQuoted (quote : Char) : Reader (List Char) := fun s => do
  let value := s.takeWhile (standsQuoted quote)
  let rest := skip (standsQuoted quote) s
  checkChars value rest.text
  let (_, rest) ← rest.read (readSign quote)
  return (value, rest)

/-- Reads the name of an attribute, its sign and the quote that opens its value. -/
def readOpening : Reader (Written × Char) := fun s => do
  let (written, afterName) ← readName s
  let (_, afterSign) ← afterName.pastBlank.read (readSign '=')
  match afterSign.pastBlank with
  | ⟨[], _⟩ => throw (Cause.endOfText.before [])
  | ⟨quote :: r, hr⟩ =>
    if quote = '"' ∨ quote = '\'' then return ((written, quote), (Left.mk r hr).rest)
    else throw ((Cause.expectedSort "a quote" (firstByte quote)).before (quote :: r))

/-- Reads an attribute of a tag.  Where the text ends in its value, that is the fault, whatever
characters stand in the value. -/
def readAttribute : Reader RawAttribute := fun s => do
  let ((written, quote), opened) ← readOpening s
  if opened.text.all (standsQuoted quote) then throw (Cause.endOfText.before [])
  let (value, rest) ← opened.read (readQuoted quote)
  return (⟨written, value, quote :: rest.text, s⟩, rest)

/-! ### Namespaces -/

/-- Declared namespaces by qualifier, the innermost first; the empty qualifier is that of the
default namespace. -/
abbrev Scope : Type := Fields String

/-- An attribute that belongs to the element, its namespace still to be found. -/
structure OwnAttribute where
  written : Written
  value : String
  /-- The text that begins with the attribute. -/
  here : List Char

/-- What the attributes read so far amount to. -/
structure TagContents where
  /-- The namespaces that the tag declares, in order. -/
  declared : Scope
  /-- The other attributes, the last one first. -/
  attributes : List OwnAttribute

/-- The tag contents with one more attribute. -/
def TagContents.add (contents : TagContents) (raw : RawAttribute) : Except Fault TagContents := do
  let value := String.ofList (← valueOf raw.after raw.value)
  let base := raw.written.base
  let fault (cause : Cause) : Except Fault TagContents := .error (cause.before raw.here)
  if raw.written.qualifier = "xmlns" then
    if value = declarationSpace then fault .reservedSpace
    else if base = "xml" ∧ value ≠ xmlSpace then fault .wrongXmlSpace
    else if base ≠ "xml" ∧ value = xmlSpace then fault .takenXmlSpace
    else if (Fields.names contents.declared).contains base then
      fault (.repeatedDeclaration base)
    else if value = xmlSpace then return contents
    else return { contents with declared := contents.declared ++ [(base, value)] }
  else if base = "xmlns" then
    if value = xmlSpace then fault .takenXmlSpace
    else if value = declarationSpace then fault .reservedSpace
    else return { contents with declared := contents.declared ++ [("", value)] }
  else
    return { contents with
      attributes := ⟨raw.written, value, raw.here⟩ :: contents.attributes }

/-- The namespace of an attribute that is written in a scope, if it is in one. -/
def attributeSpace (scope : Scope) (a : OwnAttribute) : Except Fault (Option String) :=
  if a.written.qualifier = "xml" then .ok (some xmlSpace)
  else if a.written.qualifier.isEmpty then .ok none
  else
    match Fields.get? a.written.qualifier scope with
    | some space => .ok (some space)
    | none => .error ((Cause.unknownQualifier a.written.qualifier).before a.here)

/-- Finds the namespaces of attributes, each of which has to differ from those before it. -/
def resolveAttributes (scope : Scope) (known : List Attribute) :
    List OwnAttribute → Except Fault (List Attribute)
  | [] => .ok known
  | a :: rest => do
    let name : Name := ⟨← attributeSpace scope a, a.written.base⟩
    if known.any (fun k => k.name == name) then
      throw ((Cause.repeatedAttribute a.written.base).before a.here)
    else resolveAttributes scope (known ++ [⟨name, a.value⟩]) rest

/-- The name of an element that is written in a scope. -/
def resolveElement (scope : Scope) (written : Written) (here : List Char) : Except Fault Name :=
  match Fields.get? written.qualifier scope with
  | some space => .ok ⟨some space, written.base⟩
  | none =>
    if written.qualifier.isEmpty then .ok ⟨none, written.base⟩
    else .error ((Cause.unknownQualifier written.qualifier).before here)

/-! ### Start tags -/

/-- How a start tag ends. -/
inductive TagEnd where
  /-- The element has contents and an end tag. -/
  | withContents
  /-- The element is complete. -/
  | empty
  /-- The text ends in the tag. -/
  | unfinished
deriving DecidableEq

/-- A start tag. -/
structure StartTag where
  written : Written
  name : Name
  attributes : List Attribute
  /-- The namespaces that are declared in the element. -/
  scope : Scope

/-- Reads the end of a tag, if it comes next. -/
def readTagEnd : Reader (Option TagEnd) := fun s =>
  match s with
  | [] => .error (Cause.endOfText.before [])
  | c :: r =>
    if c = '/' then do
      let (_, rest) ← (Rest.tail c r).read (readSign '>')
      return (some .empty, rest)
    else if c = '>' then .ok (some .withContents, .tail c r)
    else .ok (none, .all (c :: r))

/-- Reads the end of a tag, or an attribute in front of which white space stands.  The tag is
unfinished if the text ends. -/
def tagStep (contents : TagContents) (s : List Char) :
    Except Fault (Step TagContents (TagContents × TagEnd) s) :=
  match s with
  | [] => .ok (.done (contents, .unfinished) (.all []))
  | c :: r =>
    if c.isWhitespace then do
      let (tagEnd, rest) ← (skipBlank r).read readTagEnd
      match tagEnd with
      | some tagEnd => return .done (contents, tagEnd) rest.past.rest
      | none =>
        let (raw, rest) ← rest.read readAttribute
        return .more (← contents.add raw) rest.past
    else do
      let (tagEnd, rest) ← readTagEnd (c :: r)
      match tagEnd with
      | some tagEnd => return .done (contents, tagEnd) rest
      | none => throw ((Cause.expectedSort "a whitespace" (firstByte c)).before (c :: r))

/-- Reads a start tag of which the opening sign has been read, where the given namespaces are
declared around it; there is none if the text ends in it. -/
def readStartTag (around : Scope) : Reader (Option (StartTag × TagEnd)) := fun s => do
  let (written, rest) ← readName s
  if written.qualifier = "xmlns" then throw (Cause.reservedQualifier.before s)
  let ((contents, tagEnd), rest) ← loop tagStep ⟨[], []⟩ rest
  if tagEnd = .unfinished then return (none, rest)
  let scope := contents.declared ++ around
  let attributes ← resolveAttributes scope [] contents.attributes.reverse
  let name ← resolveElement scope written s
  return (some (⟨written, name, attributes, scope⟩, tagEnd), rest)

/-- Reads an end tag of which `</` has been read. -/
def readEndTag : Reader Written := fun s => do
  let (written, rest) ← readName s
  let (_, rest) ← rest.pastBlank.read (readSign '>')
  return (written, rest)

end Crosswalk.Markup
