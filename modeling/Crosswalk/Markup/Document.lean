import Crosswalk.Markup.Tag

/-!
# Reading a document

A document is an optional declaration, any number of comments and processing instructions, one
element, and again comments and instructions.  Inside the element, text and sections of plain text
that touch each other are one run.  While reading, the elements that are open are kept with the
children found so far, the innermost element in front.
-/

namespace Crosswalk.Markup

open Text

/-! ### Comments, instructions and the declaration -/

/-- Reads data up to a word that ends it, and the word. -/
def readUntil (word : List Char) : Reader (List Char) := fun s => do
  let data := (divideBefore word s).1
  let rest := fromFirst word s
  checkChars data rest.text
  let (_, rest) ← rest.read (readWord word)
  return (data, rest)

/-- Whether two hyphens stand side by side in a text, or one at its end. -/
def hasLooseHyphen : List Char → Bool
  | [] => false
  | ['-'] => true
  | '-' :: '-' :: _ => true
  | _ :: r => hasLooseHyphen r

/-- Reads a comment, with which the text `here` begins; `<!--` has been read. -/
def readComment (here : List Char) : Reader Unit := fun s => do
  let (data, rest) ← readUntil ['-', '-', '>'] s
  if hasLooseHyphen data then throw (Cause.commentHyphens.before here)
  return ((), rest)

/-- Reads a processing instruction of which `<?` has been read. -/
def readInstruction : Reader Unit := fun s => do
  if ['x', 'm', 'l', ' '].isPrefixOf s then throw (Cause.strayDeclaration.before ('<' :: '?' :: s))
  if !beginsName s then throw (Cause.invalidName.before s)
  let (_, rest) ← (skip isNameChar s).pastBlank.read (readUntil ['?', '>'])
  return ((), rest)

/-- Reads a comment or a processing instruction and the blanks in front of it, or the blanks
alone if neither comes next. -/
def asideStep (_ : Unit) (s : List Char) : Except Fault (Step Unit Unit s) :=
  match skipBlank s with
  | ⟨'<' :: r, hr⟩ =>
    if let some t := afterWord? ['!', '-', '-'] r then do
      let (_, rest) ← t.read (readComment ('<' :: r))
      return .more () ((Left.mk r hr).andThen rest)
    else if let some t := afterWord? ['?'] r then do
      let (_, rest) ← t.read readInstruction
      return .more () ((Left.mk r hr).andThen rest)
    else .ok (.done () ⟨'<' :: r, hr⟩)
  | t => .ok (.done () t)

/-- Reads the comments and processing instructions that come next, and the blanks around them. -/
def readAsides : Reader Unit := fun s =>
  loop asideStep () (.all s)

/-- Reads the white space that has to stand between the parts of a declaration, unless its end or
that of the text comes next. -/
def readGap : Reader Unit := fun s =>
  match s with
  | [] => .ok ((), .all [])
  | c :: r =>
    if c.isWhitespace then .ok ((), skipBlank (c :: r))
    else if ['?', '>'].isPrefixOf (c :: r) then .ok ((), .all (c :: r))
    else .error ((Cause.expectedSort "a whitespace" (firstByte c)).before (c :: r))

/-- Reads an attribute of a declaration, if its word comes next.  The characters of its value are
looked at before its end is, other than in a tag. -/
def readDeclared (word : String) : Reader Unit := fun s =>
  if word.toList.isPrefixOf s then do
    let ((_, quote), opened) ← readOpening s
    let (_, rest) ← opened.read (readQuoted quote)
    return ((), rest)
  else readNothing s

/-- Reads an attribute of a declaration and a gap after it, if its word comes next. -/
def readDeclaredWithGap (word : String) : Reader Unit := fun s =>
  if word.toList.isPrefixOf s then do
    let (_, rest) ← readDeclared word s
    rest.read readGap
  else readNothing s

/-- Reads a declaration of which `<?xml` has been read. -/
def readDeclaration : Reader Unit := fun s => do
  let (_, rest) ← readGap s
  let _ ← rest.read (readWord "version".toList)
  let (_, rest) ← rest.read (readDeclaredWithGap "version")
  let (_, rest) ← rest.read (readDeclaredWithGap "encoding")
  let (_, rest) ← rest.read (readDeclared "standalone")
  rest.pastBlank.read (readWord ['?', '>'])

/-! ### Elements -/

/-- An element that is open. -/
structure Open where
  tag : StartTag
  /-- The children found so far, the last one first. -/
  children : List Node

namespace Open

/-- The element, closed after the children found so far. -/
def closed (o : Open) : Node :=
  .element o.tag.name o.tag.attributes o.children.reverse

/-- The element with one more child. -/
def add (o : Open) (child : Node) : Open :=
  { o with children := child :: o.children }

/-- The element with more text, which becomes part of the run that it touches. -/
def addText (o : Open) (text : List Char) : Open :=
  match o.children with
  | .text run :: before => { o with children := .text (run ++ String.ofList text) :: before }
  | _ => o.add (.text (String.ofList text))

end Open

/-- The elements that are open: the innermost one, and those around it from the inside out. -/
structure OpenElements where
  inner : Open
  outer : List Open

/-- The elements, with one more child of the innermost one. -/
def OpenElements.add (elements : OpenElements) (child : Node) : OpenElements :=
  { elements with inner := elements.inner.add child }

/-- The elements, with more text in the innermost one. -/
def OpenElements.addText (elements : OpenElements) (text : List Char) : OpenElements :=
  { elements with inner := elements.inner.addText text }

/-- The elements, with one more that is now the innermost one. -/
def OpenElements.enter (elements : OpenElements) (tag : StartTag) : OpenElements :=
  ⟨⟨tag, []⟩, elements.inner :: elements.outer⟩

/-- The step that the end of the innermost element leads to: reading ends if it is the outermost
one too. -/
def OpenElements.closeStep {s : List Char} (elements : OpenElements) (left : Left s) :
    Step OpenElements Node s :=
  match elements.outer with
  | [] => .done elements.inner.closed left.rest
  | parent :: outer => .more ⟨parent.add elements.inner.closed, outer⟩ left

/-- Reads the end tag of an element of which the name is known; `</` has been read. -/
def readClosing (expected : Written) : Reader Unit := fun s => do
  let (written, rest) ← readEndTag s
  if written = expected then return ((), rest)
  else throw ((Cause.wrongEndTag expected.text written.text).before ('<' :: '/' :: s))

/-- Reads a run of text of which the first character has been read, up to the next tag. -/
def readRun (first : Char) : Reader (List Char) := fun s => do
  let data := first :: s.takeWhile (· != '<')
  let rest := skip (· != '<') s
  checkChars data rest.text
  if (divideBefore [']', ']', '>'] data).2.isEmpty then
    return (← runOf rest.text data, rest)
  else throw (Cause.strayDataEnd.before rest.text)

/-- Reads the next part of the contents of the innermost element. -/
def partStep (elements : OpenElements) (s : List Char) :
    Except Fault (Step OpenElements Node s) :=
  match s with
  | [] => .error (Cause.unclosedRoot.before [])
  | c :: r =>
    if c ≠ '<' then do
      let (run, rest) ← readRun c r
      return .more (elements.addText run) rest.past
    else if let some t := afterWord? ['!', '-', '-'] r then do
      let (_, rest) ← t.read (readComment (c :: r))
      return .more (elements.add .aside) rest.past
    else if let some t := afterWord? "![CDATA[".toList r then do
      let (data, rest) ← t.read (readUntil [']', ']', '>'])
      return .more (elements.addText (sectionText data)) rest.past
    else if let some t := afterWord? ['?'] r then do
      let (_, rest) ← t.read readInstruction
      return .more (elements.add .aside) rest.past
    else if let some t := afterWord? ['/'] r then do
      let (_, rest) ← t.read (readClosing elements.inner.tag.written)
      return elements.closeStep rest.past
    else if r.isEmpty || ['!'].isPrefixOf r then .error (Cause.unknownToken.before (c :: r))
    else do
      let (opened, rest) ← readStartTag elements.inner.tag.scope r
      match opened with
      | none => throw (Cause.unclosedRoot.before [])
      | some (tag, .empty) => return .more (elements.add (Open.closed ⟨tag, []⟩)) rest.past
      | some (tag, _) => return .more (elements.enter tag) rest.past

/-- Reads the outermost element, if one comes next. -/
def readRoot : Reader (Option Node) := fun s =>
  match s with
  | [] => .ok (none, .all [])
  | c :: r =>
    if c = '<' then do
      let (opened, rest) ← (Rest.tail c r).read (readStartTag [])
      match opened with
      | none => return (none, rest)
      | some (tag, .empty) => return (some (Open.closed ⟨tag, []⟩), rest)
      | some (tag, _) =>
        let (root, rest) ← loop partStep ⟨⟨tag, []⟩, []⟩ rest
        return (some root, rest)
    else .ok (none, .all (c :: r))

/-- Reads the declaration of a document, if it has one; a mark of the byte order may stand in front
of it. -/
def readBeginning : Reader Unit := fun s =>
  let start := (afterWord? ['\ufeff'] s).getD (.all s)
  if let some t := afterWord? ['<', '?', 'x', 'm', 'l'] start.text then
    if t.text.head? = some ' ' then (start.andThen t).read readDeclaration else .ok ((), start)
  else .ok ((), start)

/-- Reads a document and gives its outermost element. -/
def readDocument (text : List Char) : Except Fault Element := do
  let (_, rest) ← readBeginning text
  let (_, rest) ← rest.read readAsides
  let rest := rest.pastBlank
  if "<!DOCTYPE".toList.isPrefixOf rest.text then throw (Cause.typeDefinition.before rest.text)
  let (root, rest) ← rest.read readRoot
  let (_, rest) ← rest.read readAsides
  if !rest.text.isEmpty then throw (Cause.unknownToken.before rest.text)
  match root.bind Node.element? with
  | some e => return e
  | none => throw (Cause.noRoot.before rest.text)

/-- Reads a text as a document and gives its outermost element. -/
def Element.read (text : String) : Except Error Element :=
  match readDocument text.toList with
  | .ok e => .ok e
  | .error fault => .error (fault.inText text.toList)

end Crosswalk.Markup
