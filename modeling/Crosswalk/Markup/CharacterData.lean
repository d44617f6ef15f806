import Crosswalk.Markup.Fault
import Crosswalk.Text.Digit
import Crosswalk.Text.Rest

/-!
# Character data

A run of text or the value of an attribute is written with references: `&lt;` and its four sisters,
and characters by number.  In text a carriage return, with or without the line feed after it, is a
line feed; in a value every tab and line end is a space.  A character that is written by number
stands for itself, and so does the character right after it in a run of text; but a carriage return
that was written by number and has come to stand before another character is a line end like any
other.
-/

namespace Crosswalk.Markup

open Text

/-- What a reference refers to. -/
inductive Reference where
  | char (c : Char)
  | entity (name : String)
deriving DecidableEq, Repr

/-- The character with a number.  A number of 32 bits that no character has stands for the
replacement character. -/
def numbered? (digits : List Char) (base : Nat) : Option Char :=
  let n := digits.foldl (fun n c => n * base + (hexDigit? c).getD 0) 0
  if digits.isEmpty ∨ 4294967296 ≤ n then none
  else
    let c := if n.isValidChar then Char.ofNat n else '\ufffd'
    if isMarkupChar c then some c else none

/-- The character that a name refers to in every document. -/
def predefined? (name : String) : Option Char :=
  if name = "quot" then some '"'
  else if name = "amp" then some '&'
  else if name = "apos" then some '\''
  else if name = "lt" then some '<'
  else if name = "gt" then some '>'
  else none

/-- Reads the semicolon at the end of a reference. -/
def endReference {s : List Char} (t : Rest s) (reference : Option Reference) :
    Option (Reference × Rest s) :=
  match t with
  | ⟨';' :: r, hr⟩ => reference.map fun reference => (reference, (Left.mk r hr).rest)
  | _ => none

/-- What a name refers to. -/
def Reference.named (name : String) : Reference :=
  match predefined? name with
  | some c => .char c
  | none => .entity name

/-- Reads a reference of which the ampersand has been read; none if it is malformed. -/
def readReference (s : List Char) : Option (Reference × Rest s) :=
  match s with
  | '#' :: 'x' :: r =>
    let isHex (c : Char) : Bool := (hexDigit? c).isSome
    endReference (skip isHex r).past.rest.past.rest
      ((numbered? (r.takeWhile isHex) 16).map .char)
  | '#' :: r =>
    endReference (skip Char.isDigit r).past.rest
      ((numbered? (r.takeWhile Char.isDigit) 10).map .char)
  | c :: r =>
    if isNameStart c then
      endReference (skip isNameChar r).past.rest
        (some (.named (String.ofList (c :: r.takeWhile isNameChar))))
    else none
  | [] => none

/-- A way to read something from the front of a text. -/
abbrev Reader (α : Type) : Type := Text.Reader Fault α

/-- Reads a reference as a character; the ampersand has been read, and `after` follows the data that
the reference stands in. -/
def readReferenced (after : List Char) : Reader Char := fun s =>
  match readReference s with
  | some (.char c, rest) => .ok (c, rest)
  | some (.entity name, _) => .error ((Cause.unknownReference name).before ('&' :: s ++ after))
  | none => .error (Cause.malformedReference.before ('&' :: s ++ after))

/-! ### Values of attributes -/

/-- Adds what comes next to a value of which the last character stands first. -/
def valueStep (after : List Char) (before : List Char) (s : List Char) :
    Except Fault (Step (List Char) (List Char) s) :=
  match s with
  | [] => .ok (.done before.reverse (.all []))
  | c :: r =>
    if c = '&' then do
      let (c, rest) ← readReferenced after r
      return .more (c :: before) rest.past
    else if c = '\r' ∧ r.head? = some '\n' then .ok (.more before (Rest.all r).past)
    else
      let shown := if c = '\t' ∨ c = '\n' ∨ c = '\r' then ' ' else c
      .ok (.more (shown :: before) (Rest.all r).past)

/-- The value that is written between quotes, which `after` follows. -/
def valueOf (after : List Char) (s : List Char) : Except Fault (List Char) :=
  (loop (valueStep after) [] (.all s)).map Prod.fst

/-! ### Runs of text -/

/-- Adds a character to a run of text, of which the last character stands first. -/
def addToRun (run : List Char) (c : Char) (isLast : Bool) : List Char :=
  match run with
  | '\r' :: before =>
    if isLast ∧ c = '\r' then '\n' :: '\n' :: before
    else if c = '\n' then '\n' :: before
    else c :: '\n' :: before
  | run => if isLast ∧ c = '\r' then '\n' :: run else c :: run

/-- A run of text that is being read. -/
structure Run where
  /-- The characters so far, the last one first. -/
  before : List Char
  /-- Whether a reference stands right in front of what comes next. -/
  isExact : Bool

/-- Adds what comes next to a run of text, which `after` follows. -/
def runStep (after : List Char) (run : Run) (s : List Char) :
    Except Fault (Step Run (List Char) s) :=
  match s with
  | [] => .ok (.done run.before.reverse (.all []))
  | c :: r =>
    if c = '&' then do
      let (c, rest) ← readReferenced after r
      return .more ⟨c :: run.before, true⟩ rest.past
    else
      let before := if run.isExact then c :: run.before else addToRun run.before c r.isEmpty
      .ok (.more ⟨before, false⟩ (Rest.all r).past)

/-- The run of text that is written, which `after` follows. -/
def runOf (after : List Char) (s : List Char) : Except Fault (List Char) :=
  (loop (runStep after) ⟨[], false⟩ (.all s)).map Prod.fst

/-- The text of a section in which nothing is a reference. -/
def sectionText (s : List Char) : List Char :=
  go [] s
where
  /-- Adds the rest of the section to a run of which the last character stands first. -/
  go (run : List Char) : List Char → List Char
    | [] => run.reverse
    | c :: r => go (addToRun run c r.isEmpty) r

/-! ### Characters that may stand in markup -/

/-- Refuses data with a character that may not stand in markup; `after` follows the data. -/
def checkChars (data after : List Char) : Except Fault Unit :=
  match data.dropWhile isMarkupChar with
  | [] => .ok ()
  | c :: r => .error ((Cause.noMarkupChar c).before (c :: r ++ after))

end Crosswalk.Markup
