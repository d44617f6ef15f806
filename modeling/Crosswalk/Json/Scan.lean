import Crosswalk.Json.Fault
import Crosswalk.Text.Digit
import Crosswalk.Text.Rest

/-!
# The smallest parts of JSON text

White space, words, strings and numbers, read from the front of a text.  A reader gives what it
has read and what is left.

A number with a point or an exponent, or one of more than 64 bits, becomes a floating-point number
by a rule of its own.  Its digits are gathered into 64 bits; whole digits that no longer fit are
dropped and raise the exponent, fraction digits that no longer fit are dropped.  The gathered
number is then multiplied or divided once by a power of ten, after as many divisions by `10^308`
as an exponent below -308 needs.  The result can differ from the nearest number in its last bits.
-/

namespace Crosswalk.Json

open Text

/-- A way to read something from the front of a text. -/
abbrev Reader (α : Type) : Type := Text.Reader Fault α

/-- Reads a word of which the first letter has been read. -/
def readWord : (word : List Char) → (s : List Char) → Except Fault (Rest s)
  | [], s => .ok (.all s)
  | _ :: _, [] => .error (.before .endInValue [])
  | w :: word, c :: s =>
    if c = w then do
      let rest ← readWord word s
      return rest.past.rest
    else .error (.at_ .expectedWord (c :: s))

/-! ### Strings -/

/-- Reads four hexadecimal digits.  Four bytes are taken even if they are not such digits. -/
def readHexQuad : Reader Nat := fun s =>
  if byteCount (s.take 4) < 4 then .error (.before .endInString [])
  else
    match (s.take 4).mapM hexDigit? with
    | some [a, b, c, d] => .ok (((a * 16 + b) * 16 + c) * 16 + d, .drop 4 s)
    | _ => .error ⟨.grammar .invalidEscape, byteCount s - 4⟩

/-- Reads the second half of a character beyond `U+FFFF` whose first half is `high`. -/
def readSecondHalf (high : Nat) : Reader Char := fun s =>
  match s with
  | [] => .error (.before .endInString [])
  | '\\' :: [] => .error (.before .endInString [])
  | '\\' :: 'u' :: r => do
    let (low, rest) ← readHexQuad r
    if 0xDC00 ≤ low ∧ low ≤ 0xDFFF then
      return (Char.ofNat (0x10000 + (high - 0xD800) * 0x400 + (low - 0xDC00)),
        rest.past.rest.past.rest)
    else throw (.before .loneSurrogate rest.text)
  | '\\' :: c :: r => .error (.at_ .unfinishedPair (c :: r))
  | c :: r => .error (.at_ .unfinishedPair (c :: r))

/-- The character that a letter after a backslash stands for. -/
def escaped? (c : Char) : Option Char :=
  if c = '"' ∨ c = '\\' ∨ c = '/' then some c
  else if c = 'b' then some '\x08'
  else if c = 'f' then some '\x0c'
  else if c = 'n' then some '\n'
  else if c = 'r' then some '\r'
  else if c = 't' then some '\t'
  else none

/-- Reads what follows the backslash of an escape. -/
def readEscape : Reader Char := fun s =>
  match s with
  | [] => .error (.before .endInString [])
  | 'u' :: r => do
    let (n, rest) ← readHexQuad r
    if 0xDC00 ≤ n ∧ n ≤ 0xDFFF then throw (.before .loneSurrogate rest.text)
    else if 0xD800 ≤ n ∧ n ≤ 0xDBFF then
      let (c, more) ← readSecondHalf n rest.text
      return (c, (rest.andThen more).past.rest)
    else return (Char.ofNat n, rest.past.rest)
  | c :: r =>
    match escaped? c with
    | some d => .ok (d, .tail c r)
    | none => .error (.at_ .invalidEscape (c :: r))

/-- Whether a character stands for itself in a string. -/
def isPlain (c : Char) : Bool :=
  c != '"' && c != '\\' && decide (0x20 ≤ c.toNat)

/-- Reads characters of a string up to an escape or the closing quote.  The characters before them
are given last one first. -/
def stringStep (before : List Char) (s : List Char) :
    Except Fault (Step (List Char) (List Char) s) :=
  let passed := (s.takeWhile isPlain).reverse ++ before
  match skip isPlain s with
  | ⟨[], _⟩ => .error (.before .endInString [])
  | ⟨'"' :: r, hr⟩ => .ok (.done passed.reverse (Left.mk r hr).rest)
  | ⟨'\\' :: r, hr⟩ => do
    let (c, rest) ← readEscape r
    return .more (c :: passed) ((Left.mk r hr).andThen rest)
  | ⟨c :: r, _⟩ => .error (.at_ .controlCharacter (c :: r))

/-- Reads a string of which the opening quote has been read. -/
def readString : Reader (List Char) := fun s =>
  loop stringStep [] (.all s)

/-! ### Numbers -/

/-- Digits that have been gathered into 64 bits. -/
structure Gathered where
  number : Nat
  /-- How many digits were dropped because the number would have grown beyond 64 bits. -/
  dropped : Nat
  /-- How many digits were gathered. -/
  taken : Nat

/-- How many numbers 64 bits can tell apart. -/
def wordCount : Nat := 18446744073709551616

/-- One more digit, which is dropped if it does not fit or if one was dropped before. -/
def Gathered.add (g : Gathered) (digit : Char) : Gathered :=
  let next := g.number * 10 + (digit.toNat - '0'.toNat)
  if g.dropped = 0 ∧ next < wordCount then ⟨next, 0, g.taken + 1⟩
  else { g with dropped := g.dropped + 1 }

/-- The digits at the front of a text, gathered after a number. -/
def gather (number : Nat) (s : List Char) : Gathered :=
  (s.takeWhile Char.isDigit).foldl Gathered.add ⟨number, 0, 0⟩

/-- Divides by `10^308` until the exponent is no less than -308, then multiplies or divides by the
power of ten that is left.  There is no result when the number grows too large. -/
def scale (x : Float) (exponent : Int) : Option Float :=
  if exponent < -308 then
    if x == 0.0 then some x
    else scale (x / Float.ofScientific 1 false 308) (exponent + 308)
  else if exponent < 0 then some (x / Float.ofScientific 1 false exponent.natAbs)
  else if exponent ≤ 308 then
    let y := x * Float.ofScientific 1 false exponent.natAbs
    if y.isInf then none else some y
  else if x == 0.0 then some x
  else none
termination_by exponent.natAbs

/-- A float with the sign that was read. -/
def signed (negative : Bool) (x : Float) : Number :=
  .float (if negative then -x else x)

/-- The number `significand * 10^exponent`; it is at fault in front of what is left. -/
def scaled (negative : Bool) (significand : Nat) (exponent : Int) (left : List Char) :
    Except Fault Number :=
  match scale (Float.ofScientific significand false 0) exponent with
  | some x => .ok (signed negative x)
  | none => .error (.before .numberOutOfRange left)

/-- The exponent that digits spell, beginning with `value`, and what follows them.  When it grows
beyond 31 bits, there is none, and what follows is what stands after the digit that did it. -/
def gatherExponent (value : Nat) : (s : List Char) → Option Nat × Rest s
  | [] => (some value, .all [])
  | c :: r =>
    if c.isDigit then
      let next := value * 10 + (c.toNat - '0'.toNat)
      if next < 2147483648 then
        match gatherExponent next r with
        | (exponent, rest) => (exponent, rest.past.rest)
      else (none, (Rest.all r).past.rest)
    else (some value, .all (c :: r))

/-- Reads the digits of an exponent and gives the number. -/
def readExponentDigits (negative : Bool) (significand : Nat) (shift : Int) (down : Bool) :
    Reader Number := fun s =>
  match s with
  | [] => .error (.before .endInValue [])
  | c :: r =>
    if c.isDigit then
      match gatherExponent (c.toNat - '0'.toNat) r with
      | (some e, rest) => do
        let n ← scaled negative significand (if down then shift - e else shift + e) rest.text
        return (n, rest.past.rest)
      | (none, rest) =>
        if significand ≠ 0 ∧ !down then .error (.before .numberOutOfRange rest.text)
        else .ok (signed negative 0.0, (rest.andThen (skip Char.isDigit rest.text)).past.rest)
    else .error (.at_ .invalidNumber (c :: r))

/-- Reads an exponent of which the mark has been read, and gives the number. -/
def readExponent (negative : Bool) (significand : Nat) (shift : Int) : Reader Number := fun s =>
  match s with
  | '+' :: r => (Rest.tail '+' r).read (readExponentDigits negative significand shift false)
  | '-' :: r => (Rest.tail '-' r).read (readExponentDigits negative significand shift true)
  | s => readExponentDigits negative significand shift false s

/-- Whether a character is the mark of an exponent. -/
def isExponentMark (c : Char) : Bool :=
  c == 'e' || c == 'E'

/-- Reads a fraction of which the point has been read, with an exponent if there is one, and gives
the number. -/
def readFraction (negative : Bool) (whole : Nat) (shift : Int) : Reader Number := fun s =>
  if s.isEmpty then .error (.before .endInValue s)
  else if !(s.head?.any Char.isDigit) then .error (.at_ .invalidNumber s)
  else
    let g := gather whole s
    let exponent := shift - g.taken
    let plain (rest : Rest s) : Except Fault (Number × Rest s) := do
      return (← scaled negative g.number exponent rest.text, rest)
    match skip Char.isDigit s with
    | ⟨c :: r, hr⟩ =>
      if isExponentMark c then (Left.mk r hr).rest.read (readExponent negative g.number exponent)
      else plain ⟨c :: r, hr⟩
    | ⟨[], hr⟩ => plain ⟨[], hr⟩

/-- The number that whole digits spell with neither point nor exponent after them. -/
def wholeNumber (negative : Bool) (n : Nat) : Number :=
  if !negative then .integer n
  else if n = 0 ∨ 9223372036854775808 < n then signed true (Float.ofScientific n false 0)
  else .integer (-n)

/-- The number that whole digits spell, of which `dropped` were too many for 64 bits, with nothing
of a number after them. -/
def endWhole (negative : Bool) (whole dropped : Nat) : Reader Number := fun s =>
  if dropped = 0 then .ok (wholeNumber negative whole, .all s)
  else do return (← scaled negative whole dropped s, .all s)

/-- Reads what follows whole digits, of which `dropped` were too many for 64 bits, and gives the
number. -/
def readAfterWhole (negative : Bool) (whole dropped : Nat) : Reader Number := fun s =>
  match s with
  | [] => endWhole negative whole dropped []
  | c :: r =>
    if c = '.' then (Rest.tail c r).read (readFraction negative whole dropped)
    else if isExponentMark c then (Rest.tail c r).read (readExponent negative whole dropped)
    else endWhole negative whole dropped (c :: r)

/-- Reads a number of which the sign, if there was one, has been read. -/
def readUnsigned (negative : Bool) : Reader Number := fun s =>
  match s with
  | [] => .error (.before .endInValue [])
  | c :: r =>
    if c = '0' ∧ (r.head?.any Char.isDigit) then .error (.at_ .invalidNumber r)
    else if c.isDigit then
      let g := gather 0 (c :: r)
      (skip Char.isDigit (c :: r)).read (readAfterWhole negative g.number g.dropped)
    else .error (.at_ .invalidNumber (c :: r))

end Crosswalk.Json
