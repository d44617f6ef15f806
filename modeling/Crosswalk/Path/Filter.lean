import Crosswalk.Text.Alphanumeric
import Crosswalk.Text.Blank
import Crosswalk.Text.Quoted

/-!
# Attribute filters

A filter `@name='value'` keeps the elements whose attribute `name` has exactly that value.  The name
is made of letters and numbers of any script, underscores, hyphens and colons; the value is not
empty and holds no single quote.  White space may stand around the equals sign and at both ends,
and one pair of square brackets around the whole is ignored.

* `readStart_text` : the written form of a filter, followed by anything, is read as that filter.
-/

namespace Crosswalk

/-- The demand that an attribute has a certain value. -/
structure Filter where
  name : String
  value : String
deriving DecidableEq, Repr

namespace Filter

/-- Why a text is not a filter.  Each cause carries what was still to be read. -/
inductive Fault where
  /-- One of the signs `@`, `=` and the two quotes is not where it has to be. -/
  | missingSign (rest : String)
  /-- There is no name after the sign `@`. -/
  | missingName (rest : String)
  /-- There is nothing between the quotes. -/
  | missingValue (rest : String)
  /-- Something follows the closing quote. -/
  | leftOver (rest : String)
deriving DecidableEq, Repr

/-- The wording for reading that stopped at `rest` in want of what `code` names. -/
def stoppedMessage (rest code : String) : String :=
  "Parsing Error: Error \x7b input: " ++ Text.quoted rest ++ ", code: " ++ code ++ " \x7d"

/-- The wording of a fault. -/
def Fault.message : Fault → String
  | .missingSign rest => stoppedMessage rest "Char"
  | .missingName rest => stoppedMessage rest "TakeWhile1"
  | .missingValue rest => stoppedMessage rest "IsNot"
  | .leftOver rest => "Parser did not consume all input. Remainder: '" ++ rest ++ "'"

/-- Whether a character may stand in the name of the attribute. -/
def isNameChar (c : Char) : Bool :=
  Text.isAlphanumeric c || c == '_' || c == '-' || c == ':'

/-- Whether a character may stand in the value. -/
def isValueChar (c : Char) : Bool :=
  c != '\''

/-- What follows a sign that has to come next. -/
def afterSign (sign : Char) : List Char → Except Fault (List Char)
  | [] => .error (.missingSign "")
  | c :: rest => if c = sign then .ok rest else .error (.missingSign (String.ofList (c :: rest)))

/-- A non-empty run of accepted characters, and what follows it. -/
def run (accepts : Char → Bool) (fault : String → Fault) (cs : List Char) :
    Except Fault (String × List Char) :=
  match cs.takeWhile accepts with
  | [] => .error (fault (String.ofList cs))
  | taken => .ok (String.ofList taken, cs.dropWhile accepts)

/-- Reads a filter at the start of a text; gives it with what follows it. -/
def readStart (body : List Char) : Except Fault (Filter × List Char) := do
  let marked ← afterSign '@' body
  let (name, named) ← run isNameChar .missingName marked
  let equated ← afterSign '=' (named.dropWhile Char.isWhitespace)
  let opened ← afterSign '\'' (equated.dropWhile Char.isWhitespace)
  let (value, valued) ← run isValueChar .missingValue opened
  let rest ← afterSign '\'' valued
  return (⟨name, value⟩, rest)

/-- A text without the square brackets around all of it, if it has such a pair. -/
def unwrap : List Char → List Char
  | '[' :: inner => if inner.getLast? = some ']' then inner.dropLast else '[' :: inner
  | cs => cs

/-- Reads a text as a filter and nothing else. -/
def read (text : String) : Except Fault Filter := do
  let (filter, rest) ← readStart (Text.trimChars (unwrap (Text.trimChars text.toList)))
  if rest.isEmpty then return filter else throw (.leftOver (String.ofList rest))

/-- The filter that a text spells, if it spells one. -/
def read? (text : String) : Option Filter :=
  (read text).toOption

/-- The written form of a filter. -/
def text (f : Filter) : String :=
  "@" ++ f.name ++ "='" ++ f.value ++ "'"

/-- The filters that can be spelled: the name is made of name characters, the value holds no
quote, and neither is empty. -/
structure Spellable (f : Filter) : Prop where
  name_ne : f.name.toList ≠ []
  name_chars : ∀ c ∈ f.name.toList, isNameChar c = true
  value_ne : f.value.toList ≠ []
  value_chars : ∀ c ∈ f.value.toList, isValueChar c = true

/-- A run of accepted characters is taken whole up to the first one that is refused. -/
theorem run_append {accepts : Char → Bool} (fault : String → Fault) {taken : List Char}
    (stop : Char) (rest : List Char) (hne : taken ≠ []) (h : ∀ c ∈ taken, accepts c = true)
    (hstop : accepts stop = false) :
    run accepts fault (taken ++ stop :: rest) = .ok (String.ofList taken, stop :: rest) := by
  have both : (taken ++ stop :: rest).takeWhile accepts = taken ∧
      (taken ++ stop :: rest).dropWhile accepts = stop :: rest := by
    clear hne
    induction taken with
    | nil => simp [hstop]
    | cons c taken ih =>
      have hc := h c (by simp)
      have := ih (fun d hd => h d (by simp [hd]))
      simp [hc, this.1, this.2]
  cases taken with
  | nil => exact absurd rfl hne
  | cons c taken => rw [run, both.1, both.2]

/-- The written form of a filter, followed by anything, is read as that filter. -/
theorem readStart_text {f : Filter} (h : f.Spellable) (rest : List Char) :
    readStart (f.text.toList ++ rest) = .ok (f, rest) := by
  have hname := run_append .missingName '=' ('\'' :: (f.value.toList ++ '\'' :: rest))
    h.name_ne h.name_chars (by decide +kernel)
  have hvalue := run_append .missingValue '\'' rest h.value_ne h.value_chars (by decide)
  have hshape : f.text.toList ++ rest =
      '@' :: (f.name.toList ++ '=' :: '\'' :: (f.value.toList ++ '\'' :: rest)) := by
    simp [text, String.toList_append]
  rw [hshape]
  simp [readStart, afterSign, hname, hvalue, bind, Except.bind, pure, Except.pure,
    String.ofList_toList]

end Filter

end Crosswalk
