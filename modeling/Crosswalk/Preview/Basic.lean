import Crosswalk.Document.Reading
import Crosswalk.Mapping.Rule
import Crosswalk.Preview.Finding
import Crosswalk.Preview.Writing

/-!
# Carrying out a mapping

A preview carries out the rules on an input, one after the other, and shows the output as a JSON
value.  A direct rule whose path leads nowhere writes null.
-/

namespace Crosswalk.Preview

/-- An input of a mapping. -/
inductive Input where
  | markup (root : Markup.Element)
  | json (v : Json.Value)

/-- Reads an input in the given format. -/
def Input.read (format : Format) (text : String) : Except Document.Fault Input :=
  match format with
  | .xml => (Document.readMarkup text).map .markup
  | .json => (Document.readJson text).map .json

/-- The value in an input that a path leads to. -/
def Input.find? (input : Input) (path : String) : Option Json.Value :=
  match input with
  | .markup root => (findText? path root).map .string
  | .json v => findValue? path v

/-- The value that a source gives. -/
def valueOf (input : Input) : Source → Json.Value
  | .constant value => .string value
  | .direct path => (input.find? path).getD .null

/-- An output after the rules have been carried out on it. -/
def carryOut (input : Input) (rules : List Rule) (output : Json.Value) : Json.Value :=
  rules.foldl (fun output r => writeAt r.outputPath (valueOf input r.source) output) output

/-- The output of some rules for a document. -/
def preview (rules : List Rule) (format : Format) (text : String) :
    Except Document.Fault Json.Value := do
  let input ← Input.read format text
  return carryOut input rules (.object [])

end Crosswalk.Preview
