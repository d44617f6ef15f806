import Crosswalk.Document.Format
import Crosswalk.Json.Text
import Crosswalk.Mapping.Rule
import Crosswalk.Script.Prelude
import Crosswalk.Text.Blank

/-!
# Scripts that carry out a mapping

A script reads the variable `input_var_1`, carries out the rules one after the other and leaves
the output, as JSON, in the variable `output_var_1`.  Paths and constants stand in it as JSON
strings, which the language of the script reads alike.  Notes become a literal text at its front,
in which backslashes and closing quotes are escaped.
-/

namespace Crosswalk

/-- What a script is made from. -/
structure Script where
  input : Format
  output : Format
  notes : String
  rules : List Rule

namespace Script

/-- Notes as they stand between triple quotes: every backslash is doubled, and every three quotes
in a row are escaped. -/
def protectNotes : List Char → List Char
  | [] => []
  | '\\' :: rest => '\\' :: '\\' :: protectNotes rest
  | '"' :: '"' :: '"' :: rest => '\\' :: '"' :: '\\' :: '"' :: '\\' :: '"' :: protectNotes rest
  | c :: rest => c :: protectNotes rest

/-- The literal text that holds the notes; nothing if the notes are blank. -/
def notesBlock (notes : String) : String :=
  if Text.isBlankText notes then ""
  else
    "\"\"\"\nMapping Notes:\n" ++ String.ofList (protectNotes notes.toList) ++ "\n\"\"\"\n\n"

/-- The modules that the script needs. -/
def imports (input output : Format) : String :=
  if input = .xml ∨ output = .xml then
    lines ["import xml.etree.ElementTree as ET", "import json"]
  else "import json"

/-- The function that reads the input. -/
def inputReader : Format → String
  | .xml =>
    lines ["def parse_input(input_var_1):", "    root = ET.fromstring(input_var_1.strip())",
      "    return root"]
  | .json => lines ["def parse_input(input_var_1):", "    return json.loads(input_var_1)"]

/-- The expression that gives the value of a rule. -/
def valueOf : Source → String
  | .direct path => "get_value(data, " ++ Json.literal path ++ ")"
  | .constant value => Json.literal value

/-- The line that carries out a rule. -/
def assignment (r : Rule) : String :=
  "    set_nested_value(output, " ++ Json.literal r.outputPath ++ ", " ++ valueOf r.source ++ ")"

/-- The function that carries out the rules. -/
def transform (rules : List Rule) : String :=
  "def transform(data):\n    output = \x7b\x7d\n\n"
    ++ (if rules.isEmpty then "" else lines (rules.map assignment) ++ "\n\n")
    ++ "    return json.dumps(output, indent=2)"

/-- The statements that run the script. -/
def entryPoint : String :=
  lines ["# Execute transformation", "data = parse_input(input_var_1)",
    "output_var_1 = transform(data)", ""]

/-- The text of a script. -/
def text (s : Script) : String :=
  notesBlock s.notes
    ++ sections
      ([imports s.input s.output, inputReader s.input] ++ functions
        ++ [transform s.rules, entryPoint])

end Script

end Crosswalk
