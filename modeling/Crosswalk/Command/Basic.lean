import Crosswalk.Command.Arguments

/-!
# Commands

There are four commands: to show the schema of a document, to make a script or a stylesheet from a
mapping, and to carry out a mapping on a document.
-/

namespace Crosswalk

/-- Something that is done on the command line. -/
inductive Command where
  /-- Shows the schema of a document, as a listing or as JSON. -/
  | schema (file : String) (format : Option Format) (asJson : Bool)
  /-- Makes a script, which is written to a file or shown. -/
  | script (input output : Format) (mapping notes : String) (target : Option String)
  /-- Makes a stylesheet, which is written to a file or shown. -/
  | stylesheet (mapping notes : String) (copiesInput : Bool) (namespaceUri : Option String)
      (target : Option String)
  /-- Carries out a mapping on a document and shows the output. -/
  | preview (file : String) (format : Option Format) (mapping : String)
deriving DecidableEq, Repr

namespace Command

/-- The option for the file with the mapping. -/
def mappingOption : Argument := ⟨"mappings", some 'm', .path⟩

/-- The option for the notes. -/
def notesOption : Argument := ⟨"notes", none, .text⟩

/-- The option for the file that is written. -/
def targetOption : Argument := ⟨"output", some 'o', .path⟩

/-- The arguments for showing a schema. -/
def schemaGrammar : Grammar where
  options := [⟨"format", some 'f', .format⟩, ⟨"json", none, .switch⟩, helpOption]
  operand := some ⟨"file", none, .path⟩
  required := ["file"]

/-- The arguments for making a script. -/
def scriptGrammar : Grammar where
  options :=
    [⟨"input-format", none, .format⟩, ⟨"output-format", none, .format⟩, mappingOption,
     notesOption, targetOption, helpOption]
  operand := none
  required := ["input-format", "output-format", "mappings"]

/-- The arguments for making a stylesheet. -/
def stylesheetGrammar : Grammar where
  options :=
    [mappingOption, notesOption, ⟨"copy-input-structure", none, .switch⟩,
     ⟨"namespace", none, .text⟩, targetOption, helpOption]
  operand := none
  required := ["mappings"]

/-- The arguments for carrying out a mapping. -/
def previewGrammar : Grammar where
  options := [⟨"input-format", none, .format⟩, mappingOption, helpOption]
  operand := some ⟨"input", none, .path⟩
  required := ["input", "mappings"]

/-- The values of the arguments that were given. -/
abbrev Values : Type := List (String × String)

/-- The value of an argument that is there. -/
def Values.text (values : Values) (name : String) : Except Refusal String :=
  match Fields.get? name values with
  | some value => .ok value
  | none => .error .missingArgument

/-- The format that an argument names, if it was given. -/
def Values.format? (values : Values) (name : String) : Option Format :=
  (Fields.get? name values).bind Format.read?

/-- The format that an argument names. -/
def Values.format (values : Values) (name : String) : Except Refusal Format :=
  match Values.format? values name with
  | some format => .ok format
  | none => .error .missingArgument

/-- Whether a switch was given. -/
def Values.has (values : Values) (name : String) : Bool :=
  (Fields.get? name values).isSome

/-- Reads the words after `schema`. -/
def readSchema (words : List String) : Except Refusal Command := do
  let values ← schemaGrammar.read words
  return .schema (← Values.text values "file") (Values.format? values "format")
    (Values.has values "json")

/-- Reads the words after `script`. -/
def readScript (words : List String) : Except Refusal Command := do
  let values ← scriptGrammar.read words
  return .script (← Values.format values "input-format") (← Values.format values "output-format")
    (← Values.text values "mappings") ((Fields.get? "notes" values).getD "")
    (Fields.get? "output" values)

/-- Reads the words after `xslt`. -/
def readStylesheet (words : List String) : Except Refusal Command := do
  let values ← stylesheetGrammar.read words
  return .stylesheet (← Values.text values "mappings") ((Fields.get? "notes" values).getD "")
    (Values.has values "copy-input-structure") (Fields.get? "namespace" values)
    (Fields.get? "output" values)

/-- Reads the words after `preview`. -/
def readPreview (words : List String) : Except Refusal Command := do
  let values ← previewGrammar.read words
  return .preview (← Values.text values "input") (Values.format? values "input-format")
    (← Values.text values "mappings")

/-- The names of the commands. -/
def names : List String :=
  ["schema", "script", "xslt", "preview", "help"]

/-- What the words after `help` lead to: help on a command that there is, and on nothing below
it. -/
def helpFor : List String → Refusal
  | [] => .helpAsked
  | [name] => if names.contains name then .helpAsked else .unknownCommand
  | _ => .unknownCommand

/-- What a line leads to that does not begin with the name of a command. -/
def withoutName (first : String) (rest : List String) : Refusal :=
  match Word.of first, rest with
  | .name "help" none, _ => .helpAsked
  | .name "version" none, _ => .versionAsked
  | .name "help" (some _), _ => .unneededValue
  | .name "version" (some _), _ => .unneededValue
  | .name _ _, _ => .unknownArgument
  | .letters ('h' :: _), _ => .helpAsked
  | .letters ('V' :: _), _ => .versionAsked
  | .letters _, _ => .unknownArgument
  | .divider, [] => .nothingGiven
  | .divider, word :: _ => if names.contains word then .unknownArgument else .unknownCommand
  | .plain _, _ => .unknownCommand

/-- Reads the words of a command line. -/
def read : List String → Except Refusal Command
  | [] => .error .nothingGiven
  | "schema" :: words => readSchema words
  | "script" :: words => readScript words
  | "xslt" :: words => readStylesheet words
  | "preview" :: words => readPreview words
  | "help" :: words => .error (helpFor words)
  | first :: rest => .error (withoutName first rest)

end Command

end Crosswalk
