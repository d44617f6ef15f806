import Crosswalk.Document.Format
import Crosswalk.Json.Forms
import Crosswalk.Stylesheet.Basic

/-!
# Settings of a session

The settings are the formats on both sides, the notes, and what a stylesheet needs besides.  They
are read from an object or from an array of their entries in order; whatever is missing has its
default.
-/

namespace Crosswalk.Session

/-- The settings of a session. -/
structure Config where
  inputFormat : Format
  outputFormat : Format
  /-- Remarks that are written into what is generated. -/
  notes : String
  /-- Whether a stylesheet copies its input. -/
  copiesInput : Bool
  namespaceUri : String
  qualifier : String
deriving DecidableEq, Repr

namespace Config

/-- The settings where nothing else is said. -/
def default : Config :=
  ⟨.xml, .json, "", false, Stylesheet.defaultNamespace, Stylesheet.defaultQualifier⟩

instance : Inhabited Config := ⟨default⟩

/-- The stylesheet for some rules. -/
def stylesheet (c : Config) (rules : List Rule) : Stylesheet :=
  ⟨c.notes, c.copiesInput, c.namespaceUri, c.qualifier, rules⟩

/-- The settings as a JSON value. -/
def toJson (c : Config) : Json.Value :=
  .object
    [("inputFormat", .string c.inputFormat.name), ("outputFormat", .string c.outputFormat.name),
     ("notes", .string c.notes), ("copyInputStructure", .bool c.copiesInput),
     ("namespaceUri", .string c.namespaceUri), ("namespacePrefix", .string c.qualifier)]

/-- Settings of which the entries are still to come. -/
structure Draft where
  inputFormat : Option Format
  outputFormat : Option Format
  notes : Option String
  copiesInput : Option Bool
  namespaceUri : Option String
  qualifier : Option String

/-- The draft with no entry. -/
def Draft.blank : Draft := ⟨none, none, none, none, none, none⟩

/-- The settings that a draft gives. -/
def Draft.finish (d : Draft) : Config where
  inputFormat := d.inputFormat.getD default.inputFormat
  outputFormat := d.outputFormat.getD default.outputFormat
  notes := d.notes.getD default.notes
  copiesInput := d.copiesInput.getD default.copiesInput
  namespaceUri := d.namespaceUri.getD default.namespaceUri
  qualifier := d.qualifier.getD default.qualifier

/-! ### Reading from a text -/

/-- How settings are read whose entries may open `depth` arrays and objects. -/
def record (depth : Nat) : Json.Record Draft Config where
  title := "struct MapperConfig"
  fields :=
    [.of "inputFormat" false (Json.readChoice depth Format.choices) Draft.inputFormat
       (fun d f => { d with inputFormat := some f }),
     .of "outputFormat" false (Json.readChoice depth Format.choices) Draft.outputFormat
       (fun d f => { d with outputFormat := some f }),
     .of "notes" false Json.readText Draft.notes (fun d s => { d with notes := some s }),
     .of "copyInputStructure" false Json.readFlag Draft.copiesInput
       (fun d b => { d with copiesInput := some b }),
     .of "namespaceUri" false Json.readText Draft.namespaceUri
       (fun d s => { d with namespaceUri := some s }),
     .of "namespacePrefix" false Json.readText Draft.qualifier
       (fun d s => { d with qualifier := some s })]
  blank := Draft.blank
  finish d := .ok d.finish

/-- Reads a text as settings. -/
def read (text : String) : Except Json.Error Config :=
  Json.readWhole ((record (Json.maxDepth - 1)).read Json.maxDepth) text

/-! ### Reading from a value -/

/-- A draft with the entry of one field, told by the place of the field. -/
def Draft.set (d : Draft) (place : Nat) (v : Json.Value) : Except Json.DataFault Draft := do
  match place with
  | 0 => return { d with inputFormat := some (← Json.choiceOf Format.choices v) }
  | 1 => return { d with outputFormat := some (← Json.choiceOf Format.choices v) }
  | 2 => return { d with notes := some (← Json.stringOf v) }
  | 3 => return { d with copiesInput := some (← Json.flagOf v) }
  | 4 => return { d with namespaceUri := some (← Json.stringOf v) }
  | 5 => return { d with qualifier := some (← Json.stringOf v) }
  | _ => return d

/-- The names of the fields in order. -/
def fieldNames : List String :=
  ["inputFormat", "outputFormat", "notes", "copyInputStructure", "namespaceUri",
   "namespacePrefix"]

/-- A draft with the entries of some named fields; fields of other names are passed over. -/
def Draft.setNamed (d : Draft) : List (String × Json.Value) → Except Json.DataFault Draft
  | [] => .ok d
  | (name, v) :: rest => do
    match fieldNames.idxOf? name with
    | some place => (← d.set place v).setNamed rest
    | none => d.setNamed rest

/-- A draft with the entries of the fields from a place on. -/
def Draft.setFrom (d : Draft) (place : Nat) : List Json.Value → Except Json.DataFault Draft
  | [] => .ok d
  | v :: rest => do (← d.set place v).setFrom (place + 1) rest

/-- The settings that a value spells. -/
def ofValue (v : Json.Value) : Except Json.DataFault Config :=
  match v with
  | .object fields => do return (← Draft.blank.setNamed fields).finish
  | .array items => do
    let d ← Draft.blank.setFrom 0 items
    if items.length > fieldNames.length then
      throw (.wrongLength items.length "fewer elements in array")
    return d.finish
  | v => .error (.wrongType v.found "struct MapperConfig")

end Config

end Crosswalk.Session
