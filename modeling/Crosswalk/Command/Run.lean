import Crosswalk.Command.Basic
import Crosswalk.Command.Folder
import Crosswalk.Preview.Basic
import Crosswalk.Schema.Infer
import Crosswalk.Schema.Form
import Crosswalk.Schema.Listing
import Crosswalk.Session.State

/-!
# Carrying out commands

A command reads the files that it needs and gives one artifact, which is shown or written to a
file.  It fails before anything is shown or written, or not at all.

* `runIn_of_fault` : a command that fails shows nothing and changes no file.
-/

namespace Crosswalk.Command

open Session (Fault)

/-- What becomes of an artifact. -/
inductive Delivery where
  | shown (text : String)
  | written (path text : String)
deriving DecidableEq, Repr

/-- An artifact with the notices about it. -/
structure Product where
  delivery : Delivery
  notices : List Stylesheet.Notice

/-- How files are read: gives the text of a file or tells the obstacle. -/
abbrev Reading : Type := String → Except String String

/-- The text of a file. -/
def readFile (reading : Reading) (path : String) : Except Fault String :=
  match reading path with
  | .ok text => .ok text
  | .error obstacle => .error (.file ("Failed to read '" ++ path ++ "': " ++ obstacle))

/-- The rules of the mapping in a file. -/
def readMapping (reading : Reading) (path : String) : Except Fault Mapping := do
  (Mapping.read (← readFile reading path)).mapError .mapping

/-- The format of a document: the one that was given, or the one that its name tells. -/
def formatOf (path : String) (given : Option Format) : Except Fault Format :=
  match given.or (FileName.format? path) with
  | some format => .ok format
  | none => .error (.missingFormat .input)

/-- A text that goes to a file, or is shown if none is given. -/
def deliver (target : Option String) (text : String) : Delivery :=
  match target with
  | some path => .written path text
  | none => .shown text

/-- The text of the schema of a document. -/
def schemaText (reading : Reading) (file : String) (format : Option Format) (asJson : Bool) :
    Except Fault String := do
  let format ← formatOf file format
  let v ← (Document.read format (← readFile reading file)).mapError .document
  let nodes := Schema.infer v
  return if asJson then (Schema.toJson nodes).indented ++ "\n" else Schema.listing 0 nodes

/-- The settings for a stylesheet that is made by a command. -/
def stylesheetConfig (notes : String) (copiesInput : Bool) (namespaceUri : Option String) :
    Session.Config :=
  { Session.Config.default with
    notes := notes
    copiesInput := copiesInput
    namespaceUri := namespaceUri.getD Session.Config.default.namespaceUri }

/-- The text of the output of a mapping for a document. -/
def previewText (reading : Reading) (file : String) (format : Option Format) (mapping : String) :
    Except Fault String := do
  let format ← formatOf file format
  let m ← readMapping reading mapping
  let text ← readFile reading file
  let output ← (Preview.preview m.rules format text).mapError .document
  return output.indented ++ "\n"

/-- What a command gives. -/
def run (reading : Reading) : Command → Except Fault Product
  | .schema file format asJson => do
    return ⟨.shown (← schemaText reading file format asJson), []⟩
  | .script input output mapping notes target => do
    let m ← readMapping reading mapping
    return ⟨deliver target (Script.text ⟨input, output, notes, m.rules⟩), []⟩
  | .stylesheet mapping notes copiesInput namespaceUri target => do
    let m ← readMapping reading mapping
    let s := (stylesheetConfig notes copiesInput namespaceUri).stylesheet m.rules
    let target := target.map (FileName.withExtension Stylesheet.fileExtension)
    return ⟨deliver target s.text, s.notices⟩
  | .preview file format mapping => do
    return ⟨.shown (← previewText reading file format mapping), []⟩

/-- The files that a command reads. -/
def reads : Command → List String
  | .schema file _ _ => [file]
  | .script _ _ mapping _ _ => [mapping]
  | .stylesheet mapping _ _ _ _ => [mapping]
  | .preview file _ mapping => [mapping, file]

/-! ### In a folder -/

/-- What a command has led to. -/
structure Outcome where
  shown : String
  folder : Folder
  notices : List Stylesheet.Notice
  fault : Option Fault

/-- How the files of a folder are read. -/
def readingOf (folder : Folder) : Reading := fun path =>
  (folder.read path).mapError Folder.Obstacle.message

/-- Carries out a command in a folder. -/
def runIn (folder : Folder) (c : Command) : Outcome :=
  match c.run (readingOf folder) with
  | .error fault => ⟨"", folder, [], some fault⟩
  | .ok ⟨.shown text, notices⟩ => ⟨text, folder, notices, none⟩
  | .ok ⟨.written path text, notices⟩ =>
    match folder.write path text with
    | .ok after => ⟨"", after, notices, none⟩
    | .error obstacle => ⟨"", folder, notices, some (.file obstacle.message)⟩

/-- A command that fails shows nothing and changes no file. -/
theorem runIn_of_fault {folder : Folder} {c : Command} (h : (c.runIn folder).fault.isSome) :
    (c.runIn folder).shown = "" ∧ (c.runIn folder).folder = folder := by
  unfold runIn at h ⊢
  split
  · exact ⟨rfl, rfl⟩
  · simp_all
  · split <;> simp_all

end Crosswalk.Command
