import Crosswalk.Mapping.Basic
import Crosswalk.Schema.Infer
import Crosswalk.Script.Basic
import Crosswalk.Session.Config
import Crosswalk.Session.Fault
import Crosswalk.Stylesheet.Text

/-!
# The state of a session

A session has its settings, the schemas of a sample on each side, the mapping made so far, what was
generated from it last, and perhaps an input field that waits for an output field.  Every operation
gives a new state, or a fault and no state.

* `load_isOk` : loading a sample forgets the mapping and what was generated.
-/

namespace Crosswalk.Session

/-- Whether an input field waits for an output field. -/
inductive Selection where
  | idle
  /-- The input field that a path leads to is the source of the next rule. -/
  | pending (path : String)
deriving DecidableEq, Repr

/-- The path of the input field that waits. -/
def Selection.path? : Selection → Option String
  | idle => none
  | pending path => some path

/-- The texts that were generated last. -/
structure Generated where
  script : Option String
  stylesheet : Option String
deriving DecidableEq, Repr

/-- The state of a session. -/
structure State where
  config : Config
  inputSchema : List Schema.Node
  outputSchema : List Schema.Node
  mapping : Mapping
  generated : Generated
  selection : Selection

namespace State

/-- The state at the beginning. -/
def start (config : Config) : State :=
  ⟨config, [], [], .empty, ⟨none, none⟩, .idle⟩

/-- The schema on a side. -/
def schema (s : State) : Side → List Schema.Node
  | .input => s.inputSchema
  | .output => s.outputSchema

/-- The format on a side. -/
def format (s : State) : Side → Format
  | .input => s.config.inputFormat
  | .output => s.config.outputFormat

/-! ### Changing the settings -/

/-- A state in which the next sample on a side is of the given format. -/
def setFormat (s : State) (side : Side) (format : Format) : State :=
  match side with
  | .input => { s with config := { s.config with inputFormat := format } }
  | .output => { s with config := { s.config with outputFormat := format } }

/-- A state with other notes. -/
def setNotes (s : State) (notes : String) : State :=
  { s with config := { s.config with notes := notes } }

/-- A state in which stylesheets copy their input, or do not. -/
def setCopiesInput (s : State) (copies : Bool) : State :=
  { s with config := { s.config with copiesInput := copies } }

/-- A state with another selection. -/
def select (s : State) (selection : Selection) : State :=
  { s with selection := selection }

/-- A state with another mapping. -/
def setMapping (s : State) (mapping : Mapping) : State :=
  { s with mapping := mapping }

/-- A state without the rule that has an identifier. -/
def deleteRule (s : State) (id : String) : State :=
  s.setMapping (s.mapping.remove id)

/-! ### Loading samples -/

/-- A state with the schema of a new sample on a side.  The mapping and what was generated are
forgotten; a new input also ends the selection. -/
def load (s : State) (side : Side) (text : String) : Except Fault State :=
  match Document.read (s.format side) text with
  | .error cause => .error (.document cause)
  | .ok v =>
    let fresh := { s with mapping := .empty, generated := ⟨none, none⟩ }
    match side with
    | .input => .ok { fresh with inputSchema := Schema.infer v, selection := .idle }
    | .output => .ok { fresh with outputSchema := Schema.infer v }

/-! ### Generating -/

/-- Whether a script can be made: there is a rule, and not both sides are XML. -/
def canScript (s : State) : Bool :=
  !s.mapping.isEmpty
    && !(s.config.inputFormat == .xml && s.config.outputFormat == .xml)

/-- Whether a stylesheet can be made: there is a rule, and both sides are XML. -/
def canStylesheet (s : State) : Bool :=
  !s.mapping.isEmpty && s.config.inputFormat == .xml && s.config.outputFormat == .xml

/-- The script for the mapping of a state. -/
def script (s : State) : Script :=
  ⟨s.config.inputFormat, s.config.outputFormat, s.config.notes, s.mapping.rules⟩

/-- The stylesheet for the mapping of a state. -/
def stylesheet (s : State) : Stylesheet :=
  s.config.stylesheet s.mapping.rules

/-- The fault of an artifact that cannot be made. -/
def unavailable (s : State) (artifact : Artifact) : Fault :=
  .unavailable artifact s.config.inputFormat s.config.outputFormat s.mapping.size

/-- A state in which the script has been generated. -/
def generateScript (s : State) : Except Fault State :=
  if s.canScript then
    .ok { s with generated := { s.generated with script := some s.script.text } }
  else .error (s.unavailable .script)

/-- A state in which the stylesheet has been generated. -/
def generateStylesheet (s : State) : Except Fault State :=
  if s.canStylesheet then
    .ok { s with generated := { s.generated with stylesheet := some s.stylesheet.text } }
  else .error (s.unavailable .stylesheet)

/-- Loading a sample forgets the mapping and what was generated. -/
theorem load_isOk {s t : State} {side : Side} {text : String} (h : s.load side text = .ok t) :
    t.mapping = .empty ∧ t.generated = ⟨none, none⟩ := by
  unfold load at h
  split at h
  · simp at h
  · cases side <;> simp only [Except.ok.injEq] at h <;> subst h <;> exact ⟨rfl, rfl⟩

end State

end Crosswalk.Session
