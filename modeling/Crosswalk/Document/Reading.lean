import Crosswalk.Document.Content
import Crosswalk.Document.Format
import Crosswalk.Json.Reader
import Crosswalk.Markup.Document

/-!
# Reading documents

A sample document is read as a JSON value, whatever its format: a JSON text is the value itself,
and a markup text is turned into one after the blanks around it are dropped.

* `read_json` : a JSON document is read as it stands.
-/

namespace Crosswalk.Document

/-- Why a text is not a document. -/
inductive Fault where
  | markup (error : Markup.Error)
  | json (error : Json.Error)
  | unknownFormat (given : String)

/-- The wording of a fault. -/
def Fault.message : Fault → String
  | .markup e => "XML parsing error: " ++ e.message
  | .json e => "JSON parsing error: " ++ e.message
  | .unknownFormat given =>
    "Unknown document format '" ++ given ++ "' (expected 'xml' or 'json')"

/-- The format that a text names. -/
def readFormat (text : String) : Except Fault Format :=
  match Format.read? text with
  | some format => .ok format
  | none => .error (.unknownFormat text)

/-- The outermost element of a markup document. -/
def readMarkup (text : String) : Except Fault Markup.Element :=
  (Markup.Element.read (Text.trim text)).mapError .markup

/-- The value of a JSON document. -/
def readJson (text : String) : Except Fault Json.Value :=
  (Json.Value.read text).mapError .json

/-- The value of a document. -/
def read (format : Format) (text : String) : Except Fault Json.Value :=
  match format with
  | .xml => (readMarkup text).map valueOfRoot
  | .json => readJson text

/-- A JSON document is read as it stands. -/
theorem read_json (text : String) :
    read .json text = (Json.Value.read text).mapError .json := rfl

theorem read_json_of_ok {text : String} {v : Json.Value} (h : Json.Value.read text = .ok v) :
    read .json text = .ok v := by
  rw [read_json, h]
  rfl

end Crosswalk.Document
