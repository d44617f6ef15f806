import Crosswalk.Text.Blank

/-!
# Formats of documents

A document is written in XML or in JSON.  The name of a format is read without regard to the case
of its letters and to blanks around it.  The extension of a file also tells its format.
-/

namespace Crosswalk

/-- A format of documents. -/
inductive Format where
  | xml
  | json
deriving DecidableEq, Repr

namespace Format

/-- The name of a format. -/
def name : Format → String
  | xml => "xml"
  | json => "json"

/-- The formats by their names. -/
def choices : List (String × Format) :=
  [("xml", .xml), ("json", .json)]

/-- A text with its ASCII letters in lower case. -/
def lowerCase (s : String) : String :=
  String.ofList (s.toList.map Char.toLower)

/-- The format that a text names. -/
def read? (text : String) : Option Format :=
  match lowerCase (Text.trim text) with
  | "xml" => some xml
  | "json" => some json
  | _ => none

/-- The format of files with the given extension. -/
def ofExtension? (extension : String) : Option Format :=
  match lowerCase extension with
  | "xml" | "xsd" | "xsl" | "xslt" => some xml
  | "json" => some json
  | _ => none

end Format

end Crosswalk
