import Crosswalk.Document.Reading
import Crosswalk.Mapping.Rule

/-!
# What can go wrong in a session

A session fails over a sample document, over a rule, over a file, or because it is asked for
something that its state does not allow.
-/

namespace Crosswalk

/-- One of the two documents of a mapping. -/
inductive Side where
  | input
  | output
deriving DecidableEq, Repr

/-- The name of a side. -/
def Side.name : Side → String
  | input => "input"
  | output => "output"

namespace Session

/-- Something that can be generated. -/
inductive Artifact where
  | script
  | stylesheet
deriving DecidableEq, Repr

/-- The name of an artifact in messages. -/
def Artifact.name : Artifact → String
  | script => "script"
  | stylesheet => "XSLT"

/-- Why an operation failed. -/
inductive Fault where
  | document (cause : Document.Fault)
  | mapping (cause : Mapping.Fault)
  /-- A file could not be read or written. -/
  | file (text : String)
  /-- The artifact is not made for these formats, or there is no rule. -/
  | unavailable (artifact : Artifact) (input output : Format) (rules : Nat)
  | unknownNode (side : Side) (path : String)
  | missingFormat (side : Side)

/-- The wording of a fault. -/
def Fault.message : Fault → String
  | document cause => "Failed to parse sample document: " ++ cause.message
  | mapping cause => "Invalid mapping: " ++ cause.message
  | file text => "I/O error: " ++ text
  | unavailable artifact input output rules =>
    artifact.name ++ " generation is not available for " ++ input.name ++ " -> " ++ output.name
      ++ " with " ++ toString rules ++ " mapping(s)"
  | unknownNode side path => "No " ++ side.name ++ " schema node at path '" ++ path ++ "'"
  | missingFormat side => "No " ++ side.name ++ " document format has been selected"

end Session

end Crosswalk
