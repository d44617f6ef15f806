import Crosswalk.Json.Fault
import Crosswalk.Path.FieldPath

/-!
# Mapping rules

A rule says where the value of one output field comes from: from a field of the input, or from a
constant.  Both paths have to be field paths, and a constant may not be empty.
-/

namespace Crosswalk

/-- Where the value of an output field comes from. -/
inductive Source where
  /-- The value of the input field that a path leads to. -/
  | direct (path : String)
  /-- The same value for every input. -/
  | constant (value : String)
deriving DecidableEq, Repr

/-- What an output field is filled with. -/
structure Rule where
  id : String
  outputPath : String
  source : Source
deriving DecidableEq, Repr

namespace Source

/-- The name of the sort of a source. -/
def sort : Source → String
  | direct _ => "direct"
  | constant _ => "constant"

/-- The path of a direct source. -/
def path? : Source → Option String
  | direct path => some path
  | constant _ => none

/-- The value of a constant source. -/
def constant? : Source → Option String
  | direct _ => none
  | constant value => some value

end Source

/-- Why a list of rules is no mapping. -/
inductive Mapping.Fault where
  | outputPath (path : String) (cause : Path.Fault)
  | sourcePath (path : String) (cause : Path.Fault)
  | emptyConstant (id : String)
  | repeatedId (id : String)
  | unreadable (error : Json.Error)

/-- The wording of a fault. -/
def Mapping.Fault.message : Mapping.Fault → String
  | .outputPath path cause => "Invalid output path '" ++ path ++ "': " ++ cause.message
  | .sourcePath path cause => "Invalid source path '" ++ path ++ "': " ++ cause.message
  | .emptyConstant id => "Constant rule '" ++ id ++ "' has an empty value"
  | .repeatedId id => "Duplicate rule id '" ++ id ++ "'"
  | .unreadable e => "Invalid mapping file: " ++ e.message

namespace Rule

/-- A rule in one line. -/
def text (r : Rule) : String :=
  match r.source with
  | .direct path => r.outputPath ++ " <- " ++ path
  | .constant value => r.outputPath ++ " <- \"" ++ value ++ "\""

/-- Accepts a rule, or tells the first thing that is wrong with it. -/
def check (r : Rule) : Except Mapping.Fault Unit :=
  match FieldPath.read r.outputPath with
  | .error cause => .error (.outputPath r.outputPath cause)
  | .ok _ =>
    match r.source with
    | .direct path =>
      match FieldPath.read path with
      | .error cause => .error (.sourcePath path cause)
      | .ok _ => .ok ()
    | .constant value => if value.isEmpty then .error (.emptyConstant r.id) else .ok ()

end Rule

end Crosswalk
