import Crosswalk.Json.Fault

/-!
# Data in JSON values

A value that has been read is taken as data of a certain form: a string, a flag, one of some
choices, or the entry of a field.  A fault in the form has no place then.
-/

namespace Crosswalk.Json

variable {α : Type}

/-- A value that has to be a string. -/
def stringOf (v : Value) : Except DataFault String :=
  match v with
  | .string s => .ok s
  | v => .error (.wrongType v.found "a string")

/-- A value that has to be true or false. -/
def flagOf (v : Value) : Except DataFault Bool :=
  match v with
  | .bool b => .ok b
  | v => .error (.wrongType v.found "a boolean")

/-- The choice that a word stands for. -/
def choose (choices : List (String × α)) (word : String) : Except DataFault α :=
  match Fields.get? word choices with
  | some a => .ok a
  | none => .error (.unknownChoice word (choices.map Prod.fst))

/-- A value that has to be one of some words, or an object whose only field is named by one of
them and has the entry null. -/
def choiceOf (choices : List (String × α)) (v : Value) : Except DataFault α :=
  match v with
  | .string word => choose choices word
  | .object [(word, entry)] =>
    match choose choices word, entry with
    | .error fault, _ => .error fault
    | .ok a, .null => .ok a
    | .ok _, entry => .error (.wrongType entry.found "unit")
  | .object _ => .error .notOneField
  | v => .error (.wrongType v.found "string or map")

/-- An entry that has to be there. -/
def required (name : String) (entry : Option α) : Except DataFault α :=
  match entry with
  | some a => .ok a
  | none => .error (.missingField name)

/-- The entry of a field that must not come twice, as the given function takes it. -/
def single (name : String) (take : Value → Except DataFault α) :
    Option α → List (String × Value) → Except DataFault α
  | none, [] => .error (.missingField name)
  | some a, [] => .ok a
  | found, (n, v) :: rest =>
    if n = name then
      match found with
      | some _ => .error (.duplicateField name)
      | none =>
        match take v with
        | .error fault => .error fault
        | .ok a => single name take (some a) rest
    else single name take found rest

end Crosswalk.Json
