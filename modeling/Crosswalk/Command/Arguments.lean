import Crosswalk.Document.Format
import Crosswalk.Fields

/-!
# Arguments of commands

An option is given by its name after two hyphens or by its letter after one.  Its value is the next
word, or follows an equals sign, or follows the letter at once; a switch has no value.  After two
hyphens alone every word is an operand.  A value is looked at only when the next argument comes or
the line ends, so an argument that is unknown is reported before a bad value in front of it.
-/

namespace Crosswalk.Command

/-- Why a command line is not carried out. -/
inductive Refusal where
  /-- There is no argument at all. -/
  | nothingGiven
  | helpAsked
  | versionAsked
  | unknownCommand
  | unknownArgument
  | missingArgument
  /-- An option has no value, or a path is empty. -/
  | missingValue
  /-- A value is not of the kind that the option takes. -/
  | badValue
  /-- A switch is given a value. -/
  | unneededValue
  | repeatedArgument
deriving DecidableEq, Repr

/-- What an argument takes. -/
inductive Kind where
  /-- Nothing: the argument is there or it is not. -/
  | switch
  /-- Nothing: the argument asks for help. -/
  | help
  /-- Any text. -/
  | text
  /-- The path of a file. -/
  | path
  /-- The name of a format. -/
  | format
deriving DecidableEq, Repr

/-- Whether an argument takes a value. -/
def Kind.takesValue : Kind → Bool
  | switch => false
  | help => false
  | _ => true

/-- Accepts a value, or tells why it is none. -/
def Kind.check (value : String) : Kind → Except Refusal Unit
  | path => if value.isEmpty then .error .missingValue else .ok ()
  | format => if (Format.read? value).isNone then .error .badValue else .ok ()
  | _ => .ok ()

/-- An argument that a command takes. -/
structure Argument where
  name : String
  letter : Option Char
  kind : Kind
deriving DecidableEq, Repr

/-- The option that asks for help. -/
def helpOption : Argument := ⟨"help", some 'h', .help⟩

/-- The arguments of a command. -/
structure Grammar where
  options : List Argument
  operand : Option Argument
  /-- The names of the arguments that must be there. -/
  required : List String

/-- What has been read of a command line. -/
structure Progress where
  /-- The values of the arguments that are settled. -/
  taken : List (String × String)
  /-- The argument that came last, if it is not settled, with its value if that has come. -/
  unsettled : Option (Argument × Option String)
  operandTaken : Bool

namespace Progress

/-- The progress at the beginning. -/
def start : Progress := ⟨[], none, false⟩

/-- Takes a value for an argument. -/
def take (p : Progress) (a : Argument) (value : String) : Except Refusal Progress := do
  if (Fields.get? a.name p.taken).isSome then throw .repeatedArgument
  a.kind.check value
  return { p with taken := p.taken ++ [(a.name, value)], unsettled := none }

/-- Takes the value of the argument that is not settled. -/
def settle (p : Progress) : Except Refusal Progress :=
  match p.unsettled with
  | none => .ok p
  | some (_, none) => .error .missingValue
  | some (a, some value) => p.take a value

/-- Takes an option with the value that is attached to it, if there is one. -/
def option (p : Progress) (a : Argument) (attached : Option String) :
    Except Refusal Progress := do
  let p ← p.settle
  match a.kind, attached with
  | .help, _ => throw .helpAsked
  | .switch, _ => p.take a "true"
  | _, some value => p.take a value
  | _, none => return { p with unsettled := some (a, none) }

/-- Takes a word that is the value of the last option, or else an operand. -/
def operand (g : Grammar) (p : Progress) (word : String) : Except Refusal Progress :=
  match g.operand with
  | none => .error .unknownArgument
  | some a =>
    if p.operandTaken then .error .unknownArgument
    else do
      let p ← p.settle
      return { p with unsettled := some (a, some word), operandTaken := true }

/-- Takes options that are given by letters; what follows a letter whose option takes a value is
that value. -/
def letters (g : Grammar) (p : Progress) : List Char → Except Refusal Progress
  | [] => .ok p
  | c :: rest =>
    match g.options.find? (fun a => a.letter == some c) with
    | none => .error .unknownArgument
    | some a =>
      if a.kind.takesValue then
        p.option a
          (match rest with
           | [] => none
           | '=' :: value => some (String.ofList value)
           | value => some (String.ofList value))
      else do (← p.option a none).letters g rest

end Progress

/-- A word of a command line. -/
inductive Word where
  /-- The name of an option, perhaps with a value after an equals sign. -/
  | name (name : String) (value : Option String)
  /-- The letters of options. -/
  | letters (cs : List Char)
  /-- Two hyphens alone. -/
  | divider
  | plain (text : String)
deriving DecidableEq, Repr

/-- What a word of a command line is. -/
def Word.of (text : String) : Word :=
  match text.toList with
  | ['-', '-'] => .divider
  | '-' :: '-' :: rest =>
    .name (String.ofList (rest.takeWhile (· ≠ '=')))
      (match rest.dropWhile (· ≠ '=') with
       | [] => none
       | _ :: value => some (String.ofList value))
  | '-' :: c :: rest => .letters (c :: rest)
  | _ => .plain text

namespace Grammar

/-- Reads words that are all operands. -/
def readOperands (g : Grammar) (p : Progress) : List String → Except Refusal Progress
  | [] => p.settle
  | text :: rest => do g.readOperands (← p.operand g text) rest

/-- Reads the words of a command line. -/
def readWords (g : Grammar) (p : Progress) : List String → Except Refusal Progress
  | [] => p.settle
  | text :: rest =>
    match Word.of text with
    | .divider => g.readOperands p rest
    | .name name value =>
      match g.options.find? (fun a => a.name == name) with
      | none => .error .unknownArgument
      | some a =>
        if value.isSome && !a.kind.takesValue then .error .unneededValue
        else do g.readWords (← p.option a value) rest
    | .letters cs => do g.readWords (← p.letters g cs) rest
    | .plain word =>
      match p.unsettled with
      | some (a, none) => g.readWords { p with unsettled := some (a, some word) } rest
      | _ => do g.readWords (← p.operand g word) rest

/-- Reads the words after the name of a command; gives the values of its arguments. -/
def read (g : Grammar) (words : List String) : Except Refusal (List (String × String)) := do
  let p ← g.readWords .start words
  if g.required.all (fun name => (Fields.get? name p.taken).isSome) then return p.taken
  else throw .missingArgument

end Grammar

end Crosswalk.Command
