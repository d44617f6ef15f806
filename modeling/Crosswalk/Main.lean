import Crosswalk.Command.Run

/-!
# The program

The words of the command line are read as a command, the files that it needs are read, and what it
gives is shown or written.  Everything else is decided before any output.
-/

namespace Crosswalk.Program

/-- How the program is used. -/
def usage : String :=
  String.intercalate "\n"
    ["Maps documents onto each other.",
     "",
     "  schema FILE [-f FORMAT] [--json]",
     "  script --input-format FORMAT --output-format FORMAT -m FILE [--notes TEXT] [-o FILE]",
     "  xslt -m FILE [--notes TEXT] [--copy-input-structure] [--namespace URI] [-o FILE]",
     "  preview FILE -m FILE [--input-format FORMAT]",
     "  help",
     ""]

/-- The version of the program. -/
def version : String := "0.1.0"

/-- What is said about a line that is not carried out. -/
def refusalText : Command.Refusal → String
  | .nothingGiven => usage
  | .helpAsked => usage
  | .versionAsked => version ++ "\n"
  | .unknownCommand => "There is no such command.\n"
  | .unknownArgument => "There is no such argument.\n"
  | .missingArgument => "An argument is missing.\n"
  | .missingValue => "The value of an argument is missing.\n"
  | .badValue => "A format is either xml or json.\n"
  | .unneededValue => "A switch takes no value.\n"
  | .repeatedArgument => "An argument is given twice.\n"

/-- Whether a line that is not carried out asked for just that. -/
def isAnswer : Command.Refusal → Bool
  | .helpAsked => true
  | .versionAsked => true
  | _ => false

/-- The wording of an obstacle that the system reports. -/
def obstacleText : IO.Error → String
  | .noFileOrDirectory _ _ _ => Folder.Obstacle.missing.message
  | e => toString e

/-- The text of a file, or the obstacle to reading it. -/
def readText (path : String) : IO (Except String String) := do
  try
    match String.fromUTF8? (← IO.FS.readBinFile path) with
    | some text => return .ok text
    | none => return .error Folder.Obstacle.noText.message
  catch e => return .error (obstacleText e)

/-- The files that a command reads. -/
def readAll (c : Command) : IO Command.Reading := do
  let texts ← c.reads.mapM fun path => do return (path, ← readText path)
  return fun path => (Fields.get? path texts).getD (.error Folder.Obstacle.missing.message)

/-- Reports a fault. -/
def fail (fault : Session.Fault) : IO UInt32 := do
  IO.eprintln ("Error: " ++ fault.message)
  return 1

/-- Shows or writes what a command gives. -/
def deliver (product : Command.Product) : IO UInt32 := do
  for notice in product.notices do
    IO.eprintln notice.message
  match product.delivery with
  | .shown text =>
    IO.print text
    return 0
  | .written path text =>
    try
      IO.FS.writeFile path text
      return 0
    catch e => fail (.file (obstacleText e))

/-- Carries out a command. -/
def perform (c : Command) : IO UInt32 := do
  match c.run (← readAll c) with
  | .error fault => fail fault
  | .ok product => deliver product

end Crosswalk.Program

/-- Carries out the command that the words of the command line spell. -/
def main (words : List String) : IO UInt32 := do
  match Crosswalk.Command.read words with
  | .ok c => Crosswalk.Program.perform c
  | .error refusal =>
    if Crosswalk.Program.isAnswer refusal then
      IO.print (Crosswalk.Program.refusalText refusal)
      return 0
    else
      IO.eprint (Crosswalk.Program.refusalText refusal)
      return 2
