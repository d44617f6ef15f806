import Crosswalk.Document.FileName
import Crosswalk.Fields

/-!
# Folders

A folder holds files under their steps; what stands above a file is a folder too.  No file outside
the folder can be reached.  A file whose content is no text cannot be read, and reading and writing
fail where a folder, or nothing, stands where a file is needed.  A name that ends in a slash is that
of a folder: it cannot be written to, and a file cannot be read by it.
-/

namespace Crosswalk

/-- What a file holds. -/
inductive Content where
  | text (text : String)
  /-- Bytes that are no text. -/
  | bytes
deriving DecidableEq, Repr

/-- The files of a folder and of the folders in it, each with the steps that lead to it. -/
structure Folder where
  files : List (List String × Content)
deriving DecidableEq, Repr

namespace Folder

/-- Why a file cannot be read or written. -/
inductive Obstacle where
  | missing
  | isFolder
  | isNoFolder
  | tooLong
  /-- A path holds the character with the number zero. -/
  | zero
  | noText
deriving DecidableEq, Repr

/-- The wording of an obstacle. -/
def Obstacle.message : Obstacle → String
  | missing => "No such file or directory (os error 2)"
  | isFolder => "Is a directory (os error 21)"
  | isNoFolder => "Not a directory (os error 20)"
  | tooLong => "File name too long (os error 36)"
  | zero => "file name contained an unexpected NUL byte"
  | noText => "stream did not contain valid UTF-8"

/-- What a path leads to. -/
inductive Target where
  | folder
  | file (steps : List String) (content : Content)
  /-- No file yet; the folder that it would stand in is there. -/
  | free (steps : List String)
  /-- A name that ends in a slash, as that of a folder does, where no folder is; reading meets the
  obstacle. -/
  | slashed (obstacle : Obstacle)
  | obstacle (obstacle : Obstacle)
deriving DecidableEq, Repr

/-- The most bytes that a name has. -/
def longestName : Nat := 255

/-- The most bytes that a path has. -/
def longestPath : Nat := 4095

/-- Whether some steps lead to a folder. -/
def hasFolder (f : Folder) (steps : List String) : Bool :=
  steps.isEmpty
    || f.files.any fun (name, _) => steps.isPrefixOf name && steps.length < name.length

/-- What a path leads to when it has left the folder: a step up stays on a folder, and nothing that
has a name can be reached. -/
def outside (rest : List String) : Target :=
  if rest.all fun part => part = "" ∨ part = "." ∨ part = ".." then .folder
  else .obstacle .missing

/-- What the rest of a path leads to from the folder at the given steps. -/
def follow (f : Folder) (here : List String) : List String → Target
  | [] => .folder
  | part :: rest =>
    if part = "" ∨ part = "." then f.follow here rest
    else if part = ".." then
      if here.isEmpty then outside rest else f.follow here.dropLast rest
    else
      let next := here ++ [part]
      if f.hasFolder next then f.follow next rest
      else
        match Fields.get? next f.files with
        | some content =>
          if rest.isEmpty then .file next content
          else if rest.all String.isEmpty then .slashed .isNoFolder
          else .obstacle .isNoFolder
        | none =>
          let absence := if part.utf8ByteSize ≤ longestName then Obstacle.missing else .tooLong
          if rest.isEmpty then (if absence = .missing then .free next else .obstacle absence)
          else if rest.all String.isEmpty then .slashed absence
          else .obstacle absence

/-- What a path leads to. -/
def target (f : Folder) (path : String) : Target :=
  let parts := (FileName.parts path.toList).map String.ofList
  if path.toList.contains '\x00' then .obstacle .zero
  else if longestPath < path.utf8ByteSize then .obstacle .tooLong
  else if path.toList.head? = some '/' then outside parts
  else f.follow [] parts

/-- The text of the file that a path leads to. -/
def read (f : Folder) (path : String) : Except Obstacle String :=
  match f.target path with
  | .file _ (.text text) => .ok text
  | .file _ .bytes => .error .noText
  | .free _ => .error .missing
  | .folder => .error .isFolder
  | .slashed o => .error o
  | .obstacle o => .error o

/-- A folder in which a text has been written to the file that a path leads to; a name that ends
in a slash cannot be that of a file. -/
def write (f : Folder) (path text : String) : Except Obstacle Folder :=
  match f.target path with
  | .file steps _ => .ok ⟨Fields.put steps (.text text) f.files⟩
  | .free steps => .ok ⟨Fields.put steps (.text text) f.files⟩
  | .folder => .error .isFolder
  | .slashed _ => .error .isFolder
  | .obstacle o => .error o

/-- The files of a folder that are not in another one, or not with the same content. -/
def changes (before after : Folder) : List (List String × Content) :=
  after.files.filter fun (name, content) => Fields.get? name before.files ≠ some content

end Folder

end Crosswalk
