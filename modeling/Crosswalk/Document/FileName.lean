import Crosswalk.Document.Format

/-!
# Names of files

The steps of a file's path are separated by slashes; empty steps and single dots go nowhere.  The
last step names the file, unless it leads up.  The extension of a name is what follows its last
dot, unless that dot is its first character.
-/

namespace Crosswalk.FileName

/-- A text cut at every slash, empty parts included. -/
def parts : List Char → List (List Char)
  | [] => [[]]
  | c :: rest =>
    if c = '/' then [] :: parts rest
    else
      match parts rest with
      | [] => [[c]]
      | part :: more => (c :: part) :: more

/-- The steps of a path, without those that go nowhere. -/
def steps (path : String) : List String :=
  ((parts path.toList).filter (fun p => p ≠ [] ∧ p ≠ ['.'])).map String.ofList

/-- The name of the file that a path leads to. -/
def last? (path : String) : Option String :=
  match (steps path).getLast? with
  | some ".." => none
  | name => name

/-- What stands before the last dot and what follows it, if the dot is not the first character. -/
def divideAtDot? (name : String) : Option (String × String) :=
  let backward := name.toList.reverse
  match backward.dropWhile (· ≠ '.') with
  | [] => none
  | [_] => none
  | _ :: before =>
    some (String.ofList before.reverse, String.ofList (backward.takeWhile (· ≠ '.')).reverse)

/-- The extension of the file that a path leads to. -/
def extension? (path : String) : Option String :=
  ((last? path).bind divideAtDot?).map Prod.snd

/-- The format that the extension of a file tells. -/
def format? (path : String) : Option Format :=
  (extension? path).bind Format.ofExtension?

/-- A path with an extension added to the name of its file, if the path leads to a file and the
name has no extension.  Steps after the name that go nowhere are dropped. -/
def withExtension (extension path : String) : String :=
  match last? path, extension? path with
  | some _, none =>
    let kept := dropIdle path.toList.reverse
    String.ofList (kept.reverse ++ '.' :: extension.toList)
  | _, _ => path
where
  /-- A path, last character first, without the idle steps at its end. -/
  dropIdle : List Char → List Char
    | '/' :: rest => dropIdle rest
    | '.' :: '/' :: rest => dropIdle ('/' :: rest)
    | cs => cs

end Crosswalk.FileName
