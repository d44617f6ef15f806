import Crosswalk.Json.Forms
import Crosswalk.Mapping.Rule

/-!
# Rules as JSON

A rule is an object with its identifier, its output path, the sort of its source and, under a name
that depends on the sort, the source path or the constant.  The sort may also be told by its place
in the list of sorts.  While a rule is read, the entries of all but the first two fields are kept
until the object is complete, so a fault in one of them has its place at the end of the object.

* `ofEntries_entries` : the source of a rule is read from what is written for it.
-/

namespace Crosswalk

namespace Source

/-- What is written for a source. -/
def entries : Source → List (String × Json.Value)
  | direct path => [("ruleType", .string "direct"), ("sourcePath", .string path)]
  | constant value => [("ruleType", .string "constant"), ("constantValue", .string value)]

/-- How a sort of sources is written: the name of the field that has the path or value, and the
source that it gives. -/
structure Form where
  payload : String
  build : String → Source

/-- The sorts by their names. -/
def sorts : List (String × Form) :=
  [("direct", ⟨"sourcePath", direct⟩), ("constant", ⟨"constantValue", constant⟩)]

/-- The sort that a value tells, by its name or by its place in the list of sorts. -/
def sortOf (v : Json.Value) : Except Json.DataFault Form :=
  match v with
  | .string word => Json.choose sorts word
  | .number (.integer (.ofNat n)) =>
    match sorts[n]? with
    | some (_, sort) => .ok sort
    | none => .error (.choiceOutOfRange n sorts.length)
  | v => .error (.wrongType v.found "variant identifier")

/-- The source that some entries tell. -/
def ofEntries (entries : List (String × Json.Value)) : Except Json.DataFault Source := do
  let sort ← Json.single "ruleType" sortOf none entries
  let payload ← Json.single sort.payload Json.stringOf none entries
  return sort.build payload

/-- The source of a rule is read from what is written for it. -/
theorem ofEntries_entries (s : Source) : ofEntries s.entries = .ok s := by
  cases s <;>
    simp [ofEntries, entries, Json.single, sortOf, Json.stringOf, Json.choose, sorts, Fields.get?,
      bind, Except.bind, pure, Except.pure]

end Source

namespace Rule

/-- A rule as a JSON value. -/
def toJson (r : Rule) : Json.Value :=
  .object ([("id", .string r.id), ("outputPath", .string r.outputPath)] ++ r.source.entries)

/-- A rule of which the entries are still to come. -/
structure Draft where
  id : Option String
  outputPath : Option String
  /-- The entries of all other fields, last one first. -/
  others : List (String × Json.Value)

/-- The rule that a draft gives. -/
def Draft.finish (draft : Draft) : Except Json.DataFault Rule := do
  let id ← Json.required "id" draft.id
  let outputPath ← Json.required "outputPath" draft.outputPath
  let source ← Source.ofEntries draft.others.reverse
  return ⟨id, outputPath, source⟩

/-- Keeps an entry, whose arrays and objects may be nested to the given depth. -/
def keepOther (depth : Nat) : Json.OnField Draft := fun draft name s => do
  let (v, rest) ← Json.readEntry (Json.readValue depth) s
  return ({ draft with others := (name, v) :: draft.others }, rest)

/-- How a rule is read whose entries may open `depth` arrays and objects. -/
def record (depth : Nat) : Json.Record Draft Rule where
  title := "struct MappingRule"
  fields :=
    [.of "id" true Json.readText Draft.id (fun draft id => { draft with id := some id }),
     .of "outputPath" true Json.readText Draft.outputPath
       (fun draft outputPath => { draft with outputPath := some outputPath })]
  blank := ⟨none, none, []⟩
  finish := Draft.finish
  other := keepOther depth

/-- Reads a rule that opens no more than `depth` arrays and objects at a time. -/
def reader (depth : Nat) : Json.Reader Rule :=
  (record (depth - 1)).readObject depth

/-- Reads a text as a rule. -/
def read (text : String) : Except Json.Error Rule :=
  Json.readWhole (reader Json.maxDepth) text

/-- Reads a text as a list of rules. -/
def readAll (text : String) : Except Json.Error (List Rule) :=
  Json.readWhole (Json.readList (some (reader (Json.maxDepth - 1)))) text

/-- A draft with the entry of one more field. -/
def Draft.add (draft : Draft) (name : String) (v : Json.Value) : Except Json.DataFault Draft :=
  match name with
  | "id" => do return { draft with id := some (← Json.stringOf v) }
  | "outputPath" => do return { draft with outputPath := some (← Json.stringOf v) }
  | _ => .ok { draft with others := (name, v) :: draft.others }

/-- The rule that a value spells. -/
def ofValue (v : Json.Value) : Except Json.DataFault Rule :=
  match v with
  | .object fields => do
    let blank : Draft := ⟨none, none, []⟩
    let draft ← fields.foldlM (fun (draft : Draft) (name, v) => draft.add name v) blank
    draft.finish
  | v => .error (.wrongType v.found "struct MappingRule")

end Rule

end Crosswalk
