import Crosswalk.Fields
import Crosswalk.Mapping.Rule
import Crosswalk.Path.Segment

/-!
# The tree of output fields

To write a whole document from nothing, the rules are put into a tree along their output paths,
positions left out.  The entries of a level keep the order in which the rules first mention them.
A field whose last step has brackets takes every rule that is sent to it; any other field takes
the last one only.  A rule whose path leads through a field that is mapped itself is not taken.
-/

namespace Crosswalk.Stylesheet

/-- What stands under a step of the output. -/
inductive Entry where
  /-- An element with entries below it. -/
  | branch (children : List (Segment × Entry))
  /-- A field that is filled by one rule. -/
  | leaf (rule : Rule)
  /-- A field that is written once for each of some rules. -/
  | fanout (rules : List Rule)
deriving Repr

/-- The entries of a level, in order of arrival. -/
abbrev Level : Type := List (Segment × Entry)

/-- A remark on a rule that is not written as it was given. -/
inductive Notice where
  /-- The path of a rule leads through a mapped field. -/
  | blocked (path : String) (step : Segment) (id : String)
  /-- A rule takes the place of nested fields. -/
  | replaced (id path : String) (count : Nat) (step : Segment)
  /-- Nothing can stand below an attribute. -/
  | belowAttribute (name : String)
deriving DecidableEq, Repr

/-- The wording of a notice. -/
def Notice.message : Notice → String
  | blocked path step id =>
    "Output path '" ++ path ++ "' passes through the mapped field '" ++ step.text
      ++ "'; mapping " ++ id ++ " ignored"
  | replaced id path count step =>
    "Mapping " ++ id ++ " on '" ++ path ++ "' replaces " ++ toString count
      ++ " nested output field(s) under '" ++ step.text ++ "'"
  | belowAttribute name => "Attribute '" ++ name ++ "' cannot contain child fields; skipped"

namespace Level

/-- A level with a rule at the field of the given step. -/
def place (rule : Rule) (step : Segment) (level : Level) : Level × List Notice :=
  match step.brackets?, Fields.get? step level with
  | some _, some (.fanout rules) => (Fields.put step (.fanout (rules ++ [rule])) level, [])
  | some _, _ => (Fields.put step (.fanout [rule]) level, [])
  | none, some (.branch children) =>
    (Fields.put step (.leaf rule) level,
      [.replaced rule.id rule.outputPath children.length step])
  | none, _ => (Fields.put step (.leaf rule) level, [])

/-- A level with a rule at the field that the given steps lead to. -/
def insert (rule : Rule) : List Segment → Level → Level × List Notice
  | [], level => (level, [])
  | [step], level => place rule step level
  | step :: rest, level =>
    match Fields.get? step level with
    | some (.branch children) =>
      let (children, notices) := insert rule rest children
      (Fields.put step (.branch children) level, notices)
    | some _ => (level, [.blocked rule.outputPath step rule.id])
    | none =>
      let (children, notices) := insert rule rest []
      (Fields.put step (.branch children) level, notices)

/-- The tree of the given rules, and the notices on the way. -/
def ofRules (rules : List Rule) : Level × List Notice :=
  rules.foldl
    (fun (level, notices) rule =>
      let (level, more) := insert rule (Path.namedSegments rule.outputPath) level
      (level, notices ++ more))
    ([], [])

end Level

end Crosswalk.Stylesheet
