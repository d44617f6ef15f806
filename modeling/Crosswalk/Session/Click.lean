import Crosswalk.Path.Splice
import Crosswalk.Schema.Lookup
import Crosswalk.Session.State

/-!
# Making rules by clicks

A click on an input field selects it.  A click on an output field makes a direct rule from the
selected input, or, when none is selected, a constant rule from a value that is asked for.  In XML a
field below an array can be given a filter, which is asked for first; a blank answer stands for no
filter.  Whoever answers may cancel instead.

* `clickInput_unknown` : a click on an input field that is not in the schema asks nothing.
-/

namespace Crosswalk.Session

/-- The question for a filter. -/
structure FilterQuestion where
  side : Side
  path : String
  /-- The attributes that a filter can ask for. -/
  suggestions : List String
  prompt : String
deriving DecidableEq, Repr

/-- Something that is asked on a click. -/
inductive Question where
  | filter (question : FilterQuestion)
  /-- The question for the constant that an output field is filled with. -/
  | constant (outputPath : String)
deriving DecidableEq, Repr

/-- Whoever answers the questions on a click; no answer means that the question was cancelled. -/
structure Answers where
  filter : FilterQuestion → Option String
  constant : (outputPath : String) → Option String

/-- What a click leads to. -/
structure Click where
  /-- What was asked, in order. -/
  asked : List Question
  notices : List Path.Notice
  result : Except Fault State

/-- What the question for a filter leads to. -/
structure Choice where
  asked : List Question
  notices : List Path.Notice
  /-- The path with the filter, unless the question was cancelled. -/
  path? : Option String

namespace State

/-- The question for a filter on a field. -/
def filterQuestion (s : State) (side : Side) (path : String) : FilterQuestion :=
  let suggestions := Schema.suggestions (s.schema side) path
  ⟨side, path, suggestions, Schema.filterPrompt suggestions⟩

/-- Whether a filter on a field is asked for. -/
def asksForFilter (s : State) (side : Side) (path : String) : Bool :=
  s.format side == .xml && Schema.isInArray (s.schema side) path

/-- The path of a field, with the filter that is asked for. -/
def choosePath (s : State) (answers : Answers) (side : Side) (path : String) : Choice :=
  if s.asksForFilter side path then
    let question := s.filterQuestion side path
    match answers.filter question with
    | none => ⟨[.filter question], [], none⟩
    | some answer =>
      if Text.isBlankText answer then ⟨[.filter question], [], some path⟩
      else
        let (filtered, notice) := Path.splice path (Text.trim answer)
        ⟨[.filter question], notice.toList, some filtered⟩
  else ⟨[], [], some path⟩

/-- The outcome of a click on an input field. -/
def clickInput (s : State) (answers : Answers) (path : String) : Click :=
  match Schema.find? s.inputSchema path with
  | none => ⟨[], [], .error (.unknownNode .input path)⟩
  | some _ =>
    let choice := s.choosePath answers .input path
    match choice.path? with
    | some source => ⟨choice.asked, choice.notices, .ok (s.select (.pending source))⟩
    | none => ⟨choice.asked, choice.notices, .ok s⟩

/-- A state with one more direct rule, whose identifier is made from the given text; the selection
is used up. -/
def addDirect (s : State) (base outputPath source : String) : Except Fault State :=
  match s.mapping.addDirect base outputPath source with
  | .error cause => .error (.mapping cause)
  | .ok mapping => .ok ((s.setMapping mapping).select .idle)

/-- A state with one more constant rule, whose identifier is made from the given text. -/
def addConstant (s : State) (base outputPath value : String) : Except Fault State :=
  match s.mapping.addConstant base outputPath value with
  | .error cause => .error (.mapping cause)
  | .ok mapping => .ok (s.setMapping mapping)

/-- The outcome of a click on an output field while no input field is selected. -/
def clickForConstant (s : State) (answers : Answers) (base path : String) : Click :=
  let choice := s.choosePath answers .output path
  match choice.path? with
  | none => ⟨choice.asked, choice.notices, .ok s⟩
  | some outputPath =>
    let asked := choice.asked ++ [.constant outputPath]
    match answers.constant outputPath with
    | none => ⟨asked, choice.notices, .ok s⟩
    | some value =>
      if value.isEmpty then ⟨asked, choice.notices, .ok s⟩
      else ⟨asked, choice.notices, s.addConstant base outputPath value⟩

/-- The outcome of a click on an output field.  A rule that it makes has an identifier made from the
given text.  When the question for a filter is cancelled, a direct rule goes to the field without
one. -/
def clickOutput (s : State) (answers : Answers) (base path : String) : Click :=
  match Schema.find? s.outputSchema path with
  | none => ⟨[], [], .error (.unknownNode .output path)⟩
  | some _ =>
    match s.selection with
    | .pending source =>
      let choice := s.choosePath answers .output path
      ⟨choice.asked, choice.notices, s.addDirect base (choice.path?.getD path) source⟩
    | .idle => s.clickForConstant answers base path

/-- A click on an input field that is not in the schema asks nothing. -/
theorem clickInput_unknown {s : State} {path : String}
    (h : Schema.find? s.inputSchema path = none) (answers : Answers) :
    s.clickInput answers path = ⟨[], [], .error (.unknownNode .input path)⟩ := by
  simp [clickInput, h]

end State

end Crosswalk.Session
