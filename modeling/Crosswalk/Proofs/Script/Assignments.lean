import Crosswalk.Proofs.Json.Strings
import Crosswalk.Script.Basic
import Mathlib.Data.List.Basic

/-!
# Reading the assignments of a script

The function that carries out the rules has one line for each of them.  The paths and the constant of
a rule stand in its line as written strings, which have no line breaks and end at their own closing
quote.  So no text in a rule can end its line or be taken for anything else in it, and whoever reads the
lines finds all that the rules say.

* `readAssignment_assignment` : the line of a rule is read as what the rule says.
* `splitOn_break` : there is one line for each rule.
* `transform_eq_iff` : the function tells what all rules say, and nothing else.
* `transform_readable` : so all of it can be read.
-/

namespace Crosswalk

/-- What a rule says: all but its identifier. -/
def Rule.content (r : Rule) : String × Source :=
  (r.outputPath, r.source)

namespace Script

open Text

/-! ### Reading a line -/

/-- The string that is written at the front of a text, and what follows it. -/
def readLiteral (cs : List Char) : Option (String × List Char) :=
  match Json.readText cs with
  | .ok (s, rest) => some (s, rest.text)
  | .error _ => none

/-- The source that an expression at the front of a text tells, and what follows it. -/
def readSource (cs : List Char) : Option (Source × List Char) :=
  match cs.dropPrefix? "get_value(data, ".toList with
  | some argument => do
    let (path, rest) ← readLiteral argument
    let rest ← rest.dropPrefix? ")".toList
    return (.direct path, rest)
  | none => do
    let (value, rest) ← readLiteral cs
    return (.constant value, rest)

/-- What a line says: the path that is written to, and where the value comes from. -/
def readAssignment (line : List Char) : Option (String × Source) := do
  let arguments ← line.dropPrefix? "    set_nested_value(output, ".toList
  let (path, rest) ← readLiteral arguments
  let rest ← rest.dropPrefix? ", ".toList
  let (source, rest) ← readSource rest
  if rest = ")".toList then return (path, source) else none

theorem readLiteral_encodeString (s : String) (rest : List Char) :
    readLiteral (Json.encodeString s ++ rest) = some (s, rest) := by
  have hnone : ∀ c ∈ ([] : List Char), c.isWhitespace = true := by simp
  have hreads : Reads Json.readText (Json.encodeString s ++ rest) s rest :=
    Json.readText_encodeString hnone s rest
  obtain ⟨t, hread, htext⟩ := hreads
  simp [readLiteral, hread, htext]

theorem dropPrefix?_append (start rest : List Char) :
    (start ++ rest).dropPrefix? start = some rest :=
  List.dropPrefix?_append_of_beq rest (by simp)

theorem valueOf_direct (path : String) :
    valueOf (.direct path) = "get_value(data, " ++ Json.literal path ++ ")" := rfl

theorem valueOf_constant (value : String) : valueOf (.constant value) = Json.literal value := rfl

/-- The expression for a source is read as that source, whatever follows it. -/
theorem readSource_valueOf (source : Source) (rest : List Char) :
    readSource ((valueOf source).toList ++ rest) = some (source, rest) := by
  cases source with
  | direct path =>
    have hexpression : (valueOf (.direct path)).toList ++ rest
        = "get_value(data, ".toList ++ (Json.encodeString path ++ (")".toList ++ rest)) := by
      rw [valueOf_direct]
      simp only [Json.literal, String.toList_append, String.toList_ofList, List.append_assoc]
    rw [hexpression, readSource, dropPrefix?_append]
    simp only [readLiteral_encodeString, dropPrefix?_append, Option.bind_eq_bind,
      Option.bind_some]
    rfl
  | constant value =>
    have hexpression : (valueOf (.constant value)).toList ++ rest
        = Json.encodeString value ++ rest := by
      rw [valueOf_constant, Json.literal, String.toList_ofList]
    -- A written string begins with its quote, so it is no call.
    have hquote : (Json.encodeString value ++ rest).dropPrefix? "get_value(data, ".toList
        = none := by
      rw [Json.encodeString_append]
      rfl
    rw [hexpression, readSource, hquote]
    simp only [readLiteral_encodeString, Option.bind_eq_bind, Option.bind_some]
    rfl

/-- **The line of a rule is read as what the rule says.** -/
theorem readAssignment_assignment (r : Rule) :
    readAssignment (assignment r).toList = some r.content := by
  have hline : (assignment r).toList
      = "    set_nested_value(output, ".toList ++ (Json.encodeString r.outputPath
          ++ (", ".toList ++ ((valueOf r.source).toList ++ ")".toList))) := by
    unfold assignment
    simp only [Json.literal, String.toList_append, String.toList_ofList, List.append_assoc]
  rw [hline, readAssignment, dropPrefix?_append]
  simp only [readLiteral_encodeString, dropPrefix?_append, readSource_valueOf,
    Option.bind_eq_bind, Option.bind_some, if_true]
  rfl

/-! ### Lines -/

/-- No escape has a line break in it. -/
theorem break_not_mem_encodeChar (c : Char) : '\n' ∉ Json.encodeChar c := by
  have hquad : ∀ n < 0x20, '\n' ∉ Json.hexQuad n := by decide
  unfold Json.encodeChar
  split
  · decide
  split
  · decide
  split
  · decide
  split
  · decide
  split
  · decide
  split
  · decide
  split
  · decide
  split
  · rename_i hcontrol
    simpa using hquad c.toNat hcontrol
  · rename_i hbreak _ _ _
    simpa using Ne.symm hbreak

/-- No written string has a line break in it. -/
theorem break_not_mem_literal (s : String) : '\n' ∉ (Json.literal s).toList := by
  have hinside : '\n' ∉ s.toList.flatMap Json.encodeChar := by
    intro h
    obtain ⟨c, -, hc⟩ := List.mem_flatMap.1 h
    exact break_not_mem_encodeChar c hc
  simpa [Json.literal, Json.encodeString] using hinside

theorem break_not_mem_valueOf (source : Source) : '\n' ∉ (valueOf source).toList := by
  cases source with
  | direct path =>
    have hcall : '\n' ∉ "get_value(data, ".toList ∧ '\n' ∉ ")".toList := by decide
    rw [valueOf_direct]
    simp only [String.toList_append, List.mem_append, not_or]
    exact ⟨⟨hcall.1, break_not_mem_literal path⟩, hcall.2⟩
  | constant value => exact break_not_mem_literal value

/-- A rule has one line. -/
theorem break_not_mem_assignment (r : Rule) : '\n' ∉ (assignment r).toList := by
  have hcall : '\n' ∉ "    set_nested_value(output, ".toList ∧ '\n' ∉ ", ".toList
      ∧ '\n' ∉ ")".toList := by decide
  unfold assignment
  simp only [String.toList_append, List.mem_append, not_or]
  exact ⟨⟨⟨⟨hcall.1, break_not_mem_literal r.outputPath⟩, hcall.2.1⟩,
    break_not_mem_valueOf r.source⟩, hcall.2.2⟩

/-- What stands in front of the lines. -/
def transformHead : List Char := "def transform(data):\n    output = \x7b\x7d\n\n".toList

/-- What stands behind the lines. -/
def transformTail : List Char := "\n\n    return json.dumps(output, indent=2)".toList

/-- The lines of some rules. -/
def assignments (rules : List Rule) : List Char :=
  (lines (rules.map assignment)).toList

theorem toList_transform {rules : List Rule} (h : rules ≠ []) :
    (transform rules).toList = transformHead ++ assignments rules ++ transformTail := by
  have hsome : rules.isEmpty = false := by simpa using h
  have htail : transformTail
      = "\n\n".toList ++ "    return json.dumps(output, indent=2)".toList := by decide
  rw [htail]
  unfold transform transformHead assignments
  rw [hsome]
  simp only [Bool.false_eq_true, if_false, String.toList_append, List.append_assoc]

/-- **There is one line for each rule**, in the order of the rules. -/
theorem splitOn_break {rules : List Rule} (h : rules ≠ []) :
    (assignments rules).splitOn '\n' = rules.map fun r => (assignment r).toList := by
  have hlines : assignments rules
      = ['\n'].intercalate (rules.map fun r => (assignment r).toList) := by
    rw [assignments, lines, String.toList_intercalate, List.map_map]
    rfl
  rw [hlines]
  refine List.splitOn_intercalate '\n' ?_ (by simpa using h)
  intro line hline
  obtain ⟨r, -, rfl⟩ := List.mem_map.1 hline
  exact break_not_mem_assignment r

/-- The lines of some rules are read as what the rules say. -/
theorem map_readAssignment {rules : List Rule} (h : rules ≠ []) :
    ((assignments rules).splitOn '\n').map readAssignment
      = rules.map fun r => some r.content := by
  rw [splitOn_break h, List.map_map]
  exact List.map_congr_left fun r _ => readAssignment_assignment r

/-! ### The function as a whole -/

/-- Without rules nothing stands where the lines would, so the function is shorter. -/
theorem transform_nil_ne {rules : List Rule} (h : rules ≠ []) :
    transform [] ≠ transform rules := by
  intro heq
  have hnone : (transform []).length
      = transformHead.length + "    return json.dumps(output, indent=2)".length := by decide
  have htail : transformTail.length
      = "    return json.dumps(output, indent=2)".length + 2 := by decide
  have hlength : (transform rules).length
      = transformHead.length + (assignments rules).length + transformTail.length := by
    rw [← String.length_toList, toList_transform h, List.length_append, List.length_append]
  rw [← heq] at hlength
  omega

/-- What the rules say decides their lines. -/
theorem map_assignment_of_content {rules others : List Rule}
    (h : others.map Rule.content = rules.map Rule.content) :
    others.map assignment = rules.map assignment := by
  have hline : assignment = (fun c => assignment ⟨"", c.1, c.2⟩) ∘ Rule.content := rfl
  rw [hline, ← List.map_map, h, List.map_map]

/-- **The function tells what all rules say**, and nothing else. -/
theorem transform_eq_iff (rules others : List Rule) :
    transform others = transform rules ↔ others.map Rule.content = rules.map Rule.content := by
  constructor
  · intro heq
    by_cases hrules : rules = []
    · by_cases hothers : others = []
      · rw [hrules, hothers]
      · rw [hrules] at heq
        exact absurd heq.symm (transform_nil_ne hothers)
    · have hothers : others ≠ [] := by
        intro hnil
        rw [hnil] at heq
        exact transform_nil_ne hrules heq
      have hchars := congrArg String.toList heq
      rw [toList_transform hrules, toList_transform hothers] at hchars
      have hbody : assignments others = assignments rules :=
        List.append_cancel_left (List.append_cancel_right hchars)
      have hread := map_readAssignment hothers
      rw [hbody, map_readAssignment hrules] at hread
      refine (List.map_inj_right fun _ _ => Option.some.inj).1 ?_
      rw [List.map_map, List.map_map]
      exact hread.symm
  · intro hcontent
    have hempty : others.isEmpty = rules.isEmpty := by
      rw [← List.isEmpty_map (f := Rule.content), hcontent, List.isEmpty_map]
    unfold transform
    rw [hempty, map_assignment_of_content hcontent]

/-- **What a script says can be read in it.**  Between a fixed head and a fixed tail, the function that
carries out the rules has one line for each rule, in the order of the rules, and each line is read as
what its rule says.  So two lists of rules give the same function only if they say the same. -/
theorem transform_readable {rules : List Rule} (h : rules ≠ []) :
    ∃ body, (transform rules).toList = transformHead ++ body ++ transformTail ∧
      (body.splitOn '\n').map readAssignment = rules.map (fun r => some r.content) ∧
      ∀ others, transform others = transform rules ↔
        others.map Rule.content = rules.map Rule.content :=
  ⟨assignments rules, toList_transform h, map_readAssignment h, transform_eq_iff rules⟩

/-- Rules whose texts have line breaks, quotes, backslashes and calls in them. -/
theorem transform_readable_with_calls :
    let rules : List Rule :=
      [⟨"1", "a\", get_value(data, \"b", .constant "x\")\n    set_nested_value(output, \"c"⟩,
       ⟨"2", "\\\n", .direct "in.\"\u0001\"))"⟩]
    rules ≠ [] ∧
      ∃ body, (transform rules).toList = transformHead ++ body ++ transformTail ∧
        (body.splitOn '\n').map readAssignment = rules.map (fun r => some r.content) ∧
        ∀ others, transform others = transform rules ↔
          others.map Rule.content = rules.map Rule.content := by
  intro rules
  have hsome : rules ≠ [] := by decide
  exact ⟨hsome, transform_readable hsome⟩

end Script

end Crosswalk
