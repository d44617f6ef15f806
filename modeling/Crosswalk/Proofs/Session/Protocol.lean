import Crosswalk.Proofs.Mapping.FreshIds
import Crosswalk.Proofs.Session.Runs

/-!
# Two clicks make a rule

While fields are clicked and nothing else happens, a session is a machine with two states: it is
idle, or an input field waits for an output field.  A click on an input field makes it wait; a click
on an output field ends the waiting with a direct rule, or, where nothing waits, makes a constant
rule from an answer.  All other clicks do nothing.

A run is a sequence of clicks, told by number, from any state.  What waits before a click was
selected by the last click before it that selected anything, or by nobody in the run.

* `Turn` and `turn_after` : all that a click can do.
* `Serves` and `serves_after` : what a click on a field that is there does.
* `idle_or_latest` : once nothing waits, only a new selection makes something wait.
* `clicks_follow_protocol` : the rules of the protocol for every click of a run, and that no selection
  is the source of two direct rules.
-/

namespace Crosswalk.Session

/-- A click on a field. -/
inductive FieldClick where
  | input (answers : Answers) (path : String)
  /-- A click whose rule has an identifier made from the text `base`. -/
  | output (answers : Answers) (base path : String)

/-- The operation that a click is. -/
def FieldClick.operation : FieldClick → Operation
  | input answers path => .clickInput answers path
  | output answers base path => .clickOutput answers base path

namespace State

/-- The path that a click selects: it has to be one on an input field that is there, and the
question for a filter must not be cancelled. -/
def selected? (s : State) : FieldClick → Option String
  | .input answers path =>
    match Schema.find? s.inputSchema path with
    | none => none
    | some _ => (s.choosePath answers .input path).path?
  | .output _ _ _ => none

end State

/-! ### One click -/

/-- All that a click can do to a state. -/
inductive Turn (s : State) : FieldClick → State → Prop
  /-- The click fails, or a question is cancelled, or the constant is left empty. -/
  | nothing {click : FieldClick} (h : s.selected? click = none) : Turn s click s
  | selects {answers : Answers} {path source : String}
      (h : s.selected? (.input answers path) = some source) :
      Turn s (.input answers path) (s.select (.pending source))
  | direct {answers : Answers} {base path source : String} {r : Rule}
      (hpending : s.selection = .pending source) (hr : r.source = .direct source) :
      Turn s (.output answers base path) ((s.setMapping ⟨s.mapping.rules ++ [r]⟩).select .idle)
  | constant {answers : Answers} {base path value : String} {r : Rule}
      (hidle : s.selection = .idle) (hr : r.source = .constant value)
      (hanswer : answers.constant r.outputPath = some value) (hvalue : value ≠ "") :
      Turn s (.output answers base path) (s.setMapping ⟨s.mapping.rules ++ [r]⟩)

namespace State

variable (s : State)

/-- A click on an input field that is there selects it, unless it is cancelled. -/
theorem after_clickInput {answers : Answers} {path source : String} {node : Schema.Node}
    (hnode : Schema.find? s.inputSchema path = some node)
    (hpath : (s.choosePath answers .input path).path? = some source) :
    s.after (.clickInput answers path) = s.select (.pending source) := by
  simp [after, perform, clickInput, hnode, hpath]

theorem turn_clickInput (answers : Answers) (path : String) :
    Turn s (.input answers path) (s.after (.clickInput answers path)) := by
  cases hnode : Schema.find? s.inputSchema path with
  | none =>
    have hnone : s.selected? (.input answers path) = none := by simp [selected?, hnode]
    have hafter : s.after (.clickInput answers path) = s := by
      simp [after, perform, clickInput, hnode]
    rw [hafter]
    exact .nothing hnone
  | some node =>
    have hsame : s.selected? (.input answers path) = (s.choosePath answers .input path).path? := by
      simp [selected?, hnode]
    cases hpath : (s.choosePath answers .input path).path? with
    | none =>
      have hafter : s.after (.clickInput answers path) = s := by
        simp [after, perform, clickInput, hnode, hpath]
      rw [hafter]
      exact .nothing (hsame.trans hpath)
    | some source =>
      rw [s.after_clickInput hnode hpath]
      exact .selects (hsame.trans hpath)

/-- A rule that is taken in stands at the end of the list. -/
theorem eq_of_addDirect {s t : State} {base outputPath source : String}
    (h : s.addDirect base outputPath source = .ok t) :
    ∃ r : Rule, r.source = .direct source ∧
      t = (s.setMapping ⟨s.mapping.rules ++ [r]⟩).select .idle := by
  unfold addDirect at h
  split at h
  · simp at h
  · rename_i mapping hadd
    obtain ⟨-, -, rfl⟩ := Mapping.add_eq_ok_iff.1 hadd
    simp only [Except.ok.injEq] at h
    exact ⟨_, rfl, h.symm⟩

theorem eq_of_addConstant {s t : State} {base outputPath value : String}
    (h : s.addConstant base outputPath value = .ok t) :
    ∃ r : Rule, r.source = .constant value ∧ r.outputPath = outputPath ∧
      t = s.setMapping ⟨s.mapping.rules ++ [r]⟩ := by
  unfold addConstant at h
  split at h
  · simp at h
  · rename_i mapping hadd
    obtain ⟨-, -, rfl⟩ := Mapping.add_eq_ok_iff.1 hadd
    simp only [Except.ok.injEq] at h
    exact ⟨_, rfl, rfl, h.symm⟩

theorem turn_clickForConstant {s t : State} {answers : Answers} {base path : String}
    (hidle : s.selection = .idle) (h : (s.clickForConstant answers base path).result = .ok t) :
    Turn s (.output answers base path) t := by
  unfold clickForConstant at h
  simp only at h
  split at h
  · obtain rfl : s = t := by simpa using h
    exact .nothing rfl
  · rename_i outputPath _
    split at h
    · obtain rfl : s = t := by simpa using h
      exact .nothing rfl
    · rename_i value hanswer
      split at h
      · obtain rfl : s = t := by simpa using h
        exact .nothing rfl
      · rename_i hvalue
        obtain ⟨r, hr, houtput, rfl⟩ := eq_of_addConstant h
        have hne : value ≠ "" := by
          rintro rfl
          exact hvalue rfl
        exact .constant hidle hr (houtput ▸ hanswer) hne

theorem turn_clickOutput (answers : Answers) (base path : String) :
    Turn s (.output answers base path) (s.after (.clickOutput answers base path)) := by
  unfold after
  cases hclick : s.perform (.clickOutput answers base path) with
  | error fault => exact .nothing rfl
  | ok t =>
    simp only [perform, clickOutput] at hclick
    split at hclick
    · simp at hclick
    · cases hselection : s.selection with
      | pending source =>
        rw [hselection] at hclick
        obtain ⟨r, hr, rfl⟩ := eq_of_addDirect hclick
        exact .direct hselection hr
      | idle =>
        rw [hselection] at hclick
        exact turn_clickForConstant hselection hclick

/-- **One turn.**  Every click does one of the things that a click can do. -/
theorem turn_after (click : FieldClick) : Turn s click (s.after click.operation) := by
  cases click with
  | input answers path => exact s.turn_clickInput answers path
  | output answers base path => exact s.turn_clickOutput answers base path

end State

/-- The rules of the protocol for a click that leads from `s` to `t`. -/
structure Obeys (s : State) (click : FieldClick) (t : State) : Prop where
  /-- The list of rules is as it was, or one rule longer. -/
  appends : t.mapping = s.mapping ∨ ∃ r, t.mapping.rules = s.mapping.rules ++ [r]
  /-- A direct rule is made by a click on an output field, from the path that waits. -/
  direct : ∀ r source, t.mapping.rules = s.mapping.rules ++ [r] → r.source = .direct source →
    (∃ answers base path, click = .output answers base path) ∧
      s.selection = .pending source ∧ t.selection = .idle
  /-- A constant rule is made by a click on an output field while nothing waits, from an answer. -/
  constant : ∀ r value, t.mapping.rules = s.mapping.rules ++ [r] → r.source = .constant value →
    (∃ answers base path, click = .output answers base path ∧
      answers.constant r.outputPath = some value ∧ value ≠ "") ∧
      s.selection = .idle ∧ t.selection = .idle
  input : ∀ answers path, click = .input answers path → t.mapping = s.mapping
  /-- A click that fails changes nothing at all. -/
  failed : ∀ fault, s.perform click.operation = .error fault → t = s

section Turn

variable {s t : State} {click : FieldClick}

/-- A list does not become longer by nothing. -/
theorem rules_ne_append (rules : List Rule) (r : Rule) : rules ≠ rules ++ [r] := by
  intro h
  have hlength := congrArg List.length h
  simp at hlength

theorem Turn.direct_inv (h : Turn s click t) {r : Rule} {source : String}
    (hrules : t.mapping.rules = s.mapping.rules ++ [r]) (hr : r.source = .direct source) :
    (∃ answers base path, click = .output answers base path) ∧
      s.selection = .pending source ∧ t.selection = .idle := by
  cases h with
  | nothing => exact absurd hrules (rules_ne_append _ r)
  | selects => exact absurd hrules (rules_ne_append _ r)
  | @direct answers base path waiting made hpending hmade =>
    obtain rfl : made = r := by simpa [State.select, State.setMapping] using hrules
    obtain rfl : waiting = source := Source.direct.inj (hmade.symm.trans hr)
    exact ⟨⟨answers, base, path, rfl⟩, hpending, rfl⟩
  | @constant _ _ _ _ made _ hmade =>
    obtain rfl : made = r := by simpa [State.setMapping] using hrules
    rw [hmade] at hr
    cases hr

theorem Turn.constant_inv (h : Turn s click t) {r : Rule} {value : String}
    (hrules : t.mapping.rules = s.mapping.rules ++ [r]) (hr : r.source = .constant value) :
    (∃ answers base path, click = .output answers base path ∧
      answers.constant r.outputPath = some value ∧ value ≠ "") ∧
      s.selection = .idle ∧ t.selection = .idle := by
  cases h with
  | nothing => exact absurd hrules (rules_ne_append _ r)
  | selects => exact absurd hrules (rules_ne_append _ r)
  | @direct _ _ _ _ made _ hmade =>
    obtain rfl : made = r := by simpa [State.select, State.setMapping] using hrules
    rw [hmade] at hr
    cases hr
  | @constant answers base path given made hidle hmade hanswer hvalue =>
    obtain rfl : made = r := by simpa [State.setMapping] using hrules
    obtain rfl : given = value := Source.constant.inj (hmade.symm.trans hr)
    exact ⟨⟨answers, base, path, rfl, hanswer, hvalue⟩, hidle, hidle⟩

theorem Turn.appends (h : Turn s click t) :
    t.mapping = s.mapping ∨ ∃ r, t.mapping.rules = s.mapping.rules ++ [r] := by
  cases h with
  | nothing => exact .inl rfl
  | selects => exact .inl rfl
  | direct => exact .inr ⟨_, rfl⟩
  | constant => exact .inr ⟨_, rfl⟩

/-- What waits after a click is what it selected, or waited before. -/
theorem Turn.pending_inv (h : Turn s click t) {path : String} (hpath : t.selection = .pending path) :
    s.selected? click = some path ∨ s.selected? click = none ∧ s.selection = .pending path := by
  cases h with
  | nothing hnone => exact .inr ⟨hnone, hpath⟩
  | selects hsource =>
    obtain rfl : _ = path := Selection.pending.inj hpath
    exact .inl hsource
  | direct => cases hpath
  | constant hidle =>
    have hsame : s.selection = .pending path := hpath
    rw [hidle] at hsame
    cases hsame

theorem Turn.mapping_of_input {answers : Answers} {path : String}
    (h : Turn s (.input answers path) t) : t.mapping = s.mapping := by
  cases h with
  | nothing => rfl
  | selects => rfl

end Turn

/-- **Every click obeys the protocol**, whatever the state. -/
theorem obeys_after (s : State) (click : FieldClick) : Obeys s click (s.after click.operation) where
  appends := (s.turn_after click).appends
  direct := fun _ _ hrules hr => (s.turn_after click).direct_inv hrules hr
  constant := fun _ _ hrules hr => (s.turn_after click).constant_inv hrules hr
  input := by
    rintro answers path rfl
    exact (s.turn_after (.input answers path)).mapping_of_input
  failed := by
    intro fault h
    simp [State.after, h]

/-! ### Clicks that do their work -/

/-- What a click does that leads from `s` to `t`, if the field is there, no question is cancelled
that the click depends on, and the rule it makes passes its check.  A rule goes to the field that
was clicked, with the filter that was asked for. -/
structure Serves (s : State) (click : FieldClick) (t : State) : Prop where
  /-- The input field waits, in place of any that waited before. -/
  selects : ∀ answers path node source, click = .input answers path →
    Schema.find? s.inputSchema path = some node →
    (s.choosePath answers .input path).path? = some source → t = s.select (.pending source)
  /-- The field that waits becomes the source of the last rule.  Where the question for a filter is
  cancelled, the rule goes to the field without one. -/
  direct : ∀ answers base path node source, click = .output answers base path →
    Schema.find? s.outputSchema path = some node → s.selection = .pending source →
    let outputPath := (s.choosePath answers .output path).path?.getD path
    let r : Rule := ⟨s.mapping.freshId base, outputPath, .direct source⟩
    r.check = .ok () → t = (s.setMapping ⟨s.mapping.rules ++ [r]⟩).select .idle
  /-- Where nothing waits, a constant that is not empty becomes the source of the last rule. -/
  constant : ∀ answers base path node outputPath value, click = .output answers base path →
    Schema.find? s.outputSchema path = some node → s.selection = .idle →
    (s.choosePath answers .output path).path? = some outputPath →
    answers.constant outputPath = some value → value ≠ "" →
    let r : Rule := ⟨s.mapping.freshId base, outputPath, .constant value⟩
    r.check = .ok () → t = s.setMapping ⟨s.mapping.rules ++ [r]⟩

namespace State

variable (s : State)

/-- A rule with a new identifier is taken in if it passes its check. -/
theorem add_freshId {base outputPath : String} {source : Source}
    (h : Rule.check ⟨s.mapping.freshId base, outputPath, source⟩ = .ok ()) :
    s.mapping.add ⟨s.mapping.freshId base, outputPath, source⟩
      = .ok ⟨s.mapping.rules ++ [⟨s.mapping.freshId base, outputPath, source⟩]⟩ :=
  Mapping.add_eq_ok_iff.2 ⟨h, Mapping.freshId_not_mem_ids s.mapping base, rfl⟩

theorem after_clickOutput_pending {answers : Answers} {base path source : String}
    {node : Schema.Node} (hnode : Schema.find? s.outputSchema path = some node)
    (hpending : s.selection = .pending source) {r : Rule}
    (hr : r = ⟨s.mapping.freshId base, (s.choosePath answers .output path).path?.getD path,
      .direct source⟩) (hcheck : r.check = .ok ()) :
    s.after (.clickOutput answers base path)
      = (s.setMapping ⟨s.mapping.rules ++ [r]⟩).select .idle := by
  subst hr
  simp [after, perform, clickOutput, hnode, hpending, addDirect, Mapping.addDirect,
    s.add_freshId hcheck]

theorem after_clickOutput_idle {answers : Answers} {base path outputPath value : String}
    {node : Schema.Node} (hnode : Schema.find? s.outputSchema path = some node)
    (hidle : s.selection = .idle)
    (hpath : (s.choosePath answers .output path).path? = some outputPath)
    (hanswer : answers.constant outputPath = some value) (hvalue : value ≠ "") {r : Rule}
    (hr : r = ⟨s.mapping.freshId base, outputPath, .constant value⟩) (hcheck : r.check = .ok ()) :
    s.after (.clickOutput answers base path) = s.setMapping ⟨s.mapping.rules ++ [r]⟩ := by
  subst hr
  simp [after, perform, clickOutput, hnode, hidle, clickForConstant, hpath, hanswer, hvalue,
    addConstant, Mapping.addConstant, s.add_freshId hcheck]

/-- **Every click does its work**, whatever the state. -/
theorem serves_after (click : FieldClick) : Serves s click (s.after click.operation) where
  selects := by
    rintro answers path node source rfl hnode hpath
    exact s.after_clickInput hnode hpath
  direct := by
    rintro answers base path node source rfl hnode hpending outputPath r hcheck
    exact s.after_clickOutput_pending hnode hpending rfl hcheck
  constant := by
    rintro answers base path node outputPath value rfl hnode hidle hpath hanswer hvalue r hcheck
    exact s.after_clickOutput_idle hnode hidle hpath hanswer hvalue rfl hcheck

end State

/-! ### Runs of clicks -/

section Runs

variable (start : State) (clicks : Nat → FieldClick)

/-- The state of a run before the click with a number. -/
def stateAt : Nat → State
  | 0 => start
  | k + 1 => (stateAt k).after (clicks k).operation

/-- The last click before the one with a number that selected anything. -/
def latest? : Nat → Option Nat
  | 0 => none
  | k + 1 =>
    if ((stateAt start clicks k).selected? (clicks k)).isSome then some k else latest? k

/-- The path that a click selected, or, where no click is given, the one that waited at the
start. -/
def selectedBy : Option Nat → Option String
  | none => start.selection.path?
  | some k => (stateAt start clicks k).selected? (clicks k)

/-- A click makes a direct rule with a source. -/
def MakesDirect (k : Nat) (source : String) : Prop :=
  ∃ r, (stateAt start clicks (k + 1)).mapping.rules
      = (stateAt start clicks k).mapping.rules ++ [r] ∧ r.source = .direct source

variable {start clicks}

theorem turn_stateAt (k : Nat) :
    Turn (stateAt start clicks k) (clicks k) (stateAt start clicks (k + 1)) :=
  (stateAt start clicks k).turn_after (clicks k)

theorem latest?_lt {k i : Nat} (h : latest? start clicks k = some i) : i < k := by
  induction k with
  | zero => simp [latest?] at h
  | succ k ih =>
    rw [latest?] at h
    split at h
    · have hi : k = i := by simpa using h
      omega
    · have hi := ih h
      omega

/-- What waits was selected by the latest click that selected anything. -/
theorem selectedBy_latest? {k : Nat} {path : String}
    (h : (stateAt start clicks k).selection = .pending path) :
    selectedBy start clicks (latest? start clicks k) = some path := by
  induction k generalizing path with
  | zero =>
    have hpath : start.selection = .pending path := h
    simp [latest?, selectedBy, hpath, Selection.path?]
  | succ k ih =>
    rw [latest?]
    rcases (turn_stateAt k).pending_inv h with hnew | ⟨hnone, hold⟩
    · rw [hnew]
      exact hnew
    · rw [hnone]
      exact ih hold

/-- Once nothing waits, nothing does until a later click selects something. -/
theorem idle_or_latest {j : Nat} (hidle : (stateAt start clicks j).selection = .idle) {k : Nat}
    (hjk : j ≤ k) : (stateAt start clicks k).selection = .idle ∨
      ∃ i, j ≤ i ∧ latest? start clicks k = some i := by
  induction hjk with
  | refl => exact .inl hidle
  | @step k hjk ih =>
    cases hselected : (stateAt start clicks k).selected? (clicks k) with
    | some path => exact .inr ⟨k, hjk, by simp [latest?, hselected]⟩
    | none =>
      have hlatest : latest? start clicks (k + 1) = latest? start clicks k := by
        simp [latest?, hselected]
      rw [hlatest]
      rcases ih with ih | ih
      · cases hnext : (stateAt start clicks (k + 1)).selection with
        | idle => exact .inl rfl
        | pending path =>
          have hpending := (turn_stateAt k).pending_inv hnext
          simp [hselected, ih] at hpending
      · exact .inr ih

/-- Before a click that makes a direct rule its source waits, and after it nothing does. -/
theorem MakesDirect.selections {k : Nat} {source : String}
    (h : MakesDirect start clicks k source) :
    (stateAt start clicks k).selection = .pending source ∧
      (stateAt start clicks (k + 1)).selection = .idle := by
  obtain ⟨r, hrules, hr⟩ := h
  exact ((turn_stateAt k).direct_inv hrules hr).2

/-- Of two clicks that make direct rules, the later one uses a later selection. -/
theorem MakesDirect.latest?_ne {j k : Nat} {first second : String}
    (hj : MakesDirect start clicks j first) (hk : MakesDirect start clicks k second)
    (hjk : j < k) : latest? start clicks j ≠ latest? start clicks k := by
  intro heq
  rcases idle_or_latest hj.selections.2 hjk with hidle | ⟨i, hji, hlatest⟩
  · rw [hk.selections.1] at hidle
    cases hidle
  · rw [hlatest] at heq
    have hij := latest?_lt heq
    omega

end Runs

/-- **The protocol of clicks.**  Every click of a run obeys it, and does its work if it can; the source
of a direct rule is the path that was selected last; and no two clicks make direct rules from the
same selection. -/
theorem clicks_follow_protocol (start : State) (clicks : Nat → FieldClick) :
    (∀ k, Obeys (stateAt start clicks k) (clicks k) (stateAt start clicks (k + 1))) ∧
      (∀ k, Serves (stateAt start clicks k) (clicks k) (stateAt start clicks (k + 1))) ∧
      (∀ k source, MakesDirect start clicks k source →
        selectedBy start clicks (latest? start clicks k) = some source) ∧
      (∀ j k first second, MakesDirect start clicks j first → MakesDirect start clicks k second →
        latest? start clicks j = latest? start clicks k → j = k) := by
  refine ⟨fun k => obeys_after _ _, fun k => State.serves_after _ _, ?_, ?_⟩
  · intro k source hk
    exact selectedBy_latest? hk.selections.1
  · intro j k first second hj hk heq
    rcases Nat.lt_trichotomy j k with hjk | hjk | hkj
    · exact absurd heq (hj.latest?_ne hk hjk)
    · exact hjk
    · exact absurd heq.symm (hk.latest?_ne hj hkj)

end Crosswalk.Session
