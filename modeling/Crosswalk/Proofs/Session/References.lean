import Crosswalk.Proofs.Mapping.Store
import Crosswalk.Proofs.Schema.Finding
import Crosswalk.Proofs.Session.Runs

/-!
# The paths in a session lead somewhere

Clicks take the paths of rules from the schemas, and whatever replaces a schema drops the rules and
the selection that were made from it.  So every path that a session holds is found in the schema of
its side, as long as rules and selections come from clicks only and the value of a filter that is
given as an answer has no brackets.

* `Refers` : the invariant.
* `Reachable.refers` : it holds in every state that can be reached.
-/

namespace Crosswalk.Session

/-- Whether the paths that a state holds are found in its schemas. -/
structure State.Refers (s : State) : Prop where
  outputs : ∀ r ∈ s.mapping.rules, Schema.find? s.outputSchema r.outputPath ≠ none
  sources : ∀ r ∈ s.mapping.rules, ∀ path, r.source = .direct path →
    Schema.find? s.inputSchema path ≠ none
  pending : ∀ path, s.selection = .pending path → Schema.find? s.inputSchema path ≠ none

/-- Whether a filter that an answer spells has no brackets in its value. -/
def IsPlainAnswer (answer : String) : Prop :=
  ∀ filter, Filter.read (Text.trim answer) = .ok filter →
    ∀ c ∈ filter.value.toList, c ≠ '[' ∧ c ≠ ']'

/-- Whether an operation is one of a user: selections and rules are made by clicks, and a filter
that is given as an answer has no brackets in its value. -/
def ByUser (s : State) : Operation → Prop
  | .select _ => False
  | .setMapping _ => False
  | .clickInput answers path =>
    ∀ answer, answers.filter (s.filterQuestion .input path) = some answer → IsPlainAnswer answer
  | .clickOutput answers _ path =>
    ∀ answer, answers.filter (s.filterQuestion .output path) = some answer → IsPlainAnswer answer
  | _ => True

namespace State

variable {s t : State}

theorem refers_start (config : Config) : (start config).Refers where
  outputs := by simp [start, Mapping.empty]
  sources := by simp [start, Mapping.empty]
  pending := by simp [start]

/-! ### One lemma for each kind of change -/

/-- Neither the settings nor what was generated count. -/
theorem Refers.of_same (h : s.Refers) (hinput : t.inputSchema = s.inputSchema)
    (houtput : t.outputSchema = s.outputSchema) (hmapping : t.mapping = s.mapping)
    (hselection : t.selection = s.selection) : t.Refers where
  outputs := by rw [hmapping, houtput]; exact h.outputs
  sources := by rw [hmapping, hinput]; exact h.sources
  pending := by rw [hselection, hinput]; exact h.pending

theorem Refers.load (h : s.Refers) {side : Side} {text : String}
    (hload : s.load side text = .ok t) : t.Refers := by
  unfold State.load at hload
  split at hload
  · simp at hload
  · cases side with
    | input =>
      simp only [Except.ok.injEq] at hload
      subst hload
      exact ⟨by simp [Mapping.empty], by simp [Mapping.empty], by simp⟩
    | output =>
      simp only [Except.ok.injEq] at hload
      subst hload
      exact ⟨by simp [Mapping.empty], by simp [Mapping.empty], h.pending⟩

theorem Refers.deleteRule (h : s.Refers) (id : String) : (s.deleteRule id).Refers where
  outputs := fun r hr => h.outputs r (List.mem_filter.1 hr).1
  sources := fun r hr => h.sources r (List.mem_filter.1 hr).1
  pending := h.pending

theorem Refers.select_pending (h : s.Refers) {path : String}
    (hfound : Schema.find? s.inputSchema path ≠ none) : (s.select (.pending path)).Refers where
  outputs := h.outputs
  sources := h.sources
  pending := by
    intro other heq
    obtain rfl : path = other := by simpa [select] using heq
    exact hfound

theorem Refers.select_idle (h : s.Refers) : (s.select .idle).Refers where
  outputs := h.outputs
  sources := h.sources
  pending := by simp [select]

/-- A rule whose paths are found may be taken in. -/
theorem Refers.add (h : s.Refers) {mapping : Mapping} {r : Rule}
    (hadd : s.mapping.add r = .ok mapping)
    (houtput : Schema.find? s.outputSchema r.outputPath ≠ none)
    (hsource : ∀ path, r.source = .direct path → Schema.find? s.inputSchema path ≠ none) :
    (s.setMapping mapping).Refers := by
  obtain ⟨-, -, rfl⟩ := Mapping.add_eq_ok_iff.1 hadd
  refine ⟨?_, ?_, h.pending⟩
  · intro other hmem
    rcases List.mem_append.1 hmem with hold | hnew
    · exact h.outputs other hold
    · exact List.mem_singleton.1 hnew ▸ houtput
  · intro other hmem
    rcases List.mem_append.1 hmem with hold | hnew
    · exact h.sources other hold
    · exact List.mem_singleton.1 hnew ▸ hsource

/-! ### Clicks -/

/-- The path that is chosen leads where the path that was clicked leads. -/
theorem find?_choosePath (nodes : List Schema.Node) {answers : Answers} {side : Side}
    {path chosen : String}
    (hanswers : ∀ answer, answers.filter (s.filterQuestion side path) = some answer →
      IsPlainAnswer answer)
    (h : (s.choosePath answers side path).path? = some chosen) :
    Schema.find? nodes chosen = Schema.find? nodes path := by
  unfold choosePath at h
  split at h
  · simp only at h
    split at h
    · simp at h
    · rename_i answer hanswer
      split at h
      · simp only [Option.some.injEq] at h
        rw [h]
      · simp only [Option.some.injEq] at h
        rw [← h]
        apply Schema.find?_splice
        intro filter hread
        exact Filter.isBalanced_of_no_bracket (hanswers answer hanswer filter hread)
  · simp only [Option.some.injEq] at h
    rw [h]

theorem Refers.clickInput (h : s.Refers) {answers : Answers} {path : String}
    (hanswers : ∀ answer, answers.filter (s.filterQuestion .input path) = some answer →
      IsPlainAnswer answer)
    (hclick : (s.clickInput answers path).result = .ok t) : t.Refers := by
  unfold State.clickInput at hclick
  split at hclick
  · simp at hclick
  · rename_i node hnode
    simp only at hclick
    split at hclick
    · rename_i source hsource
      simp only [Except.ok.injEq] at hclick
      subst hclick
      apply h.select_pending
      rw [find?_choosePath s.inputSchema hanswers hsource, hnode]
      exact Option.some_ne_none node
    · simp only [Except.ok.injEq] at hclick
      exact hclick ▸ h

theorem Refers.addDirect (h : s.Refers) {base outputPath source : String}
    (houtput : Schema.find? s.outputSchema outputPath ≠ none)
    (hsource : Schema.find? s.inputSchema source ≠ none)
    (hadd : s.addDirect base outputPath source = .ok t) : t.Refers := by
  unfold State.addDirect at hadd
  split at hadd
  · simp at hadd
  · rename_i mapping hmapping
    simp only [Except.ok.injEq] at hadd
    subst hadd
    have hadded : (s.setMapping mapping).Refers := by
      refine h.add hmapping houtput ?_
      intro path heq
      obtain rfl : source = path := by simpa using heq
      exact hsource
    exact hadded.select_idle

theorem Refers.addConstant (h : s.Refers) {base outputPath value : String}
    (houtput : Schema.find? s.outputSchema outputPath ≠ none)
    (hadd : s.addConstant base outputPath value = .ok t) : t.Refers := by
  unfold State.addConstant at hadd
  split at hadd
  · simp at hadd
  · rename_i mapping hmapping
    simp only [Except.ok.injEq] at hadd
    subst hadd
    exact h.add hmapping houtput (by simp)

theorem Refers.clickForConstant (h : s.Refers) {answers : Answers} {base path : String}
    (hanswers : ∀ answer, answers.filter (s.filterQuestion .output path) = some answer →
      IsPlainAnswer answer)
    (hpath : Schema.find? s.outputSchema path ≠ none)
    (hclick : (s.clickForConstant answers base path).result = .ok t) : t.Refers := by
  unfold State.clickForConstant at hclick
  simp only at hclick
  split at hclick
  · simp only [Except.ok.injEq] at hclick
    exact hclick ▸ h
  · rename_i outputPath hchosen
    split at hclick
    · simp only [Except.ok.injEq] at hclick
      exact hclick ▸ h
    · split at hclick
      · simp only [Except.ok.injEq] at hclick
        exact hclick ▸ h
      · have houtput : Schema.find? s.outputSchema outputPath ≠ none := by
          rw [find?_choosePath s.outputSchema hanswers hchosen]
          exact hpath
        exact h.addConstant houtput hclick

theorem Refers.clickOutput (h : s.Refers) {answers : Answers} {base path : String}
    (hanswers : ∀ answer, answers.filter (s.filterQuestion .output path) = some answer →
      IsPlainAnswer answer)
    (hclick : (s.clickOutput answers base path).result = .ok t) : t.Refers := by
  unfold State.clickOutput at hclick
  split at hclick
  · simp at hclick
  · rename_i node hnode
    have hpath : Schema.find? s.outputSchema path ≠ none := by
      rw [hnode]
      exact Option.some_ne_none node
    split at hclick
    · rename_i source hpending
      have houtput : Schema.find? s.outputSchema
          ((s.choosePath answers .output path).path?.getD path) ≠ none := by
        cases hchosen : (s.choosePath answers .output path).path? with
        | none => exact hpath
        | some chosen =>
          rw [Option.getD_some, find?_choosePath s.outputSchema hanswers hchosen]
          exact hpath
      exact h.addDirect houtput (h.pending source hpending) hclick
    · exact h.clickForConstant hanswers hpath hclick

end State

/-! ### Runs -/

/-- **Every operation of a user keeps the paths found.** -/
theorem State.Refers.perform {s t : State} (h : s.Refers) {operation : Operation}
    (huser : ByUser s operation) (hperform : s.perform operation = .ok t) : t.Refers := by
  cases operation with
  | load side text => exact h.load hperform
  | setFormat side format =>
    obtain rfl : s.setFormat side format = t := by simpa [State.perform] using hperform
    cases side with
    | input => exact h.of_same rfl rfl rfl rfl
    | output => exact h.of_same rfl rfl rfl rfl
  | setNotes notes =>
    obtain rfl : s.setNotes notes = t := by simpa [State.perform] using hperform
    exact h.of_same rfl rfl rfl rfl
  | setCopiesInput copies =>
    obtain rfl : s.setCopiesInput copies = t := by simpa [State.perform] using hperform
    exact h.of_same rfl rfl rfl rfl
  | select selection => exact huser.elim
  | setMapping mapping => exact huser.elim
  | deleteRule id =>
    obtain rfl : s.deleteRule id = t := by simpa [State.perform] using hperform
    exact h.deleteRule id
  | clickInput answers path => exact h.clickInput huser hperform
  | clickOutput answers base path => exact h.clickOutput huser hperform
  | generateScript =>
    simp only [State.perform, State.generateScript] at hperform
    split at hperform
    · simp only [Except.ok.injEq] at hperform
      subst hperform
      exact h.of_same rfl rfl rfl rfl
    · simp at hperform
  | generateStylesheet =>
    simp only [State.perform, State.generateStylesheet] at hperform
    split at hperform
    · simp only [Except.ok.injEq] at hperform
      subst hperform
      exact h.of_same rfl rfl rfl rfl
    · simp at hperform

/-- **The paths in a session lead somewhere.**  In every state that a user reaches, the paths of all
rules and of the selection are found in the schemas of their sides. -/
theorem Reachable.refers {config : Config} {s : State} (h : Reachable ByUser config s) :
    s.Refers :=
  h.invariant (State.refers_start config) fun _ _ _ hrefers huser hperform =>
    hrefers.perform huser hperform

/-- A rule and a selection whose paths carry filters that were given as answers. -/
theorem refers_after_clicks :
    let loaded := ((((State.start .default).after (.setFormat .input .json)).after
      (.load .input "\x7b\"i\":[\x7b\"@_k\":\"1\"\x7d]\x7d")).after
      (.load .output "\x7b\"o\":\"1\"\x7d")).after (.setFormat .input .xml)
    let clicked := ((loaded.after (.clickInput ⟨fun _ => some "@k='2'", fun _ => none⟩ "i.@_k")).after
      (.clickOutput ⟨fun _ => none, fun _ => none⟩ "1" "o")).after
      (.clickInput ⟨fun _ => some " @k = '1' ", fun _ => none⟩ "i.@_k")
    clicked.mapping.rules = [⟨"1", "o", .direct "i[@k='2'].@_k"⟩] ∧
      clicked.selection = .pending "i[@k='1'].@_k" ∧ clicked.Refers := by
  intro loaded clicked
  have hinput : Json.Value.read "\x7b\"i\":[\x7b\"@_k\":\"1\"\x7d]\x7d"
      = .ok (.object [("i", .array [.object [("@_k", .string "1")]])]) := by cbv
  have houtput : Json.Value.read "\x7b\"o\":\"1\"\x7d"
      = .ok (.object [("o", .string "1")]) := by cbv
  have hloaded : loaded =
      { State.start .default with
        inputSchema := Schema.infer (.object [("i", .array [.object [("@_k", .string "1")]])])
        outputSchema := Schema.infer (.object [("o", .string "1")]) } := by
    have hreadInput := Document.read_json_of_ok hinput
    have hreadOutput := Document.read_json_of_ok houtput
    simp [loaded, State.after, State.perform, State.load, State.setFormat, State.start,
      State.format, hreadInput, hreadOutput, Config.default]
  have hplain : ∀ value answer, value.toList.all (fun c => c != '[' && c != ']') = true →
      Filter.read? (Text.trim answer) = some ⟨"k", value⟩ → IsPlainAnswer answer := by
    intro value answer hchars hread filter hfilter c hc
    rw [Filter.read?, hfilter] at hread
    obtain rfl : filter = ⟨"k", value⟩ := Option.some.inj hread
    simpa using List.all_eq_true.1 hchars c hc
  have hreached : Reachable ByUser .default clicked := by
    refine .step (.step (.step (.step (.step (.step (.step .start ?_) ?_) ?_) ?_) ?_) ?_) ?_
    · exact trivial
    · exact trivial
    · exact trivial
    · exact trivial
    · intro answer hanswer
      obtain rfl : "@k='2'" = answer := by simpa using hanswer
      exact hplain "2" _ (by decide) (by decide +kernel)
    · intro answer hanswer
      simp at hanswer
    · intro answer hanswer
      obtain rfl : " @k = '1' " = answer := by simpa using hanswer
      exact hplain "1" _ (by decide) (by decide +kernel)
  refine ⟨?_, ?_, hreached.refers⟩
  · simp only [clicked, hloaded]
    decide +kernel
  · simp only [clicked, hloaded]
    decide +kernel

end Crosswalk.Session
