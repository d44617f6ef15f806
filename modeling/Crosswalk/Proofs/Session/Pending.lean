import Crosswalk.Proofs.Path.Readable
import Crosswalk.Proofs.Session.Protocol

/-!
# The path that waits

A click on an input field lets a path wait that nobody has read: it is the path that was clicked,
with the filter that was given for it.  Only the click that makes a rule of it reads it, and fails if
it cannot.  What decides is the filter: an answer is accepted whatever brackets its value has, but
the path can be read only if they match.

* `isUsable_clickInput_iff` : the answers after which the path that waits can be read.
* `Reachable.isUsable` : with such answers no rule is ever refused because of its source.
-/

namespace Crosswalk.Session

/-- Whether the path that waits, if one does, can be read. -/
def State.IsUsable (s : State) : Prop :=
  ∀ path, s.selection = .pending path → Path.IsReadable path

/-- Whether a filter that is given for an input field, and is put on its path, can be enclosed in
brackets there. -/
def State.FilterFits (s : State) (answers : Answers) (path : String) : Prop :=
  ∀ answer, s.asksForFilter .input path = true →
    answers.filter (s.filterQuestion .input path) = some answer →
      ∀ filter, Path.Adds path (Text.trim answer) filter → filter.IsEnclosable

/-- Whether what an operation lets wait can be read: input fields are clicked by such paths, and
their filters can be enclosed. -/
def Readably (s : State) : Operation → Prop
  | .select selection => (s.select selection).IsUsable
  | .clickInput answers path => Path.IsReadable path ∧ s.FilterFits answers path
  | _ => True

/-- Whether an operation loads a sample, sets a format or is a click. -/
def IsClickOrSample : Operation → Prop
  | .load _ _ => True
  | .setFormat _ _ => True
  | .clickInput _ _ => True
  | .clickOutput _ _ _ => True
  | _ => False

namespace State

variable {s t : State}

/-! ### One click -/

/-- The path that is chosen is the clicked one with the answer added to it. -/
theorem path?_choosePath (answers : Answers) (side : Side) (path : String) :
    (s.choosePath answers side path).path? =
      if s.asksForFilter side path then
        (answers.filter (s.filterQuestion side path)).map fun answer =>
          (Path.splice path (Text.trim answer)).1
      else some path := by
  unfold choosePath
  split
  · simp only
    cases answers.filter (s.filterQuestion side path) with
    | none => rfl
    | some answer =>
      by_cases hblank : Text.isBlankText answer = true
      · have htrimmed : Text.isBlankText (Text.trim answer) = true := by
          rw [Text.isBlankText, Text.trim, (Text.trimChars_eq_nil_iff answer.toList).2 hblank]
          rfl
        simp [hblank, Path.splice_blank path htrimmed]
      · simp [hblank]
  · rfl

/-- **A click on an input field** that is there leaves a path to wait that can be read exactly if the
filter that is given for it fits. -/
theorem isUsable_clickInput_iff (hs : s.IsUsable) {path : String} (hpath : Path.IsReadable path)
    (hfound : Schema.find? s.inputSchema path ≠ none) (answers : Answers) :
    (s.after (.clickInput answers path)).IsUsable ↔ s.FilterFits answers path := by
  obtain ⟨node, hnode⟩ := Option.ne_none_iff_exists'.1 hfound
  have hchosen := path?_choosePath (s := s) answers .input path
  by_cases hasks : s.asksForFilter .input path = true
  · rw [if_pos hasks] at hchosen
    cases hanswer : answers.filter (s.filterQuestion .input path) with
    | none =>
      rw [hanswer, Option.map_none] at hchosen
      have hsame : s.after (.clickInput answers path) = s := by
        simp [after, perform, clickInput, hnode, hchosen]
      rw [hsame]
      refine iff_of_true hs ?_
      intro answer _ hgiven
      rw [hanswer] at hgiven
      cases hgiven
    | some answer =>
      rw [hanswer, Option.map_some] at hchosen
      have hwaits : s.after (.clickInput answers path)
          = s.select (.pending (Path.splice path (Text.trim answer)).1) := by
        simp [after, perform, clickInput, hnode, hchosen]
      have hreads : (s.after (.clickInput answers path)).IsUsable ↔
          Path.IsReadable (Path.splice path (Text.trim answer)).1 := by
        rw [hwaits]
        simp [IsUsable, select]
      rw [hreads, Path.isReadable_splice_iff hpath]
      simp [FilterFits, hasks, hanswer]
  · rw [if_neg hasks] at hchosen
    have hwaits : s.after (.clickInput answers path) = s.select (.pending path) := by
      simp [after, perform, clickInput, hnode, hchosen]
    rw [hwaits]
    refine iff_of_true ?_ (fun answer hyes => absurd hyes hasks)
    intro other heq
    obtain rfl : path = other := by simpa [select] using heq
    exact hpath

/-- A rule is refused because of its source only if that is a path that cannot be read. -/
theorem add_ne_sourcePath {m : Mapping} {r : Rule}
    (h : ∀ path, r.source = .direct path → Path.IsReadable path) (source : String)
    (cause : Path.Fault) : m.add r ≠ .error (.sourcePath source cause) := by
  intro hadd
  unfold Mapping.add at hadd
  cases hcheck : r.check with
  | ok _ =>
    rw [hcheck] at hadd
    simp only at hadd
    split at hadd
    · simp at hadd
    · simp at hadd
  | error fault =>
    rw [hcheck] at hadd
    simp only [Except.error.injEq] at hadd
    subst hadd
    unfold Rule.check at hcheck
    split at hcheck
    · simp at hcheck
    · split at hcheck
      · rename_i path hsource
        obtain ⟨p, hp⟩ := h path hsource
        simp [hp] at hcheck
      · split at hcheck <;> simp at hcheck

/-- A click on an output field is not refused because of the path that waits, if that can be
read. -/
theorem IsUsable.clickOutput_ne (hs : s.IsUsable) (answers : Answers) (base path source : String)
    (cause : Path.Fault) :
    (s.clickOutput answers base path).result ≠ .error (.mapping (.sourcePath source cause)) := by
  intro hclick
  unfold State.clickOutput at hclick
  split at hclick
  · simp at hclick
  · cases hselection : s.selection with
    | pending waiting =>
      rw [hselection] at hclick
      simp only [addDirect, Mapping.addDirect] at hclick
      split at hclick
      · rename_i fault hadd
        obtain rfl : fault = .sourcePath source cause := by simpa using hclick
        refine add_ne_sourcePath ?_ source cause hadd
        intro other heq
        obtain rfl : waiting = other := by simpa using heq
        exact hs waiting hselection
      · simp at hclick
    | idle =>
      rw [hselection] at hclick
      simp only [clickForConstant] at hclick
      split at hclick
      · simp at hclick
      · split at hclick
        · simp at hclick
        · split at hclick
          · simp at hclick
          · simp only [addConstant, Mapping.addConstant] at hclick
            split at hclick
            · rename_i fault hadd
              obtain rfl : fault = .sourcePath source cause := by simpa using hclick
              exact add_ne_sourcePath (by simp) source cause hadd
            · simp at hclick

/-! ### Runs -/

theorem IsUsable.of_same (hs : s.IsUsable) (h : t.selection = s.selection) : t.IsUsable := by
  rw [IsUsable, h]
  exact hs

theorem IsUsable.load (hs : s.IsUsable) {side : Side} {text : String}
    (h : s.load side text = .ok t) : t.IsUsable := by
  unfold State.load at h
  split at h
  · simp at h
  · cases side with
    | input =>
      obtain rfl := Except.ok.inj h
      intro path heq
      cases heq
    | output =>
      obtain rfl := Except.ok.inj h
      exact hs

theorem IsUsable.clickInput (hs : s.IsUsable) {answers : Answers} {path : String}
    (hpath : Path.IsReadable path) (hfits : s.FilterFits answers path)
    (h : (s.clickInput answers path).result = .ok t) : t.IsUsable := by
  have hfound : Schema.find? s.inputSchema path ≠ none := by
    intro hnone
    rw [clickInput_unknown hnone] at h
    cases h
  have hafter : s.after (.clickInput answers path) = t := by
    simp [after, perform, h]
  rw [← hafter]
  exact (isUsable_clickInput_iff hs hpath hfound answers).2 hfits

theorem IsUsable.clickOutput (hs : s.IsUsable) {answers : Answers} {base path : String}
    (h : (s.clickOutput answers base path).result = .ok t) : t.IsUsable := by
  have hafter : s.after (.clickOutput answers base path) = t := by
    simp [after, perform, h]
  have hturn := s.turn_clickOutput answers base path
  rw [hafter] at hturn
  intro waiting hwaiting
  rcases hturn.pending_inv hwaiting with hnew | ⟨-, hold⟩
  · cases hnew
  · exact hs waiting hold

/-- **Every operation keeps the path that waits readable**, if it lets no other wait. -/
theorem IsUsable.perform (hs : s.IsUsable) {operation : Operation} (hallowed : Readably s operation)
    (h : s.perform operation = .ok t) : t.IsUsable := by
  cases operation with
  | load side text => exact hs.load h
  | setFormat side format =>
    obtain rfl := Except.ok.inj h
    cases side with
    | input => exact hs.of_same rfl
    | output => exact hs.of_same rfl
  | setNotes notes =>
    obtain rfl := Except.ok.inj h
    exact hs.of_same rfl
  | setCopiesInput copies =>
    obtain rfl := Except.ok.inj h
    exact hs.of_same rfl
  | select selection =>
    obtain rfl := Except.ok.inj h
    exact hallowed
  | setMapping mapping =>
    obtain rfl := Except.ok.inj h
    exact hs.of_same rfl
  | deleteRule id =>
    obtain rfl := Except.ok.inj h
    exact hs.of_same rfl
  | clickInput answers path => exact hs.clickInput hallowed.1 hallowed.2 h
  | clickOutput answers base path => exact hs.clickOutput h
  | generateScript =>
    simp only [State.perform, generateScript] at h
    split at h
    · obtain rfl := Except.ok.inj h
      exact hs.of_same rfl
    · cases h
  | generateStylesheet =>
    simp only [State.perform, generateStylesheet] at h
    split at h
    · obtain rfl := Except.ok.inj h
      exact hs.of_same rfl
    · cases h

theorem isUsable_start (config : Config) : (start config).IsUsable := by
  intro path heq
  cases heq

end State

/-- **The path that waits can be used.**  If input fields are clicked by paths that can be read, and
the filters that are given for them fit, then in every state that is reached the path that waits can
be read, and no click on an output field is refused because of it. -/
theorem Reachable.isUsable {config : Config} {s : State} (h : Reachable Readably config s) :
    s.IsUsable ∧ ∀ answers base path source cause,
      (s.clickOutput answers base path).result ≠ .error (.mapping (.sourcePath source cause)) := by
  have husable : s.IsUsable :=
    h.invariant (State.isUsable_start config) fun _ _ _ hs hallowed hperform =>
      hs.perform hallowed hperform
  exact ⟨husable, husable.clickOutput_ne⟩

/-! ### A sample with attributes in an array -/

/-- A state with a sample on each side. -/
def sampled : State :=
  ((State.start .default).after (.load .input "<r><i k=\"1\">a</i><i/></r>")).after
    (.load .output "\x7b\"o\":\"1\"\x7d")

theorem sampled_eq : sampled =
    { State.start .default with
      inputSchema := Schema.infer (.object [("r", .object [("i", .array
        [.object [("@_k", .string "1"), ("#text", .string "a")], .string ""])])])
      outputSchema := Schema.infer (.object [("o", .string "1")]) } := by
  have hroot : Document.readMarkup "<r><i k=\"1\">a</i><i/></r>"
      = .ok ⟨⟨none, "r"⟩, [], [.element ⟨none, "i"⟩ [⟨⟨none, "k"⟩, "1"⟩] [.text "a"],
          .element ⟨none, "i"⟩ [] []]⟩ := by
    with_unfolding_all rfl
  have hinput : Document.read .xml "<r><i k=\"1\">a</i><i/></r>"
      = .ok (.object [("r", .object [("i", .array
          [.object [("@_k", .string "1"), ("#text", .string "a")], .string ""])])]) := by
    have hkey : Document.attributeKey "k" = "@_k" := by decide
    have htrim : Text.trim "a" = "a" := by with_unfolding_all rfl
    have hscalar : Document.scalarOfText "a" = .string "a" := by with_unfolding_all rfl
    have hempty : Document.scalarOfText "" = .string "" := by with_unfolding_all rfl
    rw [Document.read, hroot]
    simp [Except.map, Document.valueOfRoot, Document.elementValue, Document.childValues,
      Document.assembled, Document.attributeFields, Document.addChild, Document.ownText,
      Document.textKey, Fields.put, Fields.get?, Markup.Node.text?, List.filterMap, String.join,
      hkey, htrim, hscalar, hempty]
  have hjson : Json.Value.read "\x7b\"o\":\"1\"\x7d" = .ok (.object [("o", .string "1")]) := by
    cbv
  have houtput := Document.read_json_of_ok hjson
  simp [sampled, State.after, State.perform, State.load, State.start, State.format, hinput, houtput,
    Config.default]

/-- The answers of somebody who gives one filter whenever one is asked for. -/
def always (answer : String) : Answers :=
  ⟨fun _ => some answer, fun _ => none⟩

/-- A bracket in the value of a filter that is given for a field lets a path wait that cannot be
read, and the next click on an output field is refused because of it. -/
theorem unusable_after_bracket :
    let clicked := sampled.after (.clickInput (always "@k='['") "r.i.@_k")
    Reachable (fun _ => IsClickOrSample) .default clicked ∧
      clicked.selection = .pending "r.i[@k='['].@_k" ∧ ¬ clicked.IsUsable ∧
      Schema.find? clicked.outputSchema "o" ≠ none ∧
      (clicked.clickOutput (always "") "1" "o").result = .error (.mapping
        (.sourcePath "r.i[@k='['].@_k" (.unbalancedBrackets "r.i[@k='['].@_k"))) := by
  intro clicked
  have hreached : Reachable (fun _ => IsClickOrSample) .default clicked := by
    refine .step (.step (.step .start ?_) ?_) ?_
    · exact trivial
    · exact trivial
    · exact trivial
  have hwaits : clicked.selection = .pending "r.i[@k='['].@_k" := by
    simp only [clicked, sampled_eq]
    decide +kernel
  have hrefused : ¬ Path.IsReadable "r.i[@k='['].@_k" := by
    rw [Path.IsReadable, FieldPath.read_isOk_iff]
    intro hreads
    exact absurd hreads.2.1 (by decide)
  refine ⟨hreached, hwaits, fun husable => hrefused (husable _ hwaits), ?_, ?_⟩
  · simp only [clicked, sampled_eq]
    decide +kernel
  · simp only [clicked, sampled_eq]
    with_unfolding_all rfl

/-- A filter whose brackets match does no harm. -/
theorem isUsable_after_brackets :
    let clicked := sampled.after (.clickInput (always "@k='[1]'") "r.i.@_k")
    clicked.selection = .pending "r.i[@k='[1]'].@_k" ∧ Reachable Readably .default clicked ∧
      clicked.IsUsable ∧ ∀ answers base path source cause,
        (clicked.clickOutput answers base path).result
          ≠ .error (.mapping (.sourcePath source cause)) := by
  intro clicked
  have hpath : Path.IsReadable "r.i.@_k" := by
    rw [Path.IsReadable, FieldPath.read_isOk_iff]
    decide +kernel
  have hfits : sampled.FilterFits (always "@k='[1]'") "r.i.@_k" := by
    intro answer _ hanswer filter hadds
    obtain rfl : "@k='[1]'" = answer := Option.some.inj hanswer
    have hread : Filter.read? (Text.trim "@k='[1]'") = some ⟨"k", "[1]"⟩ := by decide +kernel
    rw [Filter.read?, hadds.spelled] at hread
    obtain rfl : filter = ⟨"k", "[1]"⟩ := Option.some.inj hread
    decide
  have hreached : Reachable Readably .default clicked := by
    refine .step (.step (.step .start ?_) ?_) ?_
    · exact trivial
    · exact trivial
    · exact ⟨hpath, hfits⟩
  refine ⟨?_, hreached, hreached.isUsable⟩
  simp only [clicked, sampled_eq]
  decide +kernel

end Crosswalk.Session
