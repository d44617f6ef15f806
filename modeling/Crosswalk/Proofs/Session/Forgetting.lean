import Crosswalk.Proofs.Session.Protocol

/-!
# A new sample makes a session forget

Rules and generated texts are made for the samples that are loaded.  When a sample is loaded on
either side, both are dropped; so whatever a session holds was put there by an operation after the
last sample, and a generated text is that of a state since then.

* `Effect` and `effect_after` : all that an operation can do to the rules and the generated texts.
* `exists_step_since_load` : what is missing at the start and after every sample, but is held later,
  came by an operation since the last sample.
* `younger_than_samples` : the rules and the texts of every state of every run.
-/

namespace Crosswalk.Session

/-! ### Artifacts -/

/-- The text of an artifact, if it has been generated. -/
def Generated.text? (g : Generated) : Artifact → Option String
  | .script => g.script
  | .stylesheet => g.stylesheet

@[simp] theorem Generated.text?_none (artifact : Artifact) :
    (⟨none, none⟩ : Generated).text? artifact = none := by
  cases artifact <;> rfl

/-- Whether an artifact can be made in a state. -/
def State.offers (s : State) : Artifact → Bool
  | .script => s.canScript
  | .stylesheet => s.canStylesheet

/-- The text of an artifact for the rules and settings of a state. -/
def State.textOf (s : State) : Artifact → String
  | .script => s.script.text
  | .stylesheet => s.stylesheet.text

/-- The operation that generates an artifact. -/
def Operation.generate : Artifact → Operation
  | .script => .generateScript
  | .stylesheet => .generateStylesheet

/-! ### One operation -/

/-- All that an operation can do to the rules and the generated texts of a state. -/
inductive Effect (s : State) : Operation → State → Prop
  /-- The operation fails, or changes something else. -/
  | keeps {operation : Operation} {t : State} (hmapping : t.mapping = s.mapping)
      (hgenerated : t.generated = s.generated) : Effect s operation t
  | loads {side : Side} {text : String} {t : State} (hmapping : t.mapping = .empty)
      (hgenerated : t.generated = ⟨none, none⟩) : Effect s (.load side text) t
  | puts {mapping : Mapping} : Effect s (.setMapping mapping) (s.setMapping mapping)
  | removes {id : String} : Effect s (.deleteRule id) (s.deleteRule id)
  | appends {answers : Answers} {base path : String} {r : Rule} {t : State}
      (hrules : t.mapping.rules = s.mapping.rules ++ [r]) (hgenerated : t.generated = s.generated) :
      Effect s (.clickOutput answers base path) t
  | generates {artifact : Artifact} {t : State} (hoffers : s.offers artifact = true)
      (hmapping : t.mapping = s.mapping)
      (htext : t.generated.text? artifact = some (s.textOf artifact))
      (hothers : ∀ other, other ≠ artifact → t.generated.text? other = s.generated.text? other) :
      Effect s (.generate artifact) t

/-- Clicks generate nothing. -/
theorem Turn.generated {s t : State} {click : FieldClick} (h : Turn s click t) :
    t.generated = s.generated := by
  cases h with
  | nothing => rfl
  | selects => rfl
  | direct => rfl
  | constant => rfl

namespace State

theorem after_load_of_ok {s t : State} {side : Side} {text : String}
    (h : s.load side text = .ok t) : s.after (.load side text) = t := by
  simp [after, perform, h]

/-- A sample that cannot be loaded changes nothing. -/
theorem after_load_of_error {s : State} {side : Side} {text : String} {fault : Fault}
    (h : s.load side text = .error fault) : s.after (.load side text) = s := by
  simp [after, perform, h]

variable (s : State)

theorem effect_load (side : Side) (text : String) :
    Effect s (.load side text) (s.after (.load side text)) := by
  cases hload : s.load side text with
  | error fault =>
    rw [after_load_of_error hload]
    exact .keeps rfl rfl
  | ok t =>
    obtain ⟨hmapping, hgenerated⟩ := load_isOk hload
    rw [after_load_of_ok hload]
    exact .loads hmapping hgenerated

theorem effect_clickOutput (answers : Answers) (base path : String) :
    Effect s (.clickOutput answers base path) (s.after (.clickOutput answers base path)) := by
  have hturn := s.turn_clickOutput answers base path
  rcases hturn.appends with hsame | ⟨r, hrules⟩
  · exact .keeps hsame hturn.generated
  · exact .appends hrules hturn.generated

theorem effect_generate (artifact : Artifact) :
    Effect s (.generate artifact) (s.after (.generate artifact)) := by
  cases hoffers : s.offers artifact with
  | false =>
    have hafter : s.after (.generate artifact) = s := by
      cases artifact <;>
        simp_all [offers, Operation.generate, after, perform, generateScript, generateStylesheet]
    rw [hafter]
    exact .keeps rfl rfl
  | true =>
    cases artifact with
    | script =>
      have hcan : s.canScript = true := hoffers
      have hafter : s.after .generateScript
          = { s with generated := { s.generated with script := some s.script.text } } := by
        simp [after, perform, generateScript, hcan]
      rw [Operation.generate, hafter]
      refine .generates hoffers rfl rfl ?_
      intro other hother
      cases other with
      | script => exact absurd rfl hother
      | stylesheet => rfl
    | stylesheet =>
      have hcan : s.canStylesheet = true := hoffers
      have hafter : s.after .generateStylesheet
          = { s with generated := { s.generated with stylesheet := some s.stylesheet.text } } := by
        simp [after, perform, generateStylesheet, hcan]
      rw [Operation.generate, hafter]
      refine .generates hoffers rfl rfl ?_
      intro other hother
      cases other with
      | script => rfl
      | stylesheet => exact absurd rfl hother

/-- **One operation.**  Every operation does one of the things that an operation can do. -/
theorem effect_after (operation : Operation) : Effect s operation (s.after operation) := by
  cases operation with
  | load side text => exact s.effect_load side text
  | setFormat side format => cases side <;> exact .keeps rfl rfl
  | setNotes notes => exact .keeps rfl rfl
  | setCopiesInput copies => exact .keeps rfl rfl
  | select selection => exact .keeps rfl rfl
  | setMapping mapping => exact .puts
  | deleteRule id => exact .removes
  | clickInput answers path =>
    have hturn := s.turn_clickInput answers path
    exact .keeps hturn.mapping_of_input hturn.generated
  | clickOutput answers base path => exact s.effect_clickOutput answers base path
  | generateScript => exact s.effect_generate .script
  | generateStylesheet => exact s.effect_generate .stylesheet

end State

/-- Whether an operation brings a rule in: with a whole mapping, or by a click that makes it. -/
inductive Adds (s : State) (r : Rule) : Operation → Prop
  | puts {mapping : Mapping} (h : r ∈ mapping.rules) : Adds s r (.setMapping mapping)
  | makes {answers : Answers} {base path : String}
      (h : (s.after (.clickOutput answers base path)).mapping.rules = s.mapping.rules ++ [r]) :
      Adds s r (.clickOutput answers base path)

section Effects

variable {s : State} {operation : Operation}

/-- **A rule that is new** was brought in by the operation. -/
theorem adds_of_new {r : Rule} (hold : r ∉ s.mapping.rules)
    (hnew : r ∈ (s.after operation).mapping.rules) : Adds s r operation := by
  have heffect := s.effect_after operation
  generalize hafter : s.after operation = t at heffect hnew
  cases heffect with
  | keeps hmapping => exact absurd (hmapping ▸ hnew) hold
  | loads hmapping =>
    rw [hmapping] at hnew
    cases hnew
  | puts => exact .puts hnew
  | removes => exact absurd (List.mem_filter.1 hnew).1 hold
  | @appends answers base path made _ hrules =>
    rw [hrules] at hnew
    rcases List.mem_append.1 hnew with hbefore | hmade
    · exact absurd hbefore hold
    · obtain rfl := List.mem_singleton.1 hmade
      exact .makes (hafter ▸ hrules)
  | generates _ hmapping => exact absurd (hmapping ▸ hnew) hold

/-- **A text that is new** was generated by the operation, for the state that it was used in. -/
theorem text_of_new {artifact : Artifact} {text : String}
    (hold : s.generated.text? artifact ≠ some text)
    (hnew : (s.after operation).generated.text? artifact = some text) :
    operation = .generate artifact ∧ s.offers artifact = true ∧ text = s.textOf artifact := by
  have heffect := s.effect_after operation
  generalize s.after operation = t at heffect hnew
  cases heffect with
  | keeps _ hgenerated => exact absurd (hgenerated ▸ hnew) hold
  | loads _ hgenerated =>
    rw [hgenerated, Generated.text?_none] at hnew
    cases hnew
  | puts => exact absurd hnew hold
  | removes => exact absurd hnew hold
  | appends _ hgenerated => exact absurd (hgenerated ▸ hnew) hold
  | @generates made _ hoffers _ htext hothers =>
    by_cases hmade : artifact = made
    · subst hmade
      exact ⟨rfl, hoffers, Option.some.inj (hnew.symm.trans htext)⟩
    · exact absurd ((hothers artifact hmade).symm.trans hnew) hold

end Effects

/-! ### Runs -/

/-- Whether an operation loads a sample and does not fail. -/
def State.Loads (s : State) : Operation → Prop
  | .load side text => ∃ t, s.load side text = .ok t
  | _ => False

/-- Nothing that a sample was mapped or generated for is left after the next one. -/
theorem State.Loads.forgets {s : State} {operation : Operation} (h : s.Loads operation) :
    (s.after operation).mapping = .empty ∧ (s.after operation).generated = ⟨none, none⟩ := by
  cases operation with
  | load side text =>
    obtain ⟨t, ht⟩ := h
    rw [State.after_load_of_ok ht]
    exact State.load_isOk ht
  | _ => exact h.elim

section Runs

variable (config : Config) (operations : Nat → Operation)

/-- The state of a run after its first `k` operations. -/
def stateAfter : Nat → State
  | 0 => .start config
  | k + 1 => (stateAfter k).after (operations k)

/-- Whether the operation with the number `k` comes after every sample that is loaded by the first
`n` operations of a run. -/
def SinceLoads (n k : Nat) : Prop :=
  ∀ j, j < n → (stateAfter config operations j).Loads (operations j) → j < k

variable {config operations}

/-- **Since the last sample.**  What is missing at the start and after every sample, but is held
later, came by an operation since the last sample, and has been held since. -/
theorem exists_step_since_load (holds : State → Prop) (hstart : ¬ holds (.start config))
    (hloads : ∀ s operation, State.Loads s operation → ¬ holds (s.after operation)) {n : Nat}
    (h : holds (stateAfter config operations n)) :
    ∃ k, k < n ∧ SinceLoads config operations n k ∧ ¬ holds (stateAfter config operations k) ∧
      ∀ i, k < i → i ≤ n → holds (stateAfter config operations i) := by
  -- What is held after one more operation was held before it, or came by it; in both cases the
  -- operation has not loaded a sample.
  induction n with
  | zero => exact absurd h hstart
  | succ n ih =>
    have hno : ¬ (stateAfter config operations n).Loads (operations n) :=
      fun hload => hloads _ _ hload h
    by_cases hbefore : holds (stateAfter config operations n)
    · obtain ⟨k, hk, hsince, hmissing, hheld⟩ := ih hbefore
      refine ⟨k, Nat.lt_succ_of_lt hk, ?_, hmissing, ?_⟩
      · intro j hj hload
        rcases Nat.lt_succ_iff_lt_or_eq.1 hj with hlt | rfl
        · exact hsince j hlt hload
        · exact absurd hload hno
      · intro i hi hn
        rcases Nat.le_succ_iff.1 hn with hle | rfl
        · exact hheld i hi hle
        · exact h
    · refine ⟨n, Nat.lt_succ_self n, ?_, hbefore, ?_⟩
      · intro j hj hload
        rcases Nat.lt_succ_iff_lt_or_eq.1 hj with hlt | rfl
        · exact hlt
        · exact absurd hload hno
      · intro i hi hn
        obtain rfl : i = n + 1 := by omega
        exact h

end Runs

/-- **Nothing is older than the samples.**  After any number of operations of any run, every rule
was brought in by an operation since the last sample on either side, and has been there since; a
script or a stylesheet that is there was generated since then, in a state that allowed it, and is
the one for the rules and settings of that state.  A sample that cannot be loaded changes
nothing. -/
theorem younger_than_samples (config : Config) (operations : Nat → Operation) (n : Nat) :
    (∀ r ∈ (stateAfter config operations n).mapping.rules,
      ∃ k, k < n ∧ SinceLoads config operations n k ∧
        r ∉ (stateAfter config operations k).mapping.rules ∧
        Adds (stateAfter config operations k) r (operations k) ∧
        ∀ i, k < i → i ≤ n → r ∈ (stateAfter config operations i).mapping.rules) ∧
      (∀ artifact text, (stateAfter config operations n).generated.text? artifact = some text →
        ∃ k, k < n ∧ SinceLoads config operations n k ∧ operations k = .generate artifact ∧
          (stateAfter config operations k).offers artifact = true ∧
          text = (stateAfter config operations k).textOf artifact) ∧
      ∀ side text fault, operations n = .load side text →
        (stateAfter config operations n).load side text = .error fault →
          stateAfter config operations (n + 1) = stateAfter config operations n := by
  refine ⟨?_, ?_, ?_⟩
  · intro r hr
    have hstart : r ∉ (State.start config).mapping.rules := List.not_mem_nil
    have hloads : ∀ s operation, State.Loads s operation →
        r ∉ (s.after operation).mapping.rules := by
      intro s operation hload
      rw [hload.forgets.1]
      exact List.not_mem_nil
    obtain ⟨k, hk, hsince, hmissing, hheld⟩ :=
      exists_step_since_load (fun s => r ∈ s.mapping.rules) hstart hloads hr
    exact ⟨k, hk, hsince, hmissing, adds_of_new hmissing (hheld (k + 1) (Nat.lt_succ_self k) hk),
      hheld⟩
  · intro artifact text htext
    have hstart : (State.start config).generated.text? artifact ≠ some text := by
      simp [State.start]
    have hloads : ∀ s operation, State.Loads s operation →
        (s.after operation).generated.text? artifact ≠ some text := by
      intro s operation hload
      simp [hload.forgets.2]
    obtain ⟨k, hk, hsince, hmissing, hheld⟩ :=
      exists_step_since_load (fun s => s.generated.text? artifact = some text) hstart hloads htext
    exact ⟨k, hk, hsince, text_of_new hmissing (hheld (k + 1) (Nat.lt_succ_self k) hk)⟩
  · intro side text fault hoperation hfails
    rw [stateAfter, hoperation, State.after_load_of_error hfails]

/-- A run in which a rule and a script are forgotten with a new sample, and a sample that cannot be
loaded takes nothing away. -/
theorem younger_after_reload :
    let first : Rule := ⟨"1", "o", .constant "x"⟩
    let second : Rule := ⟨"2", "o", .constant "y"⟩
    let operations : Nat → Operation := fun k =>
      [.setMapping ⟨[first]⟩, .generateScript, .load .output "\x7b\"o\":\"1\"\x7d",
        .setMapping ⟨[second]⟩, .load .output "\x7b"].getD k .generateScript
    let run := stateAfter .default operations
    ((run 2).mapping = ⟨[first]⟩ ∧ (run 2).generated.script.isSome) ∧
      ((run 3).mapping = .empty ∧ (run 3).generated.script = none) ∧
      (run 5).mapping = ⟨[second]⟩ ∧
      ∃ k, k < 5 ∧ SinceLoads .default operations 5 k ∧ Adds (run k) second (operations k) := by
  intro first second operations run
  have hread : Json.Value.read "\x7b\"o\":\"1\"\x7d" = .ok (.object [("o", .string "1")]) := by
    cbv
  have hdocument := Document.read_json_of_ok hread
  have hfails : (Json.Value.read "\x7b").isOk = false := by decide +kernel
  obtain ⟨fault, hfault⟩ : ∃ fault, Document.read .json "\x7b" = .error fault := by
    rw [Document.read_json]
    cases hbroken : Json.Value.read "\x7b" with
    | error cause => exact ⟨_, rfl⟩
    | ok v => rw [hbroken] at hfails; cases hfails
  have hgenerated : (run 2).mapping = ⟨[first]⟩ ∧ (run 2).generated.script.isSome := ⟨rfl, rfl⟩
  have hload : (run 2).load .output "\x7b\"o\":\"1\"\x7d"
      = .ok { run 2 with
          mapping := .empty, generated := ⟨none, none⟩,
          outputSchema := Schema.infer (.object [("o", .string "1")]) } := by
    have hformat : (run 2).format .output = .json := rfl
    simp only [State.load, hformat, hdocument]
  have hthird : run 3 = { run 2 with
      mapping := .empty, generated := ⟨none, none⟩,
      outputSchema := Schema.infer (.object [("o", .string "1")]) } :=
    State.after_load_of_ok hload
  have hloaded : (run 3).mapping = .empty ∧ (run 3).generated.script = none := by
    rw [hthird]
    exact ⟨rfl, rfl⟩
  have hfailing : (run 4).load .output "\x7b" = .error (.document fault) := by
    have hformat : (run 4).format .output = .json := by
      rw [show run 4 = (run 3).setMapping ⟨[second]⟩ from rfl, hthird]
      rfl
    simp only [State.load, hformat, hfault]
  have hlast : (run 5).mapping = ⟨[second]⟩ := by
    have hsame : run 5 = run 4 :=
      (younger_than_samples .default operations 4).2.2 _ _ _ rfl hfailing
    rw [hsame]
    rfl
  have hmem : second ∈ (run 5).mapping.rules := by
    rw [hlast]
    exact List.mem_cons_self
  obtain ⟨k, hk, hsince, -, hadds, -⟩ := (younger_than_samples .default operations 5).1 second hmem
  exact ⟨hgenerated, hloaded, hlast, k, hk, hsince, hadds⟩

end Crosswalk.Session
