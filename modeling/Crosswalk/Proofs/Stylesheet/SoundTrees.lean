import Crosswalk.Proofs.Path.Spelling
import Crosswalk.Proofs.Stylesheet.Places

/-!
# Sound trees of output fields

A tree of output fields is sound if on every level no two names are spelled alike, none of them is a
position, and every entry suits its name: a field without brackets has one rule, a field with
brackets has some, and a branch is not empty.  Whatever rule is put into a sound tree, the tree
stays sound; and a rule whose path leads through a field that is mapped changes nothing at all.

* `Level.IsSound.put` : writing one entry.
* `Level.IsSound.insert`, `Level.isSound_ofRules` : putting in one rule, and all rules of a list.
* `Level.insert_of_leadsThrough`, `Level.not_blocked_of_not_leadsThrough` : when a rule is given up.
-/

namespace Crosswalk.Stylesheet

/-! ### Sound trees -/

/-- Whether an entry suits the step that it stands under. -/
def Entry.Suits (step : Segment) : Entry → Prop
  | .leaf _ => step.brackets? = none
  | .fanout rules => step.brackets? ≠ none ∧ step.isAttribute = false ∧ rules ≠ []
  | .branch children => children ≠ []

/-- Whether a step can be the name of an entry: it is read again from its spelling, and it is no
position. -/
def IsKey (step : Segment) : Prop :=
  step.IsSpelled ∧ step.isIndex = false

/-- Only the name of an element has brackets. -/
theorem isAttribute_of_brackets? {step : Segment} (h : step.brackets? ≠ none) :
    step.isAttribute = false := by
  cases step with
  | element name brackets => rfl
  | _ => exact absurd rfl h

namespace Level

/-- Whether a level is as it has to be, apart from the levels below it. -/
structure IsOrderly (level : Level) : Prop where
  keys : ∀ step ∈ Fields.names level, IsKey step
  distinct : ((Fields.names level).map Segment.text).Nodup
  suited : ∀ e ∈ level, e.2.Suits e.1

/-- Whether a level and all levels below it are as they have to be. -/
inductive IsSound : Level → Prop
  | intro {level : Level} (orderly : level.IsOrderly)
      (below : ∀ step children, (step, Entry.branch children) ∈ level → IsSound children) :
      IsSound level

variable {level : Level} {step : Segment}

theorem IsSound.orderly (h : level.IsSound) : level.IsOrderly := by
  cases h
  assumption

theorem IsSound.children (h : level.IsSound) {below : Level}
    (hmem : (step, Entry.branch below) ∈ level) : IsSound below := by
  cases h with
  | intro _ hbelow => exact hbelow step below hmem

theorem isSound_nil : IsSound [] :=
  .intro ⟨by simp [Fields.names], by simp [Fields.names], by simp⟩ (by simp)

/-! ### Writing one entry -/

/-- Keys that are spelled alike are the same. -/
theorem mem_of_text_mem {names : List Segment} (hnames : ∀ name ∈ names, IsKey name)
    (hstep : IsKey step) (h : step.text ∈ names.map Segment.text) : step ∈ names := by
  obtain ⟨name, hname, heq⟩ := List.mem_map.1 h
  exact (hnames name hname).1.eq_of_text hstep.1 heq ▸ hname

theorem IsOrderly.put (h : level.IsOrderly) (hstep : IsKey step) {entry : Entry}
    (hentry : entry.Suits step) : IsOrderly (Fields.put step entry level) where
  keys name hname := by
    obtain ⟨e, he, rfl⟩ := List.mem_map.1 hname
    rcases Fields.mem_put he with rfl | hold
    · exact hstep
    · exact h.keys _ (List.mem_map_of_mem hold)
  distinct := by
    by_cases hmem : step ∈ Fields.names level
    · rw [Fields.names_put_of_mem entry hmem]
      exact h.distinct
    · rw [Fields.names_put_of_not_mem entry hmem, List.map_append, List.nodup_append]
      refine ⟨h.distinct, by simp, ?_⟩
      rintro text hold other hnew rfl
      obtain rfl : text = step.text := by simpa using hnew
      exact hmem (mem_of_text_mem h.keys hstep hold)
  suited e he := by
    rcases Fields.mem_put he with rfl | hold
    · exact hentry
    · exact h.suited e hold

/-- **Writing one entry** that suits its name leaves a level sound. -/
theorem IsSound.put (h : level.IsSound) (hstep : IsKey step) {entry : Entry}
    (hentry : entry.Suits step) (hbelow : ∀ children, entry = .branch children → IsSound children) :
    IsSound (Fields.put step entry level) := by
  refine .intro (h.orderly.put hstep hentry) ?_
  intro name children hmem
  rcases Fields.mem_put hmem with heq | hold
  · exact hbelow children (Prod.mk.inj heq).2.symm
  · exact h.children hold

/-! ### Putting in a rule -/

/-- No level is empty into which a rule was put. -/
theorem insert_ne_nil (rule : Rule) (step : Segment) (rest : List Segment) (level : Level) :
    (insert rule (step :: rest) level).1 ≠ [] := by
  cases rest with
  | nil =>
    unfold insert place
    split <;> exact Fields.put_ne_nil _ _ _
  | cons next rest =>
    rw [insert]
    · split
      · exact Fields.put_ne_nil _ _ _
      · rename_i hget
        exact List.ne_nil_of_mem (Fields.mem_of_get? hget)
      · exact Fields.put_ne_nil _ _ _
    · simp

/-- A rule placed at a field leaves the level sound, whatever stood there. -/
theorem IsSound.place (h : level.IsSound) (rule : Rule) (hstep : IsKey step) :
    IsSound (place rule step level).1 := by
  have hleaf : step.brackets? = none → IsSound (Fields.put step (.leaf rule) level) :=
    fun hplain => h.put hstep hplain (by simp)
  have hfanout : ∀ rules, step.brackets? ≠ none → rules ≠ [] →
      IsSound (Fields.put step (.fanout rules) level) :=
    fun rules hbrackets hrules =>
      h.put hstep ⟨hbrackets, isAttribute_of_brackets? hbrackets, hrules⟩ (by simp)
  unfold Level.place
  split
  · rename_i hbrackets _
    exact hfanout _ (by simp [hbrackets]) (by simp)
  · rename_i hbrackets _
    exact hfanout _ (by simp [hbrackets]) (by simp)
  · rename_i hplain _
    exact hleaf hplain
  · rename_i hplain _
    exact hleaf hplain

/-- **One more rule** leaves a level sound. -/
theorem IsSound.insert (h : level.IsSound) (rule : Rule) {steps : List Segment}
    (hsteps : ∀ step ∈ steps, IsKey step) : IsSound (insert rule steps level).1 := by
  induction steps generalizing level with
  | nil => exact h
  | cons step rest ih =>
    obtain ⟨hstep, hrest⟩ := List.forall_mem_cons.1 hsteps
    cases rest with
    | nil => exact h.place rule hstep
    | cons next rest =>
      have hbranch : ∀ children : Level, children.IsSound → IsSound
          (Fields.put step (.branch (Level.insert rule (next :: rest) children).1) level) := by
        intro children hchildren
        refine h.put hstep (insert_ne_nil rule next rest children) ?_
        intro below heq
        obtain rfl := Entry.branch.inj heq
        exact ih hchildren hrest
      rw [Level.insert]
      · split
        · rename_i children hget
          exact hbranch children (h.children (Fields.mem_of_get? hget))
        · exact h
        · exact hbranch [] isSound_nil
      · simp

/-- **The tree of a list of rules** is sound. -/
theorem isSound_ofRules (rules : List Rule) : IsSound (ofRules rules).1 := by
  induction rules using List.reverseRecOn with
  | nil => exact isSound_nil
  | append_singleton rules rule ih =>
    rw [ofRules_concat]
    refine ih.insert rule fun step hstep => ⟨Path.isSpelled_of_mem_namedSegments hstep, ?_⟩
    simpa using (List.mem_filter.1 hstep).2

/-! ### Rules that are given up -/

/-- Whether some steps lead through a field that is mapped: they go on behind an entry that is no
branch. -/
inductive LeadsThrough (field : Segment) : List Segment → Level → Prop
  | here {rest : List Segment} {level : Level} {entry : Entry} (hrest : rest ≠ [])
      (hget : Fields.get? field level = some entry)
      (hentry : ∀ children, entry ≠ .branch children) : LeadsThrough field (field :: rest) level
  | further {step : Segment} {rest : List Segment} {level children : Level}
      (hget : Fields.get? step level = some (.branch children))
      (h : LeadsThrough field rest children) : LeadsThrough field (step :: rest) level

variable {field : Segment}

/-- Nothing is in the way on an empty level. -/
theorem not_leadsThrough_nil (steps : List Segment) : ¬ LeadsThrough field steps [] := by
  intro h
  cases h with
  | here _ hget _ => cases hget
  | further hget _ => cases hget

theorem LeadsThrough.ne_nil {steps : List Segment} (h : LeadsThrough field steps level) :
    steps ≠ [] := by
  cases h <;> simp

/-- **A rule that is given up** changes nothing. -/
theorem insert_of_leadsThrough (rule : Rule) {steps : List Segment}
    (h : LeadsThrough field steps level) :
    insert rule steps level = (level, [.blocked rule.outputPath field rule.id]) := by
  induction h with
  | @here rest level entry hrest hget hentry =>
    rw [insert, hget]
    · cases entry with
      | branch children => exact absurd rfl (hentry children)
      | leaf rule => rfl
      | fanout rules => rfl
    · exact hrest
  | @further step rest level children hget h ih =>
    -- The branch is written back, with the level that it had before.
    rw [insert, hget]
    · simp [ih, Fields.put_of_get? hget]
    · exact h.ne_nil

/-- Where a rule can go, there is no notice that it was given up. -/
theorem not_blocked_of_not_leadsThrough (rule : Rule) {steps : List Segment}
    (h : ∀ field, ¬ LeadsThrough field steps level) (path : String) (step : Segment)
    (id : String) : Notice.blocked path step id ∉ (insert rule steps level).2 := by
  induction steps generalizing level with
  | nil => simp [insert]
  | cons first rest ih =>
    cases rest with
    | nil =>
      unfold insert place
      split <;> simp
    | cons next rest =>
      rw [insert]
      · split
        · rename_i children hget
          exact ih fun field hbelow => h field (.further hget hbelow)
        · rename_i entry hentry hget
          exact absurd (.here (by simp) hget hentry) (h first)
        · exact ih fun field => not_leadsThrough_nil (next :: rest)
      · simp

/-- **The tree of a list of rules** is sound.  A rule that is put into any tree is given up exactly
if its path leads through a field that is mapped; then there is a notice about it, and the tree is
what it was. -/
theorem sound_and_given_up (rules : List Rule) :
    IsSound (ofRules rules).1 ∧
      ∀ (rule : Rule) (level : Level),
        (∀ field, LeadsThrough field rule.steps level →
          insert rule rule.steps level = (level, [.blocked rule.outputPath field rule.id])) ∧
        ((∀ field, ¬ LeadsThrough field rule.steps level) →
          ∀ path field id, Notice.blocked path field id ∉ (insert rule rule.steps level).2) :=
  ⟨isSound_ofRules rules, fun rule _ =>
    ⟨fun _ hthrough => insert_of_leadsThrough rule hthrough,
      fun hfree => not_blocked_of_not_leadsThrough rule hfree⟩⟩

/-- A rule behind a field with brackets, below a branch that was there before, and one that is put
beside them. -/
theorem sound_and_given_up_below_branch :
    let rules : List Rule :=
      [⟨"1", "a.p[@t='1']", .constant "u"⟩, ⟨"2", "a.0.b.c", .constant "v"⟩,
       ⟨"3", "a.@_k", .constant "w"⟩]
    let tree := (ofRules rules).1
    let behind : Rule := ⟨"4", "a.p[@t='1'].q", .constant "x"⟩
    let beside : Rule := ⟨"5", "a.p.q", .constant "y"⟩
    let field : Segment := .element "p" (some "@t='1'")
    IsSound tree ∧
      (LeadsThrough field behind.steps tree ∧
        insert behind behind.steps tree = (tree, [.blocked behind.outputPath field behind.id])) ∧
      ((∀ field, ¬ LeadsThrough field beside.steps tree) ∧
        ∀ path field id, Notice.blocked path field id ∉ (insert beside beside.steps tree).2) := by
  intro rules tree behind beside field
  obtain ⟨hsound, hgiven⟩ := sound_and_given_up rules
  have hthrough : LeadsThrough field behind.steps tree := by
    have hsteps : behind.steps = [.element "a" none, field, .element "q" none] := by decide
    rw [hsteps]
    exact .further rfl (.here (List.cons_ne_nil _ _) rfl nofun)
  have hfree : ∀ field, ¬ LeadsThrough field beside.steps tree := by
    have hsteps : beside.steps = [.element "a" none, .element "p" none, .element "q" none] := by
      decide
    rw [hsteps]
    intro field h
    cases h with
    | here _ hget hentry =>
      cases hget
      exact hentry _ rfl
    | further hget h =>
      cases hget
      cases h with
      | here _ hget _ => cases hget
      | further hget _ => cases hget
  exact ⟨hsound, ⟨hthrough, (hgiven behind tree).1 field hthrough⟩,
    hfree, (hgiven beside tree).2 hfree⟩

end Level

end Crosswalk.Stylesheet
