import Crosswalk.Proofs.Fields
import Crosswalk.Stylesheet.Tree
import Mathlib.Data.List.Induction

/-!
# What a level shows of the rules sent to it

While the tree of output fields is built, each rule is on its way to a field, with some steps still
before it.  A level is described by the list of all rules that were sent to it, each with the steps
it had left there, and not by the order in which branches came and went: the names of its entries
are the first steps in order of first mention, a leaf is the last rule that arrived there, a fanout
all of them, and a branch stands where none arrived.

* `Level.Shows` : the description, level by level.
* `Level.Shows.insert` : one more rule changes a level as the description says.
* `Level.shows_ofRules` : so the tree of a list of rules is described by that list.
-/

namespace Crosswalk

/-- The named steps of the output path of a rule. -/
def Rule.steps (r : Rule) : List Segment :=
  Path.namedSegments r.outputPath

namespace Stylesheet

/-! ### Rules on their way -/

/-- A rule on its way to its field, with the steps that are still before it. -/
abbrev Sent : Type := List Segment × Rule

/-- The rules that have no step before them. -/
def arrived (sent : List Sent) : List Rule :=
  (sent.filter (·.1.isEmpty)).map Prod.snd

/-- A rule past its first step, if that is the given one. -/
def past? (step : Segment) : Sent → Option Sent
  | ([], _) => none
  | (first :: rest, rule) => if first = step then some (rest, rule) else none

/-- The rules whose first step is the given one, past that step. -/
def onward (step : Segment) (sent : List Sent) : List Sent :=
  sent.filterMap (past? step)

/-- The first steps of some rules, in the order in which they are first mentioned. -/
def firstSteps (sent : List Sent) : List Segment :=
  (sent.filterMap (·.1.head?)).eraseDups

section OneMore

variable (sent : List Sent) (rule : Rule) (step : Segment) (rest : List Segment)

theorem arrived_append (others : List Sent) :
    arrived (sent ++ others) = arrived sent ++ arrived others := by
  simp [arrived]

theorem onward_append (others : List Sent) :
    onward step (sent ++ others) = onward step sent ++ onward step others := by
  simp [onward]

@[simp] theorem arrived_stop : arrived [([], rule)] = [rule] := rfl

@[simp] theorem arrived_pass : arrived [(step :: rest, rule)] = [] := rfl

@[simp] theorem onward_self : onward step [(step :: rest, rule)] = [(rest, rule)] := by
  simp [onward, past?]

theorem onward_of_ne {other : Segment} (h : other ≠ step) :
    onward other [(step :: rest, rule)] = [] := by
  simp [onward, past?, h.symm]

theorem firstSteps_stop : firstSteps (sent ++ [([], rule)]) = firstSteps sent := by
  simp [firstSteps, List.filterMap_cons]

theorem onward_stop : onward step (sent ++ [([], rule)]) = onward step sent := by
  simp [onward, past?]

/-- A first step that was mentioned before keeps its place. -/
theorem firstSteps_of_mem (h : step ∈ firstSteps sent) :
    firstSteps (sent ++ [(step :: rest, rule)]) = firstSteps sent := by
  have hmem : step ∈ sent.filterMap (·.1.head?) := by
    simpa [firstSteps, List.mem_eraseDups] using h
  rw [firstSteps, List.filterMap_append]
  exact Fields.eraseDups_concat_of_mem hmem

/-- A first step that is new comes last. -/
theorem firstSteps_of_not_mem (h : step ∉ firstSteps sent) :
    firstSteps (sent ++ [(step :: rest, rule)]) = firstSteps sent ++ [step] := by
  have hmem : step ∉ sent.filterMap (·.1.head?) := by
    simpa [firstSteps, List.mem_eraseDups] using h
  rw [firstSteps, List.filterMap_append]
  exact Fields.eraseDups_concat_of_not_mem hmem

end OneMore

/-- A rule is sent on through a step exactly if its first step is that one. -/
theorem mem_onward {step : Segment} {steps : List Segment} {rule : Rule} {sent : List Sent} :
    (steps, rule) ∈ onward step sent ↔ (step :: steps, rule) ∈ sent := by
  rw [onward, List.mem_filterMap]
  constructor
  · rintro ⟨⟨steps', rule'⟩, hmem, hpast⟩
    cases steps' with
    | nil => simp [past?] at hpast
    | cons first rest =>
      simp only [past?] at hpast
      split at hpast
      · rename_i heq
        simp only [Option.some.injEq, Prod.mk.injEq] at hpast
        rw [← hpast.1, ← hpast.2, ← heq]
        exact hmem
      · simp at hpast
  · intro hmem
    exact ⟨_, hmem, by simp [past?]⟩

/-- A step is mentioned first exactly if a rule is sent through it. -/
theorem mem_firstSteps {step : Segment} {sent : List Sent} :
    step ∈ firstSteps sent ↔ ∃ steps rule, (step :: steps, rule) ∈ sent := by
  rw [firstSteps, List.mem_eraseDups, List.mem_filterMap]
  constructor
  · rintro ⟨⟨steps, rule⟩, hmem, hhead⟩
    cases steps with
    | nil => simp at hhead
    | cons first rest =>
      simp only [List.head?_cons, Option.some.injEq] at hhead
      exact ⟨rest, rule, hhead ▸ hmem⟩
  · rintro ⟨steps, rule, hmem⟩
    exact ⟨_, hmem, rfl⟩

/-- Nothing is sent through a step that is not mentioned. -/
theorem onward_of_not_mem {step : Segment} {sent : List Sent} (h : step ∉ firstSteps sent) :
    onward step sent = [] := by
  rw [List.eq_nil_iff_forall_not_mem]
  rintro ⟨steps, rule⟩ hmem
  exact h (mem_firstSteps.2 ⟨steps, rule, mem_onward.1 hmem⟩)

/-! ### What a level shows -/

/-- What stands under a step, by the rules that arrived there. -/
def Entry.Fits (step : Segment) (rules : List Rule) : Entry → Prop
  | .leaf rule => step.brackets? = none ∧ rules.getLast? = some rule
  | .fanout held => step.brackets? ≠ none ∧ held ≠ [] ∧ rules = held
  | .branch _ => rules = []

/-- **The description of a level** by the rules sent to it. -/
inductive Level.Shows : List Sent → Level → Prop
  | intro {sent : List Sent} {level : Level}
      (names : Fields.names level = firstSteps sent)
      (fits : ∀ step entry, Fields.get? step level = some entry →
        entry.Fits step (arrived (onward step sent)))
      (below : ∀ step children, Fields.get? step level = some (.branch children) →
        Level.Shows (onward step sent) children) : Level.Shows sent level

namespace Level

variable {sent : List Sent} {level : Level}

theorem Shows.names (h : Shows sent level) : Fields.names level = firstSteps sent := by
  cases h
  assumption

theorem Shows.fits (h : Shows sent level) {step : Segment} {entry : Entry}
    (hget : Fields.get? step level = some entry) :
    entry.Fits step (arrived (onward step sent)) := by
  cases h with
  | intro _ fits _ => exact fits step entry hget

theorem Shows.children (h : Shows sent level) {step : Segment} {below : Level}
    (hget : Fields.get? step level = some (.branch below)) :
    Shows (onward step sent) below := by
  cases h with
  | intro _ _ hbelow => exact hbelow step below hget

/-- Nothing is sent through a step that has no entry. -/
theorem Shows.onward_of_get?_none (h : Shows sent level) {step : Segment}
    (hget : Fields.get? step level = none) : onward step sent = [] := by
  apply onward_of_not_mem
  rw [← h.names]
  exact (Fields.get?_eq_none_iff step level).1 hget

/-- The empty level shows that no rule was sent. -/
theorem shows_nil : Shows [] [] := by
  refine .intro rfl ?_ ?_ <;> intro step _ hget <;> simp [Fields.get?] at hget

/-- A rule that has no step before it is not seen. -/
theorem Shows.stop (h : Shows sent level) (rule : Rule) : Shows (sent ++ [([], rule)]) level := by
  refine .intro ?_ ?_ ?_
  · rw [firstSteps_stop, h.names]
  · intro step entry hget
    rw [onward_stop]
    exact h.fits hget
  · intro step children hget
    rw [onward_stop]
    exact h.children hget

/-- **Writing one entry.**  When a rule is sent through a step, it is enough to write under that
step an entry that fits; all other entries stay as they are. -/
theorem Shows.put (h : Shows sent level) {step : Segment} {rest : List Segment} {rule : Rule}
    {entry : Entry}
    (hfits : entry.Fits step (arrived (onward step sent ++ [(rest, rule)])))
    (hbelow : ∀ children, entry = .branch children →
      Shows (onward step sent ++ [(rest, rule)]) children) :
    Shows (sent ++ [(step :: rest, rule)]) (Fields.put step entry level) := by
  refine .intro ?_ ?_ ?_
  · by_cases hmem : step ∈ firstSteps sent
    · rw [firstSteps_of_mem _ _ _ _ hmem, ← h.names, Fields.names_put_of_mem]
      exact h.names ▸ hmem
    · rw [firstSteps_of_not_mem _ _ _ _ hmem, ← h.names, Fields.names_put_of_not_mem]
      exact h.names ▸ hmem
  · intro other found hget
    by_cases hother : other = step
    · subst hother
      rw [Fields.get?_put_self, Option.some.injEq] at hget
      rw [onward_append, onward_self, ← hget]
      exact hfits
    · rw [Fields.get?_put_of_ne hother] at hget
      rw [onward_append, onward_of_ne _ _ _ hother, List.append_nil]
      exact h.fits hget
  · intro other children hget
    by_cases hother : other = step
    · subst hother
      rw [Fields.get?_put_self, Option.some.injEq] at hget
      rw [onward_append, onward_self]
      exact hbelow children hget
    · rw [Fields.get?_put_of_ne hother] at hget
      rw [onward_append, onward_of_ne _ _ _ hother, List.append_nil]
      exact h.children hget

/-- A rule placed at a field takes its place among the rules that arrived there. -/
theorem Shows.place (h : Shows sent level) (rule : Rule) (step : Segment) :
    Shows (sent ++ [([step], rule)]) (place rule step level).1 := by
  have hleaf : step.brackets? = none →
      Shows (sent ++ [([step], rule)]) (Fields.put step (.leaf rule) level) := by
    intro hplain
    refine h.put ⟨hplain, ?_⟩ (by simp)
    simp [arrived_append]
  have hfanout : ∀ held, step.brackets? ≠ none → arrived (onward step sent) = held →
      Shows (sent ++ [([step], rule)]) (Fields.put step (.fanout (held ++ [rule])) level) := by
    intro held hbrackets hheld
    refine h.put ⟨hbrackets, by simp, ?_⟩ (by simp)
    rw [arrived_append, hheld, arrived_stop]
  unfold Level.place
  split
  · rename_i brackets members hb hget
    exact hfanout members (by simp [hb]) (h.fits hget).2.2
  · rename_i brackets entry hb hother
    refine hfanout [] (by simp [hb]) ?_
    cases hget : Fields.get? step level with
    | none => rw [h.onward_of_get?_none hget]; rfl
    | some found =>
      have hfits := h.fits hget
      cases found with
      | leaf old => simp [Entry.Fits, hb] at hfits
      | fanout members => exact absurd hget (hother members)
      | branch children => exact hfits
  · rename_i children hb hget
    exact hleaf hb
  · rename_i entry hb _
    exact hleaf hb

/-- **One more rule.**  A level into which a rule is put shows that rule after the ones before. -/
theorem Shows.insert (h : Shows sent level) (rule : Rule) (steps : List Segment) :
    Shows (sent ++ [(steps, rule)]) (insert rule steps level).1 := by
  induction steps generalizing sent level with
  | nil => exact h.stop rule
  | cons step rest ih =>
    cases rest with
    | nil => exact h.place rule step
    | cons next rest =>
      rw [Level.insert]
      · split
        · rename_i children hget
          refine h.put ?_ ?_
          · simpa [Entry.Fits, arrived_append] using h.fits hget
          · intro below heq
            cases heq
            exact ih (h.children hget)
        · -- The rule is stopped: the entry in its way is as it was, and still fits.
          rename_i entry hentry hget
          have hsame : Shows (sent ++ [(step :: next :: rest, rule)])
              (Fields.put step entry level) := by
            refine h.put ?_ ?_
            · simpa [arrived_append] using h.fits hget
            · intro children heq
              exact absurd heq (hentry children)
          rwa [Fields.put_of_get? hget] at hsame
        · rename_i hget
          have hnone := h.onward_of_get?_none hget
          refine h.put ?_ ?_
          · simp [Entry.Fits, hnone, arrived]
          · intro below heq
            cases heq
            rw [hnone]
            exact ih shows_nil
      · simp

/-- The rules of a list, on their way from the root of the tree. -/
def sentOf (rules : List Rule) : List Sent :=
  rules.map fun rule => (rule.steps, rule)

/-- The tree of a list that has one more rule at its end. -/
theorem ofRules_concat (rules : List Rule) (rule : Rule) :
    (ofRules (rules ++ [rule])).1 = (insert rule rule.steps (ofRules rules).1).1 := by
  rw [ofRules, List.foldl_append]
  rfl

/-- **The tree of a list of rules** is described by that list. -/
theorem shows_ofRules (rules : List Rule) : Shows (sentOf rules) (ofRules rules).1 := by
  induction rules using List.reverseRecOn with
  | nil => exact shows_nil
  | append_singleton rules rule ih =>
    have hsent : sentOf (rules ++ [rule]) = sentOf rules ++ [(rule.steps, rule)] := by
      simp [sentOf]
    rw [ofRules_concat, hsent]
    exact ih.insert rule rule.steps

end Level

end Stylesheet

end Crosswalk
