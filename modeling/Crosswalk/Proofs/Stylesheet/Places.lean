import Crosswalk.Proofs.Stylesheet.SentRules

/-!
# What the tree of output fields holds, place by place

A place is told by the steps that lead to it.  What a level holds there follows from its
description by the rules that were sent to it: nothing, if one of them stopped on the way, and
otherwise what the field chooses from those that arrived.  The names of the level below a place are
the steps that the rules mention there, in the order of first mention.

* `Level.Shows.rulesAt_heldIn` : what a level holds at a place.
* `Level.Shows.shows_levelAt?`, `firstSteps_pastAll` : what the level below a place shows.
-/

namespace Crosswalk.Stylesheet

/-! ### The rules in a tree -/

mutual

/-- The rules in an entry, each with the steps that lead to it from there. -/
def Entry.held : Entry → List Sent
  | .leaf rule => [([], rule)]
  | .fanout rules => rules.map fun rule => ([], rule)
  | .branch children => heldIn children

/-- The rules in the entries of a level, each with the steps that lead to it. -/
def heldIn : List (Segment × Entry) → List Sent
  | [] => []
  | (step, entry) :: rest =>
    entry.held.map (fun (steps, rule) => (step :: steps, rule)) ++ heldIn rest

end

/-- The level below a place. -/
def levelAt? : List Segment → Level → Option Level
  | [], level => some level
  | step :: rest, level =>
    match Fields.get? step level with
    | some (.branch children) => levelAt? rest children
    | _ => none

/-- The rules that some steps lead to. -/
def rulesAt (steps : List Segment) (sent : List Sent) : List Rule :=
  (sent.filter (·.1 = steps)).map Prod.snd

/-- Where the same rules are at every place, the rules are the same up to their order. -/
theorem perm_of_rulesAt {xs ys : List Sent} (h : ∀ steps, rulesAt steps xs = rulesAt steps ys) :
    xs.Perm ys := by
  have hcount : ∀ (steps : List Segment) (rule : Rule) (zs : List Sent),
      zs.count (steps, rule) = (rulesAt steps zs).count rule := by
    intro steps rule zs
    induction zs with
    | nil => rfl
    | cons z zs ih =>
      obtain ⟨steps', rule'⟩ := z
      by_cases hsteps : steps' = steps
      · simp only [rulesAt] at ih ⊢
        by_cases hrule : rule' = rule <;> simp [hsteps, hrule, ih]
      · simp only [rulesAt] at ih ⊢
        simp [hsteps, ih]
  rw [List.perm_iff_count]
  rintro ⟨steps, rule⟩
  rw [hcount, hcount, h]

/-- The rules at the place they were sent to have arrived. -/
theorem rulesAt_nil (sent : List Sent) : rulesAt [] sent = arrived sent := by
  rw [rulesAt, arrived]
  congr 2
  funext s
  cases s.1 <;> simp

/-- What some steps lead to is what the later steps lead to past the first one. -/
theorem rulesAt_cons (step : Segment) (rest : List Segment) (sent : List Sent) :
    rulesAt (step :: rest) sent = rulesAt rest (onward step sent) := by
  induction sent with
  | nil => rfl
  | cons s sent ih =>
    obtain ⟨steps, rule⟩ := s
    simp only [rulesAt, onward] at ih ⊢
    cases steps with
    | nil => simpa [past?, List.filterMap_cons] using ih
    | cons first steps =>
      by_cases hfirst : first = step
      · by_cases hsteps : steps = rest <;>
          simp [past?, hfirst, hsteps, ih]
      · simpa [past?, List.filterMap_cons, hfirst] using ih

@[simp] theorem rulesAt_empty (steps : List Segment) : rulesAt steps [] = [] := rfl

/-! ### From a level to its rules -/

private theorem nodup_eraseDups (steps : List Segment) : steps.eraseDups.Nodup := by
  match steps with
  | [] => simp
  | step :: rest =>
    rw [List.eraseDups_cons, List.nodup_cons]
    refine ⟨?_, nodup_eraseDups _⟩
    simp [List.mem_eraseDups]
termination_by steps.length
decreasing_by exact Nat.lt_succ_of_le (List.length_filter_le _ _)

variable {sent : List Sent} {level : Level}

/-- The names of a level are apart from each other. -/
theorem Level.Shows.nodup (h : level.Shows sent) : (Fields.names level).Nodup := by
  rw [h.names]
  exact nodup_eraseDups _

/-- No rule is held by a level without a step that leads to it. -/
theorem arrived_heldIn (level : Level) : arrived (heldIn level) = [] := by
  induction level with
  | nil => rfl
  | cons entry rest ih =>
    obtain ⟨step, entry⟩ := entry
    rw [heldIn, arrived_append, ih]
    simp [arrived, List.filter_map, Function.comp_def]

/-- Rules that were given one more step are back where they were past that step. -/
theorem onward_map_cons (step first : Segment) (sent : List Sent) :
    onward step (sent.map fun (steps, rule) => (first :: steps, rule))
      = if first = step then sent else [] := by
  induction sent with
  | nil => simp [onward]
  | cons s sent ih =>
    simp only [onward] at ih ⊢
    by_cases h : first = step <;> simp_all [past?]

/-- The rules past a step are those in the entry under it. -/
theorem onward_heldIn (hnodup : (Fields.names level).Nodup) (step : Segment) :
    onward step (heldIn level) = ((Fields.get? step level).map Entry.held).getD [] := by
  induction level with
  | nil => rfl
  | cons entry rest ih =>
    obtain ⟨first, entry⟩ := entry
    simp only [Fields.names, List.map_cons, List.nodup_cons] at hnodup
    rw [heldIn, onward_append, onward_map_cons, ih hnodup.2]
    by_cases h : first = step
    · subst h
      have hnone : Fields.get? first rest = none :=
        (Fields.get?_eq_none_iff first rest).2 hnodup.1
      simp [Fields.get?, hnone]
    · simp [Fields.get?, h]

theorem held_fanout (rules : List Rule) :
    arrived (Entry.fanout rules).held = rules ∧
      ∀ step rest, rulesAt (step :: rest) (Entry.fanout rules).held = [] := by
  constructor
  · simp [Entry.held, arrived, List.filter_map, Function.comp_def]
  · intro step rest
    simp [Entry.held, rulesAt, List.filter_map, Function.comp_def]

/-! ### What is held at a place -/

/-- Whether a rule stops on the way to a place. -/
def IsBlocked (steps : List Segment) (sent : List Sent) : Prop :=
  ∃ s ∈ sent, s.1 ≠ [] ∧ s.1 <+: steps ∧ s.1 ≠ steps

/-- The way to a place is blocked past its first step, or right there. -/
theorem isBlocked_cons (step : Segment) (rest : List Segment) (sent : List Sent) :
    IsBlocked (step :: rest) sent ↔
      rest ≠ [] ∧ (arrived (onward step sent) ≠ [] ∨ IsBlocked rest (onward step sent)) := by
  constructor
  · rintro ⟨⟨steps, rule⟩, hmem, hne, hbegins, hproper⟩
    cases steps with
    | nil => exact absurd rfl hne
    | cons first steps =>
      obtain ⟨rfl, hle⟩ := List.cons_prefix_cons.1 hbegins
      have hrest : steps ≠ rest := by
        rintro rfl
        exact hproper rfl
      have hpast := mem_onward.2 hmem
      have hnil : rest ≠ [] := by
        rintro rfl
        exact hrest (List.prefix_nil.1 hle)
      refine ⟨hnil, ?_⟩
      by_cases hsteps : steps = []
      · left
        subst hsteps
        rw [← rulesAt_nil]
        exact List.ne_nil_of_mem
          (List.mem_map.2 ⟨_, List.mem_filter.2 ⟨hpast, by simp⟩, rfl⟩)
      · exact Or.inr ⟨_, hpast, hsteps, hle, hrest⟩
  · rintro ⟨hnil, harrived | ⟨⟨steps, rule⟩, hmem, hne, hbegins, hproper⟩⟩
    · obtain ⟨rule, hrule⟩ := List.exists_mem_of_ne_nil _ harrived
      obtain ⟨⟨steps, rule⟩, hmem, rfl⟩ := List.mem_map.1 hrule
      obtain ⟨hmem, hsteps⟩ := List.mem_filter.1 hmem
      simp only [List.isEmpty_iff] at hsteps
      subst hsteps
      exact ⟨_, mem_onward.1 hmem, by simp, by simp, by simpa using Ne.symm hnil⟩
    · exact ⟨_, mem_onward.1 hmem, by simp, by simpa using hbegins, by simpa using hproper⟩

/-- Of the rules that arrived at a field, those that it holds: all of them, or the last one. -/
def chosen (step : Segment) (rules : List Rule) : List Rule :=
  if step.brackets?.isSome then rules else rules.getLast?.toList

/-- The rules that an entry holds itself are those chosen from the ones that arrived. -/
theorem Entry.Fits.arrived_held {step : Segment} {rules : List Rule} {entry : Entry}
    (h : entry.Fits step rules) : arrived entry.held = chosen step rules := by
  cases entry with
  | leaf rule =>
    obtain ⟨hplain, hlast⟩ := h
    simp [Entry.held, chosen, hplain, hlast]
  | fanout held =>
    obtain ⟨hbrackets, _, rfl⟩ := h
    rw [(held_fanout rules).1, chosen, if_pos (Option.isSome_iff_ne_none.2 hbrackets)]
  | branch children =>
    have hnone : rules = [] := h
    rw [Entry.held, arrived_heldIn, hnone]
    simp [chosen]

/-- Behind an entry at which a rule arrived nothing is held. -/
theorem Entry.Fits.rulesAt_held {step next : Segment} {rest : List Segment} {rules : List Rule}
    {entry : Entry} (h : entry.Fits step rules) (hrules : rules ≠ []) :
    rulesAt (next :: rest) entry.held = [] := by
  cases entry with
  | leaf rule => rfl
  | fanout held => exact (held_fanout held).2 next rest
  | branch children => exact absurd h hrules

/-- **What a level holds at a place.**  Where the way is blocked, nothing; otherwise what is chosen
from the rules that were sent there. -/
theorem Level.Shows.rulesAt_heldIn (h : level.Shows sent) (above : List Segment)
    (step : Segment) :
    (IsBlocked (above ++ [step]) sent → rulesAt (above ++ [step]) (heldIn level) = []) ∧
      (¬ IsBlocked (above ++ [step]) sent →
        rulesAt (above ++ [step]) (heldIn level)
          = chosen step (rulesAt (above ++ [step]) sent)) := by
  induction above generalizing sent level with
  | nil =>
    rw [List.nil_append, isBlocked_cons, rulesAt_cons, rulesAt_cons, rulesAt_nil, rulesAt_nil,
      onward_heldIn h.nodup]
    refine ⟨fun hblocked => absurd rfl hblocked.1, fun _ => ?_⟩
    cases hget : Fields.get? step level with
    | none => simp [h.onward_of_get?_none hget, arrived, chosen]
    | some entry => exact (h.fits hget).arrived_held
  | cons first above ih =>
    have hne : above ++ [step] ≠ [] := by simp
    rw [List.cons_append, isBlocked_cons, rulesAt_cons, rulesAt_cons, onward_heldIn h.nodup]
    cases hget : Fields.get? first level with
    | none =>
      rw [h.onward_of_get?_none hget]
      simp [chosen]
    | some entry =>
      have hfits := h.fits hget
      obtain ⟨next, rest, hcons⟩ := List.exists_cons_of_ne_nil hne
      by_cases harrived : arrived (onward first sent) = []
      · cases entry with
        | leaf rule => simp [Entry.Fits, harrived] at hfits
        | fanout held => exact absurd (hfits.2.2.symm.trans harrived) hfits.2.1
        | branch children =>
          obtain ⟨hblocked, hfree⟩ := ih (h.children hget)
          simp only [Option.map_some, Option.getD_some, Entry.held, harrived]
          exact ⟨fun hb => hblocked (by simpa using hb), fun hb => hfree (by simpa using hb)⟩
      · refine ⟨fun _ => ?_, fun hfree => absurd ⟨hne, Or.inl harrived⟩ hfree⟩
        rw [hcons]
        exact hfits.rulesAt_held harrived

/-! ### The order of a level -/

/-- The rules past several steps. -/
def pastAll (place : List Segment) (sent : List Sent) : List Sent :=
  place.foldl (fun sent step => onward step sent) sent

/-- The step that a rule mentions right below a place, if its steps lead on from there. -/
def stepBelow? (place : List Segment) (s : Sent) : Option Segment :=
  if place <+: s.1 then s.1[place.length]? else none

theorem stepBelow?_cons (step : Segment) (place : List Segment) (s : Sent) :
    stepBelow? (step :: place) s = (past? step s).bind (stepBelow? place) := by
  obtain ⟨steps, rule⟩ := s
  cases steps with
  | nil => simp [stepBelow?, past?]
  | cons first rest =>
    by_cases h : first = step
    · simp [stepBelow?, past?, h, List.cons_prefix_cons]
    · simp [stepBelow?, past?, h, Ne.symm h, List.cons_prefix_cons]

/-- The first steps below a place are mentioned in the order of the rules. -/
theorem firstSteps_pastAll (place : List Segment) (sent : List Sent) :
    firstSteps (pastAll place sent) = (sent.filterMap (stepBelow? place)).eraseDups := by
  have hsteps : (pastAll place sent).filterMap (·.1.head?)
      = sent.filterMap (stepBelow? place) := by
    induction place generalizing sent with
    | nil =>
      congr 1
      funext s
      simp [stepBelow?, List.head?_eq_getElem?]
    | cons step place ih =>
      rw [show pastAll (step :: place) sent = pastAll place (onward step sent) from rfl, ih,
        onward, List.filterMap_filterMap]
      congr 1
      funext s
      rw [stepBelow?_cons]
  rw [firstSteps, hsteps]

/-- The level below a place shows the rules past the steps to it. -/
theorem Level.Shows.shows_levelAt? (h : level.Shows sent) {place : List Segment} {below : Level}
    (hbelow : levelAt? place level = some below) : below.Shows (pastAll place sent) := by
  induction place generalizing sent level with
  | nil =>
    simp only [levelAt?, Option.some.injEq] at hbelow
    exact hbelow ▸ h
  | cons step place ih =>
    rw [levelAt?] at hbelow
    split at hbelow
    · rename_i children hget
      exact ih (h.children hget) hbelow
    · simp at hbelow

/-- The rules at a place are those that arrived at the entry that stands there. -/
theorem Level.Shows.rulesAt_levelAt? (h : level.Shows sent) {place : List Segment}
    {below : Level} (hbelow : levelAt? place level = some below) {step : Segment} {entry : Entry}
    (hget : Fields.get? step below = some entry) :
    rulesAt (place ++ [step]) (heldIn level) = arrived entry.held := by
  induction place generalizing sent level with
  | nil =>
    simp only [levelAt?, Option.some.injEq] at hbelow
    subst hbelow
    rw [List.nil_append, rulesAt_cons, rulesAt_nil, onward_heldIn h.nodup, hget]
    rfl
  | cons first place ih =>
    rw [levelAt?] at hbelow
    split at hbelow
    · rename_i children hchildren
      rw [List.cons_append, rulesAt_cons, onward_heldIn h.nodup, hchildren]
      exact ih (h.children hchildren) hbelow
    · simp at hbelow

end Crosswalk.Stylesheet
