import Crosswalk.Proofs.Path.Spelling
import Crosswalk.Proofs.Stylesheet.Places

/-!
# Which rules the tree of output fields holds

Which rules are held does not depend on the order in which branches came and went.  A rule is held
exactly if its path has a named piece, no other rule is sent to a field on its way, and, unless its
field takes every rule, no later rule is sent to the same field.  A rule whose path has no named
piece is sent nowhere and stands in nobody's way.

* `kept` : the rules to be held, said of the list of rules alone.
* `held_ofRules` : the tree holds exactly these, each once and in its place; fields that take every
  rule keep the order of the rules, and levels the order of first mention.
-/

namespace Crosswalk

/-- The pieces of the output path of a rule, positions left out. -/
def Rule.keys (r : Rule) : List String :=
  Path.namedPieces r.outputPath

namespace Rule

theorem keys_eq_map (r : Rule) : r.keys = r.steps.map Segment.text :=
  (Path.map_text_namedSegments r.outputPath).symm

theorem steps_eq_map (r : Rule) : r.steps = r.keys.map Segment.ofText :=
  Path.namedSegments_eq_map r.outputPath

theorem keys_eq_nil_iff (r : Rule) : r.keys = [] ↔ r.steps = [] := by
  rw [keys_eq_map, List.map_eq_nil_iff]

theorem keys_eq_iff (r s : Rule) : r.keys = s.keys ↔ r.steps = s.steps := by
  constructor
  · intro h
    rw [steps_eq_map, h, ← steps_eq_map]
  · intro h
    rw [keys_eq_map, h, ← keys_eq_map]

theorem keys_prefix_iff (r s : Rule) : r.keys <+: s.keys ↔ r.steps <+: s.steps := by
  constructor
  · intro h
    rw [steps_eq_map r, steps_eq_map s]
    exact h.map _
  · intro h
    rw [keys_eq_map r, keys_eq_map s]
    exact h.map _

end Rule

namespace Stylesheet

/-! ### The rules to be held -/

/-- Whether a field takes every rule that is sent to it: its last piece has brackets. -/
def takesAll (keys : List String) : Bool :=
  keys.getLast?.any fun piece => (Segment.ofText piece).brackets?.isSome

/-- A rule blocks another one if it is sent to a field on the way of that one. -/
def Blocks (s r : Rule) : Prop :=
  s.keys ≠ [] ∧ s.keys <+: r.keys ∧ s.keys ≠ r.keys

/-- Whether a rule among others, with the given rules after it, is to be held. -/
def Survives (rules later : List Rule) (r : Rule) : Prop :=
  r.keys ≠ [] ∧ (∀ s ∈ rules, ¬ Blocks s r) ∧
    (takesAll r.keys = true ∨ ∀ s ∈ later, s.keys ≠ r.keys)

instance (s r : Rule) : Decidable (Blocks s r) :=
  inferInstanceAs (Decidable (_ ∧ _ ∧ _))

instance (rules later : List Rule) (r : Rule) : Decidable (Survives rules later r) :=
  inferInstanceAs (Decidable (_ ∧ _ ∧ _))

/-- Those at the end of a list of rules that are to be held. -/
def keptAmong (rules : List Rule) : List Rule → List Rule
  | [] => []
  | r :: later =>
    if Survives rules later r then r :: keptAmong rules later else keptAmong rules later

/-- The rules of a list that are to be held. -/
def kept (rules : List Rule) : List Rule :=
  keptAmong rules rules

/-- The key that a rule mentions right below a place, if its keys lead on from there. -/
def keyBelow? (place : List String) (r : Rule) : Option String :=
  if place <+: r.keys then r.keys[place.length]? else none

/-- The keys that some rules mention right below a place, in the order of first mention. -/
def mentionedBelow (place : List String) (rules : List Rule) : List String :=
  (rules.filterMap (keyBelow? place)).eraseDups

/-! ### What is to be held at a place -/

open Level (sentOf)

theorem rulesAt_sentOf (steps : List Segment) (rules : List Rule) :
    rulesAt steps (sentOf rules) = rules.filter (·.steps = steps) := by
  simp [rulesAt, sentOf, List.filter_map, Function.comp_def]

/-- The way to the field of a rule is blocked exactly if one of the rules blocks it. -/
theorem isBlocked_sentOf (r : Rule) (rules : List Rule) :
    IsBlocked r.steps (sentOf rules) ↔ ∃ s ∈ rules, Blocks s r := by
  constructor
  · rintro ⟨_, hmem, hne, hbegins, hproper⟩
    obtain ⟨s, hs, rfl⟩ := List.mem_map.1 hmem
    exact ⟨s, hs, mt s.keys_eq_nil_iff.1 hne, (s.keys_prefix_iff r).2 hbegins,
      mt (s.keys_eq_iff r).1 hproper⟩
  · rintro ⟨s, hs, hne, hbegins, hproper⟩
    exact ⟨_, List.mem_map.2 ⟨s, hs, rfl⟩, mt s.keys_eq_nil_iff.2 hne,
      (s.keys_prefix_iff r).1 hbegins, mt (s.keys_eq_iff r).2 hproper⟩

/-- A field takes every rule exactly if the last step to it has brackets. -/
theorem takesAll_keys {r : Rule} {above : List Segment} {step : Segment}
    (h : r.steps = above ++ [step]) : takesAll r.keys = step.brackets?.isSome := by
  have hlast : r.keys.getLast?.map Segment.ofText = some step := by
    rw [← List.getLast?_map, ← r.steps_eq_map, h, List.getLast?_concat]
  obtain ⟨piece, hpiece, hstep⟩ := Option.map_eq_some_iff.1 hlast
  simp [takesAll, hpiece, hstep]

theorem survives_of_mem_keptAmong {rules suffix : List Rule} {r : Rule}
    (h : r ∈ keptAmong rules suffix) : ∃ later, Survives rules later r := by
  induction suffix with
  | nil => simp [keptAmong] at h
  | cons first later ih =>
    rw [keptAmong] at h
    split at h
    · rename_i hfirst
      rcases List.mem_cons.1 h with rfl | hmem
      · exact ⟨later, hfirst⟩
      · exact ih hmem
    · exact ih h

/-- No rule is to be held at a place to which the way is blocked. -/
theorem filter_kept_of_isBlocked {rules : List Rule} {steps : List Segment}
    (h : IsBlocked steps (sentOf rules)) : (kept rules).filter (·.steps = steps) = [] := by
  rw [List.filter_eq_nil_iff]
  intro r hr hsteps
  obtain ⟨later, _, hfree, _⟩ := survives_of_mem_keptAmong hr
  have heq : r.steps = steps := by simpa using hsteps
  subst heq
  obtain ⟨s, hs, hblocks⟩ := (isBlocked_sentOf r rules).1 h
  exact hfree s hs hblocks

/-- No rule is to be held at the root. -/
theorem filter_kept_root (rules : List Rule) : (kept rules).filter (·.steps = []) = [] := by
  rw [List.filter_eq_nil_iff]
  intro r hr hsteps
  obtain ⟨later, hnamed, _⟩ := survives_of_mem_keptAmong hr
  exact hnamed (r.keys_eq_nil_iff.2 (by simpa using hsteps))

/-- Where the way is free, the rules to be held are chosen from those sent there. -/
theorem filter_keptAmong {rules : List Rule} {above : List Segment} {step : Segment}
    (hfree : ¬ IsBlocked (above ++ [step]) (sentOf rules)) (suffix : List Rule) :
    (keptAmong rules suffix).filter (·.steps = above ++ [step])
      = chosen step (suffix.filter (·.steps = above ++ [step])) := by
  induction suffix with
  | nil => simp [keptAmong, chosen]
  | cons r later ih =>
    by_cases hr : r.steps = above ++ [step]
    · have hsurvives : Survives rules later r ↔
          (step.brackets?.isSome = true ∨ ∀ s ∈ later, s.steps ≠ above ++ [step]) := by
        have hnamed : r.keys ≠ [] := by
          rw [Ne, r.keys_eq_nil_iff, hr]
          simp
        have hunblocked : ∀ s ∈ rules, ¬ Blocks s r := by
          intro s hs hblocks
          exact hfree (hr ▸ (isBlocked_sentOf r rules).2 ⟨s, hs, hblocks⟩)
        have hlater : ∀ s : Rule, s.keys = r.keys ↔ s.steps = above ++ [step] := by
          intro s
          rw [s.keys_eq_iff, hr]
        simp only [Survives, takesAll_keys hr, ne_eq, hlater]
        exact ⟨fun h => h.2.2, fun h => ⟨hnamed, hunblocked, h⟩⟩
      rw [keptAmong]
      by_cases hbrackets : step.brackets?.isSome = true
      · rw [if_pos (hsurvives.2 (Or.inl hbrackets)), List.filter_cons_of_pos (by simpa using hr),
          List.filter_cons_of_pos (by simpa using hr), ih]
        simp [chosen, hbrackets]
      · by_cases hlast : ∀ s ∈ later, s.steps ≠ above ++ [step]
        · have hnone : later.filter (·.steps = above ++ [step]) = [] := by
            rw [List.filter_eq_nil_iff]
            simpa using hlast
          rw [if_pos (hsurvives.2 (Or.inr hlast)), List.filter_cons_of_pos (by simpa using hr),
            List.filter_cons_of_pos (by simpa using hr), ih, hnone]
          simp [chosen, hbrackets]
        · -- A later rule goes to the same field, so this one is neither kept nor chosen.
          rw [if_neg (fun h => (hsurvives.1 h).elim hbrackets hlast), ih,
            List.filter_cons_of_pos (by simpa using hr)]
          have hsome : later.filter (·.steps = above ++ [step]) ≠ [] := by
            rw [Ne, List.filter_eq_nil_iff]
            simpa using hlast
          obtain ⟨first, rest, hcons⟩ := List.exists_cons_of_ne_nil hsome
          simp [chosen, hbrackets, hcons]
    · have hskip : ∀ rs, (r :: rs).filter (·.steps = above ++ [step])
          = rs.filter (·.steps = above ++ [step]) := by
        intro rs
        exact List.filter_cons_of_neg (by simpa using hr)
      rw [keptAmong, hskip]
      split
      · rw [hskip, ih]
      · exact ih

/-- **The rules of the tree at any place** are the rules to be held there. -/
theorem rulesAt_ofRules (rules : List Rule) (steps : List Segment) :
    rulesAt steps (heldIn (Level.ofRules rules).1) = (kept rules).filter (·.steps = steps) := by
  have hshows := Level.shows_ofRules rules
  rcases List.eq_nil_or_concat steps with rfl | ⟨above, step, rfl⟩
  · rw [rulesAt_nil, arrived_heldIn, filter_kept_root]
  · rw [List.concat_eq_append]
    obtain ⟨hblocked, hfree⟩ := hshows.rulesAt_heldIn above step
    by_cases h : IsBlocked (above ++ [step]) (sentOf rules)
    · rw [hblocked h, filter_kept_of_isBlocked h]
    · rw [hfree h, rulesAt_sentOf, kept, filter_keptAmong h]

/-! ### Steps and their spellings -/

variable {sent : List Sent} {level : Level}

/-- Whether all steps that some rules have before them are read again from their spellings. -/
def AllSpelled (sent : List Sent) : Prop :=
  ∀ s ∈ sent, ∀ step ∈ s.1, step.IsSpelled

theorem allSpelled_sentOf (rules : List Rule) : AllSpelled (sentOf rules) := by
  intro s hs step hstep
  obtain ⟨rule, _, rfl⟩ := List.mem_map.1 hs
  exact Path.isSpelled_of_mem_namedSegments hstep

theorem AllSpelled.onward (h : AllSpelled sent) (step : Segment) :
    AllSpelled (onward step sent) := by
  rintro ⟨steps, rule⟩ hs other hother
  exact h _ (mem_onward.1 hs) other (List.mem_cons_of_mem _ hother)

theorem AllSpelled.of_mem_firstSteps (h : AllSpelled sent) {step : Segment}
    (hstep : step ∈ firstSteps sent) : step.IsSpelled := by
  obtain ⟨steps, rule, hmem⟩ := mem_firstSteps.1 hstep
  exact h _ hmem step List.mem_cons_self

/-- Every step on the way to a level is read again from its spelling. -/
theorem Level.Shows.isSpelled_of_levelAt? (h : level.Shows sent) (hspelled : AllSpelled sent)
    {place : List Segment} {below : Level} (hbelow : levelAt? place level = some below) :
    (∀ step ∈ place, step.IsSpelled) ∧ AllSpelled (pastAll place sent) := by
  induction place generalizing sent level with
  | nil => exact ⟨by simp, hspelled⟩
  | cons first place ih =>
    rw [levelAt?] at hbelow
    split at hbelow
    · rename_i children hget
      obtain ⟨hplace, hpast⟩ := ih (h.children hget) (hspelled.onward first) hbelow
      refine ⟨?_, hpast⟩
      rintro step (_ | ⟨_, hstep⟩)
      · exact hspelled.of_mem_firstSteps (h.names ▸ Fields.mem_names_of_get? hget)
      · exact hplace step hstep
    · simp at hbelow

/-- Steps that are read again from their spellings are spelled as often as they are mentioned. -/
theorem eraseDups_map_text (steps : List Segment) (h : ∀ step ∈ steps, step.IsSpelled) :
    (steps.map Segment.text).eraseDups = steps.eraseDups.map Segment.text := by
  match steps with
  | [] => rfl
  | step :: rest =>
    have hrest : ∀ other ∈ rest, (!other.text == step.text) = (!other == step) := by
      intro other hother
      have hiff : other.text = step.text ↔ other = step :=
        ⟨(h other (List.mem_cons_of_mem _ hother)).eq_of_text (h step List.mem_cons_self),
          congrArg _⟩
      by_cases heq : other = step
      · rw [beq_iff_eq.2 heq, beq_iff_eq.2 (hiff.2 heq)]
      · rw [beq_eq_false_iff_ne.2 heq, beq_eq_false_iff_ne.2 (mt hiff.1 heq)]
    rw [List.map_cons, List.eraseDups_cons, List.eraseDups_cons, List.map_cons, List.filter_map,
      ← eraseDups_map_text (rest.filter fun other => !other == step)
        (fun other hother => h other (List.mem_cons_of_mem _ (List.mem_filter.1 hother).1)),
      ← List.filter_congr hrest]
    rfl
termination_by steps.length
decreasing_by exact Nat.lt_succ_of_le (List.length_filter_le _ _)

theorem map_ofText_map_text {steps : List Segment} (h : ∀ step ∈ steps, step.IsSpelled) :
    (steps.map Segment.text).map Segment.ofText = steps := by
  rw [List.map_map]
  exact (List.map_congr_left h).trans (List.map_id _)

/-- Places whose steps are read again from their spellings may be told by the spellings. -/
theorem steps_eq_iff {steps : List Segment} (h : ∀ step ∈ steps, step.IsSpelled) (r : Rule) :
    r.steps = steps ↔ r.keys = steps.map Segment.text := by
  constructor
  · intro heq
    rw [r.keys_eq_map, heq]
  · intro heq
    rw [r.steps_eq_map, heq, map_ofText_map_text h]

theorem keyBelow?_map_text {place : List Segment} (h : ∀ step ∈ place, step.IsSpelled)
    (r : Rule) :
    keyBelow? (place.map Segment.text) r
      = (stepBelow? place (r.steps, r)).map Segment.text := by
  have hbegins : place.map Segment.text <+: r.keys ↔ place <+: r.steps := by
    constructor
    · intro hp
      have hmap := hp.map Segment.ofText
      rwa [← r.steps_eq_map, map_ofText_map_text h] at hmap
    · intro hp
      rw [r.keys_eq_map]
      exact hp.map _
  by_cases hp : place <+: r.steps
  · rw [keyBelow?, if_pos (hbegins.2 hp), stepBelow?, if_pos hp, r.keys_eq_map]
    simp
  · rw [keyBelow?, if_neg (mt hbegins.1 hp), stepBelow?, if_neg hp]
    rfl

/-! ### The result -/

/-- **The rules that the tree holds.**  They are exactly those to be held, each once and at the
place that its keys spell; a field that takes every rule has them in their order, and the names of
every level are in the order in which the rules first mention them. -/
theorem held_ofRules (rules : List Rule) :
    ((heldIn (Level.ofRules rules).1).map fun (steps, rule) =>
        (steps.map Segment.text, rule)).Perm ((kept rules).map fun rule => (rule.keys, rule)) ∧
      (∀ place level step members, levelAt? place (Level.ofRules rules).1 = some level →
        Fields.get? step level = some (.fanout members) →
          members = (kept rules).filter (·.keys = (place ++ [step]).map Segment.text)) ∧
      (∀ place level, levelAt? place (Level.ofRules rules).1 = some level →
        (Fields.names level).map Segment.text
          = mentionedBelow (place.map Segment.text) rules) := by
  have hshows := Level.shows_ofRules rules
  refine ⟨?_, ?_, ?_⟩
  · have hperm : (heldIn (Level.ofRules rules).1).Perm (sentOf (kept rules)) := by
      apply perm_of_rulesAt
      intro steps
      rw [rulesAt_ofRules, rulesAt_sentOf]
    have hspelled : (sentOf (kept rules)).map (fun (steps, rule) =>
        (steps.map Segment.text, rule)) = (kept rules).map fun rule => (rule.keys, rule) := by
      simp [sentOf, Rule.keys_eq_map]
    rw [← hspelled]
    exact hperm.map _
  · intro place level step members hlevel hget
    obtain ⟨hplace, hpast⟩ := hshows.isSpelled_of_levelAt? (allSpelled_sentOf rules) hlevel
    have hstep : step.IsSpelled := by
      have hname := Fields.mem_names_of_get? hget
      rw [(hshows.shows_levelAt? hlevel).names] at hname
      exact hpast.of_mem_firstSteps hname
    have hall : ∀ s ∈ place ++ [step], s.IsSpelled := by
      intro s hs
      rcases List.mem_append.1 hs with hs | hs
      · exact hplace s hs
      · exact List.mem_singleton.1 hs ▸ hstep
    have hmembers := hshows.rulesAt_levelAt? hlevel hget
    rw [rulesAt_ofRules, (held_fanout members).1] at hmembers
    rw [← hmembers]
    exact List.filter_congr fun r _ => decide_eq_decide.2 (steps_eq_iff hall r)
  · intro place level hlevel
    obtain ⟨hplace, hpast⟩ := hshows.isSpelled_of_levelAt? (allSpelled_sentOf rules) hlevel
    have hmentioned : mentionedBelow (place.map Segment.text) rules
        = (((sentOf rules).filterMap (stepBelow? place)).map Segment.text).eraseDups := by
      rw [mentionedBelow, sentOf, List.filterMap_map, List.map_filterMap]
      congr 2
      funext r
      exact keyBelow?_map_text hplace r
    have hbelow : ∀ step ∈ (sentOf rules).filterMap (stepBelow? place), step.IsSpelled := by
      intro step hstep
      apply hpast.of_mem_firstSteps
      rw [firstSteps_pastAll]
      exact List.mem_eraseDups.2 hstep
    rw [hmentioned, eraseDups_map_text _ hbelow, (hshows.shows_levelAt? hlevel).names,
      firstSteps_pastAll]

/-- A field that replaces nested ones, a rule in its way, and a field that takes two rules. -/
theorem held_ofRules_replacing :
    let rules : List Rule :=
      [⟨"1", "a.b.c", .constant "u"⟩, ⟨"2", "p.q[@t='1']", .constant "v"⟩,
       ⟨"3", "a.b", .constant "w"⟩, ⟨"4", "a.b.0.d", .constant "x"⟩,
       ⟨"5", "p.q[@t='1']", .constant "y"⟩]
    (kept rules).map Rule.id = ["2", "3", "5"] ∧
      ((heldIn (Level.ofRules rules).1).map fun (steps, rule) =>
        (steps.map Segment.text, rule)).Perm ((kept rules).map fun rule => (rule.keys, rule)) ∧
      ∃ level members,
        levelAt? [.element "p" none] (Level.ofRules rules).1 = some level ∧
          Fields.get? (.element "q" (some "@t='1'")) level = some (.fanout members) ∧
          members = (kept rules).filter (·.keys = ["p", "q[@t='1']"]) ∧
          (Fields.names level).map Segment.text = mentionedBelow ["p"] rules := by
  intro rules
  have hheld := held_ofRules rules
  exact ⟨by decide, hheld.1, _, _, rfl, rfl,
    hheld.2.1 [.element "p" none] _ (.element "q" (some "@t='1'")) _ rfl rfl,
    hheld.2.2 [.element "p" none] _ rfl⟩

/-- A rule whose path has no named piece is a proper beginning of every other one and yet keeps
none of them out of the tree. -/
theorem held_beside_pathless :
    let pathless : Rule := ⟨"1", "0", .constant "x"⟩
    let rule : Rule := ⟨"2", "a", .constant "y"⟩
    (pathless.keys <+: rule.keys ∧ pathless.keys ≠ rule.keys) ∧
      heldIn (Level.ofRules [pathless, rule]).1 = [([.element "a" none], rule)] := by
  decide

end Stylesheet

end Crosswalk
