import Crosswalk.Proofs.Stylesheet.Constants

/-!
# Rules that are lost, and the notices about them

A stylesheet that writes the output from nothing gives a notice when a rule is kept out of the
tree by one that came before it, when a field without brackets takes the place of fields below it,
and when fields stand below an attribute.  It gives none when a field with brackets takes the place
of fields below it, so rules can be lost to such a field in silence, and in no other way.

* `notices_insert_eq_nil_iff` : when one more rule gives no notice.
* `notices_ofRules_eq_nil_iff` : when the tree of some rules is built without a notice.
* `isOpen_of_levelNotices_eq_nil` : a level without notices is written as a whole.
* `lost_with_notice` : what becomes of every rule.
-/

namespace Crosswalk.Stylesheet

open Level (sentOf)

/-! ### One more rule -/

/-- Whether a rule that is sent to a field without brackets takes the place of fields below it: no
rule was sent there, and some were sent further on. -/
def Replaces (steps : List Segment) (sent : List Sent) : Prop :=
  (∃ step, steps.getLast? = some step ∧ step.brackets? = none) ∧ rulesAt steps sent = [] ∧
    ∃ s ∈ sent, steps <+: s.1 ∧ steps ≠ s.1

/-- A place is taken past its first step. -/
theorem replaces_cons {step : Segment} {rest : List Segment} (hrest : rest ≠ [])
    (sent : List Sent) : Replaces (step :: rest) sent ↔ Replaces rest (onward step sent) := by
  have hlast : (step :: rest).getLast? = rest.getLast? := by
    obtain ⟨next, rest, rfl⟩ := List.exists_cons_of_ne_nil hrest
    exact List.getLast?_cons_cons
  have hbelow : (∃ s ∈ sent, step :: rest <+: s.1 ∧ step :: rest ≠ s.1) ↔
      ∃ s ∈ onward step sent, rest <+: s.1 ∧ rest ≠ s.1 := by
    constructor
    · rintro ⟨⟨steps, rule⟩, hmem, hbegins, hproper⟩
      obtain ⟨more, rfl⟩ := hbegins
      exact ⟨(rest ++ more, rule), mem_onward.2 hmem, List.prefix_append _ _,
        fun heq => hproper (congrArg (step :: ·) heq)⟩
    · rintro ⟨⟨steps, rule⟩, hmem, hbegins, hproper⟩
      exact ⟨(step :: steps, rule), mem_onward.1 hmem, List.cons_prefix_cons.2 ⟨rfl, hbegins⟩,
        fun heq => hproper (List.cons.inj heq).2⟩
  rw [Replaces, Replaces, hlast, rulesAt_cons, hbelow]

/-- A field without brackets takes a place exactly if no rule arrived there and some went on. -/
theorem replaces_singleton (step : Segment) (sent : List Sent) :
    Replaces [step] sent ↔
      step.brackets? = none ∧ arrived (onward step sent) = [] ∧ onward step sent ≠ [] := by
  rw [Replaces, rulesAt_cons, rulesAt_nil]
  constructor
  · rintro ⟨⟨_, hlast, hplain⟩, harrived, ⟨steps, rule⟩, hmem, ⟨more, rfl⟩, -⟩
    obtain rfl : step = _ := Option.some.inj hlast
    exact ⟨hplain, harrived, List.ne_nil_of_mem (mem_onward.2 hmem)⟩
  · rintro ⟨hplain, harrived, hne⟩
    obtain ⟨⟨steps, rule⟩, hmem⟩ := List.exists_mem_of_ne_nil _ hne
    refine ⟨⟨step, rfl, hplain⟩, harrived, _, mem_onward.1 hmem, by simp, ?_⟩
    intro heq
    obtain rfl : [] = steps := (List.cons.inj heq).2
    have hstopped : rule ∈ arrived (onward step sent) := by
      rw [← rulesAt_nil]
      exact List.mem_map.2 ⟨_, List.mem_filter.2 ⟨hmem, by simp⟩, rfl⟩
    rw [harrived] at hstopped
    cases hstopped

/-- A rule that is placed at a field gives no notice exactly if it takes no place. -/
theorem notices_place_eq_nil_iff {sent : List Sent} {level : Level} (h : level.Shows sent)
    (rule : Rule) (step : Segment) :
    (Level.place rule step level).2 = [] ↔ ¬ Replaces [step] sent := by
  rw [replaces_singleton]
  unfold Level.place
  split
  · rename_i hbrackets _
    simp [hbrackets]
  · rename_i hbrackets _
    simp [hbrackets]
  · rename_i children hplain hget
    have harrived : arrived (onward step sent) = [] := h.fits hget
    have hsent : onward step sent ≠ [] := by
      intro hnone
      have hname := Fields.mem_names_of_get? hget
      rw [h.names, mem_firstSteps] at hname
      obtain ⟨steps, rule, hmem⟩ := hname
      have hpast := mem_onward.2 hmem
      rw [hnone] at hpast
      cases hpast
    simp [hplain, harrived, hsent]
  · rename_i hplain hother
    refine iff_of_true rfl ?_
    rintro ⟨-, harrived, hsent⟩
    cases hget : Fields.get? step level with
    | none => exact hsent (h.onward_of_get?_none hget)
    | some entry =>
      have hfits := h.fits hget
      cases entry with
      | leaf old => simp [Entry.Fits, harrived] at hfits
      | fanout members => exact hfits.1 hplain
      | branch children => exact hother children hget

/-- **One more rule** gives no notice exactly if nothing blocks it and it takes no place. -/
theorem notices_insert_eq_nil_iff {sent : List Sent} {level : Level} (h : level.Shows sent)
    (rule : Rule) (steps : List Segment) :
    (Level.insert rule steps level).2 = [] ↔ ¬ IsBlocked steps sent ∧ ¬ Replaces steps sent := by
  induction steps generalizing sent level with
  | nil =>
    refine iff_of_true rfl ⟨?_, ?_⟩
    · rintro ⟨s, -, hne, hbegins, -⟩
      exact hne (List.prefix_nil.1 hbegins)
    · rintro ⟨⟨step, hlast, -⟩, -⟩
      cases hlast
  | cons step rest ih =>
    cases rest with
    | nil =>
      rw [Level.insert, notices_place_eq_nil_iff h]
      exact (and_iff_right fun hblocked => ((isBlocked_cons step [] sent).1 hblocked).1 rfl).symm
    | cons next rest =>
      have hne : next :: rest ≠ [] := by simp
      rw [isBlocked_cons, replaces_cons hne, Level.insert]
      · split
        · rename_i children hget
          have harrived : arrived (onward step sent) = [] := h.fits hget
          simpa [harrived] using ih (h.children hget)
        · -- What stands in the way of the rule is a field, where a rule arrived.
          rename_i entry hentry hget
          have harrived : arrived (onward step sent) ≠ [] := by
            have hfits := h.fits hget
            intro hnone
            cases entry with
            | leaf old => simp [Entry.Fits, hnone] at hfits
            | fanout members => exact hfits.2.1 (hfits.2.2.symm.trans hnone)
            | branch children => exact hentry children rfl
          simp [harrived]
        · rename_i hget
          have hnone : onward step sent = [] := h.onward_of_get?_none hget
          have hempty : arrived ([] : List Sent) = [] := rfl
          simpa [hnone, hempty] using ih Level.shows_nil
      · simp

/-! ### The rules of a list -/

/-- What an earlier and a later rule have to do with each other if there is no notice about them:
the earlier one does not block the later one, and a later one that blocks it has brackets. -/
def MeetsQuietly (earlier later : Rule) : Prop :=
  ¬ Blocks earlier later ∧ (Blocks later earlier → takesAll later.keys = true)

instance (earlier later : Rule) : Decidable (MeetsQuietly earlier later) :=
  inferInstanceAs (Decidable (_ ∧ _))

/-- A rule takes the place of others exactly if it blocks one of them, its field has no brackets,
and none of them was sent to that field. -/
theorem replaces_sentOf (r : Rule) (rules : List Rule) :
    Replaces r.steps (sentOf rules) ↔
      takesAll r.keys = false ∧ (∀ u ∈ rules, u.keys ≠ r.keys) ∧ ∃ s ∈ rules, Blocks r s := by
  have hnone : rulesAt r.steps (sentOf rules) = [] ↔ ∀ u ∈ rules, u.keys ≠ r.keys := by
    rw [rulesAt_sentOf, List.filter_eq_nil_iff]
    simp [Rule.keys_eq_iff]
  have hbelow : (∃ s ∈ sentOf rules, r.steps <+: s.1 ∧ r.steps ≠ s.1) ↔
      ∃ s ∈ rules, r.keys <+: s.keys ∧ r.keys ≠ s.keys := by
    simp [sentOf, Rule.keys_eq_iff, Rule.keys_prefix_iff]
  rw [Replaces, hnone, hbelow]
  rcases List.eq_nil_or_concat r.steps with hsteps | ⟨above, step, hsteps⟩
  · simp [hsteps, Blocks, (r.keys_eq_nil_iff).2 hsteps]
  · rw [List.concat_eq_append] at hsteps
    have hkeys : r.keys ≠ [] := by
      rw [Ne, r.keys_eq_nil_iff, hsteps]
      simp
    simp [Blocks, hkeys, takesAll_keys hsteps, hsteps]

/-- The notices about the rules of a list that has one more rule at its end. -/
theorem notices_ofRules_concat (rules : List Rule) (rule : Rule) :
    (Level.ofRules (rules ++ [rule])).2
      = (Level.ofRules rules).2 ++ (Level.insert rule rule.steps (Level.ofRules rules).1).2 := by
  rw [Level.ofRules, List.foldl_append]
  rfl

/-- Among rules that meet quietly, only those with brackets block others. -/
theorem takesAll_of_pairwise {rules : List Rule} (h : rules.Pairwise MeetsQuietly) {u r : Rule}
    (hu : u ∈ rules) (hr : r ∈ rules) (hblocks : Blocks u r) : takesAll u.keys = true := by
  induction rules with
  | nil => cases hu
  | cons first rest ih =>
    obtain ⟨hfirst, hrest⟩ := List.pairwise_cons.1 h
    rcases List.mem_cons.1 hu with rfl | hulater
    · rcases List.mem_cons.1 hr with rfl | hrlater
      · exact absurd rfl hblocks.2.2
      · exact absurd hblocks (hfirst r hrlater).1
    · rcases List.mem_cons.1 hr with rfl | hrlater
      · exact (hfirst u hulater).2 hblocks
      · exact ih hrest hulater hrlater

/-- **The tree of some rules is built without a notice** exactly if every earlier and later one meet
quietly. -/
theorem notices_ofRules_eq_nil_iff (rules : List Rule) :
    (Level.ofRules rules).2 = [] ↔ rules.Pairwise MeetsQuietly := by
  induction rules using List.reverseRecOn with
  | nil => simp [Level.ofRules]
  | append_singleton rules t ih =>
    rw [notices_ofRules_concat, List.append_eq_nil_iff, ih,
      notices_insert_eq_nil_iff (Level.shows_ofRules rules), isBlocked_sentOf, replaces_sentOf,
      List.pairwise_append]
    simp only [List.pairwise_singleton, true_and, List.mem_singleton, forall_eq]
    refine and_congr_right fun hpairs => ?_
    constructor
    · rintro ⟨hfree, hkeeps⟩ r hr
      refine ⟨fun hblocks => hfree ⟨r, hr, hblocks⟩, fun hblocks => ?_⟩
      by_contra hplain
      have hplain' : takesAll t.keys = false := by simpa using hplain
      -- A rule was sent to this field before, so that one blocks the same rule.
      obtain ⟨u, hu, hkeys⟩ : ∃ u ∈ rules, u.keys = t.keys := by
        by_contra hnone
        exact hkeeps ⟨hplain', fun u hu heq => hnone ⟨u, hu, heq⟩, r, hr, hblocks⟩
      have hblocks' : Blocks u r := by rwa [Blocks, hkeys]
      have htakes := takesAll_of_pairwise hpairs hu hr hblocks'
      rw [hkeys, hplain'] at htakes
      cases htakes
    · intro hmeets
      constructor
      · rintro ⟨s, hs, hblocks⟩
        exact (hmeets s hs).1 hblocks
      · rintro ⟨hplain, -, s, hs, hblocks⟩
        rw [(hmeets s hs).2 hblocks] at hplain
        cases hplain

/-! ### Attributes with fields below them -/

theorem attributeNotices_append (first second : Level) :
    attributeNotices (first ++ second) = attributeNotices first ++ attributeNotices second :=
  List.filterMap_append

theorem levelNotices_cons (e : Segment × Entry) (rest : Level) :
    levelNotices (e :: rest) = [] ↔ levelNotices [e] = [] ∧ levelNotices rest = [] := by
  have hattributes : attributeNotices (e :: rest) = attributeNotices [e] ++ attributeNotices rest :=
    attributeNotices_append [e] rest
  have hchildren : childNotices (e :: rest) = childNotices [e] ++ childNotices rest := by
    simp [childNotices]
  simp only [levelNotices, hattributes, hchildren, List.append_eq_nil_iff]
  exact and_and_and_comm

theorem levelNotices_of_mem {level : Level} (h : levelNotices level = []) {e : Segment × Entry}
    (he : e ∈ level) : levelNotices [e] = [] := by
  induction level with
  | nil => cases he
  | cons first rest ih =>
    obtain ⟨hfirst, hrest⟩ := (levelNotices_cons first rest).1 h
    rcases List.mem_cons.1 he with rfl | hlater
    · exact hfirst
    · exact ih hrest hlater

/-- A branch gives no notice exactly if it is an element and the level below it gives none. -/
theorem levelNotices_branch (step : Segment) (children : Level) :
    levelNotices [(step, .branch children)] = [] ↔
      step.isAttribute = false ∧ levelNotices children = [] := by
  cases step <;>
    simp [levelNotices, attributeNotices, childNotices, Entry.notices, Segment.isAttribute]

/-- What an entry with a level below it holds is what that level holds, one step further on. -/
theorem heldIn_branch (step : Segment) (children : Level) :
    heldIn [(step, .branch children)] = (heldIn children).map (Prod.map (step :: ·) id) := by
  simp [heldIn, Entry.held]

theorem mem_heldIn {level : Level} {s : Sent} :
    s ∈ heldIn level ↔ ∃ e ∈ level, s ∈ heldIn [e] := by
  induction level with
  | nil => simp [heldIn]
  | cons e rest ih =>
    have hheld : heldIn (e :: rest) = heldIn [e] ++ heldIn rest := by
      simp [heldIn]
    rw [hheld, List.mem_append, ih, List.exists_mem_cons_iff]

/-- An entry without notices has nothing below an attribute. -/
theorem Entry.IsTidy.isOpen {step : Segment} {entry : Entry} (h : entry.IsTidy step)
    (hquiet : levelNotices [(step, entry)] = []) : ∀ s ∈ heldIn [(step, entry)], IsOpen s.1 := by
  induction h with
  | leaf _ => simp [heldIn, Entry.held, IsOpen]
  | fanout _ => simp [heldIn, Entry.held, IsOpen]
  | @branch step children _ ih =>
    obtain ⟨hstep, hbelow⟩ := (levelNotices_branch step children).1 hquiet
    intro s hs
    rw [heldIn_branch] at hs
    obtain ⟨⟨steps, rule⟩, hmem, rfl⟩ := List.mem_map.1 hs
    obtain ⟨e, he, hin⟩ := mem_heldIn.1 hmem
    have hopen : IsOpen steps = true := ih e he (levelNotices_of_mem hbelow he) _ hin
    obtain ⟨next, steps, rfl⟩ := List.exists_cons_of_ne_nil (ne_nil_of_mem_heldIn hmem)
    simpa [IsOpen, hstep] using hopen

/-- **A level without notices** has nothing below an attribute. -/
theorem isOpen_of_levelNotices_eq_nil {rules : List Rule}
    (h : levelNotices (Level.ofRules rules).1 = []) {r : Rule} (hr : r ∈ kept rules) :
    IsOpen r.steps = true := by
  have hheld : (r.steps, r) ∈ heldIn (Level.ofRules rules).1 :=
    (perm_heldIn_ofRules rules).mem_iff.2 (List.mem_map_of_mem hr)
  obtain ⟨e, he, hin⟩ := mem_heldIn.1 hheld
  exact ((Level.shows_ofRules rules).isTidy e he).isOpen (levelNotices_of_mem h he) _ hin

/-! ### Every rule -/

/-- A rule that survives is kept. -/
theorem mem_kept_of_survives {rules before after : List Rule} {r : Rule}
    (hrules : rules = before ++ r :: after) (h : Survives rules after r) : r ∈ kept rules := by
  have hamong : ∀ suffix, r ∈ keptAmong rules (suffix ++ r :: after) := by
    intro suffix
    induction suffix with
    | nil => simp [keptAmong, h]
    | cons first rest ih =>
      rw [List.cons_append, keptAmong]
      split
      · exact List.mem_cons_of_mem _ ih
      · exact ih
  rw [kept]
  conv => arg 1; arg 2; rw [hrules]
  exact hamong before

/-- **What becomes of every rule** when the output is written from nothing.  A rule with a named
step has an instruction of its own, or a later one is sent to the same field, or there is a notice,
or a later rule is sent to a field with brackets on its way. -/
theorem lost_with_notice (s : Stylesheet) (h : s.copiesInput = false) :
    ((written s).map (fieldPart s)).Subperm (Markup.Part.insideAll s.templates) ∧
      ∀ before r after, s.rules = before ++ r :: after → r.keys ≠ [] →
        r ∈ written s ∨ (∃ t ∈ after, t.keys = r.keys) ∨ s.notices ≠ [] ∨
          ∃ t ∈ after, takesAll t.keys = true ∧ Blocks t r := by
  refine ⟨subperm_rebuilt s h, ?_⟩
  intro before r after hrules hnamed
  by_contra hlost
  obtain ⟨hwritten, hreplaced, hnotices, hsilent⟩ : r ∉ written s ∧
      (∀ t ∈ after, t.keys ≠ r.keys) ∧ s.notices = [] ∧
        ∀ t ∈ after, takesAll t.keys = true → ¬ Blocks t r := by
    simpa [not_or] using hlost
  have hall : s.notices = (Level.ofRules s.rules).2 ++ levelNotices (Level.ofRules s.rules).1 := by
    simp [notices, h]
  rw [hall, List.append_eq_nil_iff, notices_ofRules_eq_nil_iff] at hnotices
  obtain ⟨hpairs, hlevel⟩ := hnotices
  have hfree : ∀ t ∈ s.rules, ¬ Blocks t r := by
    intro t ht hblocks
    have hr : r ∈ s.rules := by
      rw [hrules]
      simp
    have htakes := takesAll_of_pairwise hpairs ht hr hblocks
    rw [hrules] at hpairs ht
    obtain ⟨-, hmeets, hbefore⟩ := List.pairwise_append.1 hpairs
    rcases List.mem_append.1 ht with ht | ht
    · exact (hbefore t ht r List.mem_cons_self).1 hblocks
    · rcases List.mem_cons.1 ht with rfl | ht
      · exact hblocks.2.2 rfl
      · exact hsilent t ht htakes hblocks
  have hkept : r ∈ kept s.rules :=
    mem_kept_of_survives hrules ⟨hnamed, hfree, Or.inr hreplaced⟩
  apply hwritten
  rw [written, h]
  exact List.mem_filter.2 ⟨hkept, isOpen_of_levelNotices_eq_nil hlevel hkept⟩

/-- A field without brackets takes the place of another one, and there is a notice about it. -/
theorem lost_with_notice_replacing :
    let first : Rule := ⟨"1", "a.b.c", .constant "u"⟩
    let after : List Rule := [⟨"2", "p.q[@t='1']", .constant "v"⟩, ⟨"3", "a.b", .constant "w"⟩]
    let s : Stylesheet := ⟨"", false, defaultNamespace, "ns", first :: after⟩
    s.copiesInput = false ∧
      ((written s).map (fieldPart s)).Subperm (Markup.Part.insideAll s.templates) ∧
      written s = after ∧ s.notices ≠ [] := by
  intro first after s
  obtain ⟨hinstructions, hrules⟩ := lost_with_notice s rfl
  have hwritten : written s = after := by decide
  refine ⟨rfl, hinstructions, hwritten, ?_⟩
  have hlater : (∀ t ∈ after, t.keys ≠ first.keys) ∧
      ∀ t ∈ after, takesAll t.keys = true → ¬ Blocks t first := by decide
  rcases hrules [] first after rfl (by decide) with hmem | ⟨t, ht, hkeys⟩ | hnotices | ⟨t, ht, h⟩
  · rw [hwritten] at hmem
    exact absurd hmem (by decide)
  · exact absurd hkeys (hlater.1 t ht)
  · exact hnotices
  · exact absurd h.2 (hlater.2 t ht h.1)

/-- A field with brackets takes the place of another one without a notice: what is written is what
would be written without the first rule. -/
theorem lost_in_silence :
    let first : Rule := ⟨"1", "a[@t='1'].b", .constant "x"⟩
    let second : Rule := ⟨"2", "a[@t='1']", .constant "y"⟩
    let s : Stylesheet := ⟨"", false, defaultNamespace, "ns", [first, second]⟩
    (first.keys ≠ [] ∧ second.keys ≠ first.keys) ∧
      first ∉ written s ∧ s.templates = { s with rules := [second] }.templates ∧
      s.notices = [] :=
  ⟨by decide, by decide, rfl, by decide⟩

end Crosswalk.Stylesheet
