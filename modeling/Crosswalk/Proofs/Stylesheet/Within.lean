import Crosswalk.Proofs.Stylesheet.SentRules
import Crosswalk.Stylesheet.Overrides

/-!
# What trees and groups are made of

The tree of output fields and the groups of appended fields hold nothing but rules of the list that
they are made from, and steps of the output paths of these rules.  So whatever is true of all steps and
all rules of a list is true of all that stands in its tree and in its groups.

* `Level.within_ofRules` : the tree.
* `within_grouped` : the groups.
-/

namespace Crosswalk.Stylesheet

variable {steps : Segment → Prop} {rules : Rule → Prop}

/-! ### Trees -/

/-- Whether all steps below an entry are of some sort, and all rules of another one. -/
inductive Entry.Within (steps : Segment → Prop) (rules : Rule → Prop) : Entry → Prop
  | branch {children : List (Segment × Entry)} (hsteps : ∀ e ∈ children, steps e.1)
      (hentries : ∀ e ∈ children, Within steps rules e.2) : Within steps rules (.branch children)
  | leaf {rule : Rule} (hrule : rules rule) : Within steps rules (.leaf rule)
  | fanout {members : List Rule} (hrules : ∀ r ∈ members, rules r) :
      Within steps rules (.fanout members)

/-- Whether all steps of a level and below are of some sort, and all rules of another one. -/
def Level.Within (steps : Segment → Prop) (rules : Rule → Prop) (level : Level) : Prop :=
  ∀ e ∈ level, steps e.1 ∧ e.2.Within steps rules

namespace Level

variable {level : Level}

theorem within_nil : Level.Within steps rules [] := fun _ he => nomatch he

theorem Within.put (h : level.Within steps rules) {step : Segment} {entry : Entry}
    (hstep : steps step) (hentry : entry.Within steps rules) :
    Level.Within steps rules (Fields.put step entry level) := by
  intro e he
  rcases Fields.mem_put he with rfl | he
  · exact ⟨hstep, hentry⟩
  · exact h e he

theorem Within.children (h : level.Within steps rules) {step : Segment} {children : Level}
    (hget : Fields.get? step level = some (.branch children)) :
    Level.Within steps rules children := by
  have hentry := (h _ (Fields.mem_of_get? hget)).2
  cases hentry with
  | branch hsteps hentries => exact fun e he => ⟨hsteps e he, hentries e he⟩

theorem Within.branch (h : level.Within steps rules) :
    (Entry.branch level).Within steps rules :=
  .branch (fun e he => (h e he).1) (fun e he => (h e he).2)

theorem Within.place (h : level.Within steps rules) {rule : Rule} (hrule : rules rule)
    {step : Segment} (hstep : steps step) :
    Level.Within steps rules (place rule step level).1 := by
  unfold Level.place
  split
  · rename_i members _ hget
    have hentry := (h _ (Fields.mem_of_get? hget)).2
    cases hentry with
    | fanout hmembers =>
      refine h.put hstep (.fanout ?_)
      intro r hr
      rcases List.mem_append.1 hr with hr | hr
      · exact hmembers r hr
      · exact List.mem_singleton.1 hr ▸ hrule
  · exact h.put hstep (.fanout (by simpa using hrule))
  · exact h.put hstep (.leaf hrule)
  · exact h.put hstep (.leaf hrule)

/-- **One more rule** brings in its own steps and itself. -/
theorem Within.insert (h : level.Within steps rules) {rule : Rule} (hrule : rules rule)
    {path : List Segment} (hpath : ∀ step ∈ path, steps step) :
    Level.Within steps rules (insert rule path level).1 := by
  induction path generalizing level with
  | nil => exact h
  | cons step rest ih =>
    obtain ⟨hstep, hrest⟩ := List.forall_mem_cons.1 hpath
    match rest with
    | [] => exact h.place hrule hstep
    | next :: rest =>
      rw [Level.insert]
      · split
        · rename_i children hget
          exact h.put hstep (ih (h.children hget) hrest).branch
        · exact h
        · exact h.put hstep (ih within_nil hrest).branch
      · simp

end Level

/-- The tree of some rules holds nothing but their steps and themselves. -/
theorem Level.within_ofRules (given : List Rule)
    (hrules : ∀ r ∈ given, rules r)
    (hsteps : ∀ r ∈ given, ∀ step ∈ Path.namedSegments r.outputPath, steps step) :
    Level.Within steps rules (Level.ofRules given).1 := by
  induction given using List.reverseRecOn with
  | nil => exact within_nil
  | append_singleton given rule ih =>
    obtain ⟨hearlier, hown⟩ := List.forall_mem_append.1 hrules
    obtain ⟨hbefore, hpath⟩ := List.forall_mem_append.1 hsteps
    rw [ofRules_concat]
    exact (ih hearlier hbefore).insert (List.forall_mem_singleton.1 hown)
      (List.forall_mem_singleton.1 hpath)

/-! ### Groups -/

/-- Whether the steps that a rule appends are of some sort, and the rule itself of another one. -/
structure Appended.Within (steps : Segment → Prop) (rules : Rule → Prop) (a : Appended) : Prop where
  rule : rules a.rule
  parent : ∀ step, a.parent = some step → steps step
  field : steps a.field

theorem Appended.within_ofRule? {rule : Rule} {above : List Segment} {a : Appended}
    (hrule : rules rule) (hsteps : ∀ step ∈ Path.namedSegments rule.outputPath, steps step)
    (h : Appended.ofRule? rule = some (above, a)) :
    (∀ step ∈ above, steps step) ∧ a.Within steps rules := by
  have hreversed : ∀ step ∈ (Path.namedSegments rule.outputPath).reverse, steps step :=
    fun step hstep => hsteps step (List.mem_reverse.1 hstep)
  unfold Appended.ofRule? at h
  split at h
  · simp at h
  · rename_i field heq
    simp only [Option.some.injEq, Prod.mk.injEq] at h
    obtain ⟨rfl, rfl⟩ := h
    rw [heq] at hreversed
    exact ⟨fun _ hstep => (nomatch hstep), hrule, fun _ hparent => (nomatch hparent),
      hreversed field List.mem_cons_self⟩
  · rename_i field parent rest heq
    simp only [Option.some.injEq, Prod.mk.injEq] at h
    obtain ⟨rfl, rfl⟩ := h
    rw [heq] at hreversed
    obtain ⟨hfield, hparent, hrest⟩ :
        steps field ∧ steps parent ∧ ∀ step ∈ rest, steps step := by
      simpa using hreversed
    refine ⟨fun step hstep => hrest step (List.mem_reverse.1 hstep), hrule, ?_, hfield⟩
    intro step hstep
    exact Option.some.inj hstep ▸ hparent

/-- Whether all steps in some groups are of some sort, and all rules of another one. -/
def GroupsWithin (steps : Segment → Prop) (rules : Rule → Prop)
    (groups : List (List Segment × List Appended)) : Prop :=
  ∀ g ∈ groups, (∀ step ∈ g.1, steps step) ∧ ∀ a ∈ g.2, a.Within steps rules

theorem GroupsWithin.addMember {groups : List (List Segment × List Appended)}
    (h : GroupsWithin steps rules groups) {above : List Segment} {a : Appended}
    (habove : ∀ step ∈ above, steps step) (ha : a.Within steps rules) :
    GroupsWithin steps rules (addMember groups (above, a)) := by
  intro g hg
  rcases Fields.mem_put hg with rfl | hg
  · refine ⟨habove, ?_⟩
    intro other hother
    rcases List.mem_append.1 hother with hother | hother
    · cases hget : Fields.get? above groups with
      | none => simp [hget] at hother
      | some others =>
        rw [hget] at hother
        exact (h _ (Fields.mem_of_get? hget)).2 other hother
    · exact List.mem_singleton.1 hother ▸ ha
  · exact h g hg

/-- The groups of some rules hold nothing but their steps and themselves. -/
theorem within_grouped (given : List Rule) (hrules : ∀ r ∈ given, rules r)
    (hsteps : ∀ r ∈ given, ∀ step ∈ Path.namedSegments r.outputPath, steps step) :
    GroupsWithin steps rules (grouped given) := by
  have hfold : ∀ (members : List (List Segment × Appended))
      (groups : List (List Segment × List Appended)),
      (∀ m ∈ members, (∀ step ∈ m.1, steps step) ∧ m.2.Within steps rules) →
      GroupsWithin steps rules groups →
      GroupsWithin steps rules (members.foldl addMember groups) := by
    intro members
    induction members with
    | nil => exact fun _ _ h => h
    | cons m members ih =>
      intro groups hmembers h
      obtain ⟨⟨habove, hm⟩, hrest⟩ := List.forall_mem_cons.1 hmembers
      exact ih _ hrest (h.addMember habove hm)
  refine hfold _ [] ?_ (fun g hg => nomatch hg)
  intro m hm
  obtain ⟨r, hr, hof⟩ := List.mem_filterMap.1 hm
  exact Appended.within_ofRule? (hrules r hr) (hsteps r hr) hof

end Crosswalk.Stylesheet
