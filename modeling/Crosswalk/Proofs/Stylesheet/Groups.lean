import Crosswalk.Proofs.Stylesheet.SentRules
import Crosswalk.Stylesheet.Overrides

/-!
# The groups of appended fields

A stylesheet that copies its input appends the last two steps of every output path, and groups the
rules by the steps before those.  There is one group for each element that is appended to, and
every rule with a named step is a member of exactly one of them.

* `Appended.ofRule?_eq` : what a rule appends, and where.
* `names_grouped`, `nodup_names_grouped` : the elements that the groups stand for.
* `perm_members`, `map_ofRule?` : the members of all groups.
-/

namespace Crosswalk

/-- The steps that lead to the element that a rule appends to: all but the last two. -/
def Rule.above (r : Rule) : List Segment :=
  r.steps.dropLast.dropLast

namespace Stylesheet

/-- A rule appends its last step, in an element for the step before it, if there is one. -/
theorem Appended.ofRule?_eq (r : Rule) :
    Appended.ofRule? r = r.steps.getLast?.map fun field =>
      (r.above, ⟨r, r.steps.dropLast.getLast?, field⟩) := by
  have hsteps : r.steps = (Path.namedSegments r.outputPath).reverse.reverse :=
    (List.reverse_reverse _).symm
  unfold Appended.ofRule? Rule.above
  rw [hsteps]
  cases (Path.namedSegments r.outputPath).reverse with
  | nil => rfl
  | cons field before =>
    cases before with
    | nil => rfl
    | cons parent above => simp

/-- The groups of a list that has one more rule at its end. -/
theorem grouped_concat (rules : List Rule) (r : Rule) :
    grouped (rules ++ [r]) =
      match Appended.ofRule? r with
      | none => grouped rules
      | some member => addMember (grouped rules) member := by
  unfold grouped
  cases h : Appended.ofRule? r with
  | none => simp [h]
  | some member => simp [h]

/-- The members that some rules become are the rules with named steps, each sent to the element that
it appends to. -/
theorem map_ofRule? (rules : List Rule) :
    (rules.filterMap Appended.ofRule?).map (fun member => (member.1, member.2.rule))
      = (rules.filter fun r => !r.steps.isEmpty).map fun r => (r.above, r) := by
  induction rules with
  | nil => rfl
  | cons r rules ih =>
    rw [List.filterMap_cons, Appended.ofRule?_eq]
    by_cases hsteps : r.steps = []
    · rw [List.filter_cons_of_neg (by simp [hsteps]), ← ih]
      simp [hsteps]
    · rw [List.filter_cons_of_pos (by simp [hsteps]), List.map_cons, ← ih,
        List.getLast?_eq_some_getLast hsteps]
      rfl

theorem map_rule_ofRule? (rules : List Rule) :
    (rules.filterMap Appended.ofRule?).map (fun member => member.2.rule)
      = rules.filter fun r => !r.steps.isEmpty := by
  simpa [Function.comp_def] using congrArg (List.map Prod.snd) (map_ofRule? rules)

theorem map_above_ofRule? (rules : List Rule) :
    (rules.filterMap Appended.ofRule?).map Prod.fst
      = (rules.filter fun r => !r.steps.isEmpty).map Rule.above := by
  simpa [Function.comp_def] using congrArg (List.map Prod.fst) (map_ofRule? rules)

/-! ### The elements that are appended to -/

/-- **The elements that the groups stand for**, in the order in which the rules first mention
them. -/
theorem names_grouped (rules : List Rule) :
    Fields.names (grouped rules)
      = ((rules.filter fun r => !r.steps.isEmpty).map Rule.above).eraseDups := by
  have hempty : Fields.names ([] : List (List Segment × List Appended))
      = ([] : List (List Segment)).eraseDups := rfl
  have hput : ∀ groups member, ∃ members, addMember groups member
      = Fields.put member.1 members groups := fun _ _ => ⟨_, rfl⟩
  rw [grouped, Fields.names_foldl hput hempty, List.nil_append, map_above_ofRule?]

/-- No two groups stand for the same element. -/
theorem nodup_names_grouped (rules : List Rule) : (Fields.names (grouped rules)).Nodup := by
  induction rules using List.reverseRecOn with
  | nil => exact List.nodup_nil
  | append_singleton rules r ih =>
    rw [grouped_concat]
    split
    · exact ih
    · exact Fields.nodup_names_put _ _ ih

/-- The groups stand for the elements that the rules with named steps append to. -/
theorem mem_names_grouped (rules : List Rule) (steps : List Segment) :
    steps ∈ Fields.names (grouped rules) ↔ ∃ r ∈ rules, r.steps ≠ [] ∧ r.above = steps := by
  rw [names_grouped, List.mem_eraseDups]
  simp [and_assoc]

/-! ### The members of all groups -/

/-- A new member is one member more, wherever it stands. -/
theorem perm_members_addMember (groups : List (List Segment × List Appended))
    (member : List Segment × Appended) :
    ((addMember groups member).flatMap Prod.snd).Perm (groups.flatMap Prod.snd ++ [member.2]) := by
  induction groups with
  | nil => exact .refl _
  | cons group groups ih =>
    obtain ⟨steps, members⟩ := group
    by_cases h : steps = member.1
    · have hadded : addMember ((steps, members) :: groups) member
          = (member.1, members ++ [member.2]) :: groups := by
        simp [addMember, Fields.get?, Fields.put, h]
      rw [hadded, List.flatMap_cons, List.flatMap_cons, List.append_assoc, List.append_assoc]
      exact List.perm_append_comm.append_left members
    · have hadded : addMember ((steps, members) :: groups) member
          = (steps, members) :: addMember groups member := by
        simp [addMember, Fields.get?, Fields.put, h]
      rw [hadded, List.flatMap_cons, List.flatMap_cons, List.append_assoc]
      exact ih.append_left members

/-- **Every rule with a named step** is a member of one group, once. -/
theorem perm_members (rules : List Rule) :
    ((grouped rules).flatMap Prod.snd).Perm
      ((rules.filterMap Appended.ofRule?).map Prod.snd) := by
  induction rules using List.reverseRecOn with
  | nil => exact .refl _
  | append_singleton rules r ih =>
    rw [grouped_concat, List.filterMap_append, List.map_append]
    cases h : Appended.ofRule? r with
    | none => simpa [h] using ih
    | some member =>
      have hmore := (perm_members_addMember (grouped rules) member).trans
        (ih.append_right [member.2])
      simpa [h] using hmore

end Stylesheet

end Crosswalk
