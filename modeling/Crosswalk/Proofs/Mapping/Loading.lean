import Crosswalk.Proofs.Mapping.Store
import Mathlib.Data.List.Basic
import Mathlib.Data.List.Induction

/-!
# Rules taken in at once and one by one

A list of rules is loaded in one pass that remembers the identifiers it has met, while a single rule
is added after a search through the mapping.  Loading a list comes to the same as adding its rules
one after the other to the mapping without rules: either all of them are taken in, in their order, or
both ways fail for the same reason, which is that of the first rule that is at fault.

* `foldlM_add_eq` : the pass over a list and the additions, from any mapping on.
* `isFaultless_or_firstFault` : a list without faults, or one with a first fault.
* `foldlM_add_of_faultless`, `foldlM_add_of_firstFault` : where the additions end.
* `isFaultless_iff_valid` : the lists without faults are the valid ones.
* `ofRules_one_by_one` : loading a list and adding its rules.
-/

namespace Crosswalk.Mapping

/-! ### Faults -/

/-- What is wrong with a rule that stands behind others: it does not pass its check, or it passes
and has the identifier of one of them. -/
inductive FaultBehind (before : List Rule) (r : Rule) : Fault → Prop
  | check {fault : Fault} (h : r.check = .error fault) : FaultBehind before r fault
  | repeated (h : r.check = .ok ()) (hid : r.id ∈ before.map Rule.id) :
      FaultBehind before r (.repeatedId r.id)

/-- Whether no rule of a list is at fault behind those in front of it. -/
def IsFaultless (rules : List Rule) : Prop :=
  ∀ before r later, rules = before ++ r :: later → ∀ fault, ¬ FaultBehind before r fault

/-- Whether a list of rules has a fault and none in front of it. -/
def FirstFault (rules : List Rule) (fault : Fault) : Prop :=
  ∃ before r later, rules = before ++ r :: later ∧ IsFaultless before ∧ FaultBehind before r fault

theorem isFaultless_nil : IsFaultless [] := by
  intro before r later h
  simp at h

/-- One more rule at the end leaves a list without faults if it is not at fault itself. -/
theorem IsFaultless.concat {rules : List Rule} (h : IsFaultless rules) {r : Rule}
    (hr : ∀ fault, ¬ FaultBehind rules r fault) : IsFaultless (rules ++ [r]) := by
  intro before s later heq
  rcases List.eq_nil_or_concat' later with hlater | ⟨middle, last, hlater⟩
  · subst hlater
    obtain ⟨rfl, hs⟩ := List.append_inj' heq rfl
    obtain rfl : r = s := by simpa using hs
    exact hr
  · subst hlater
    rw [← List.cons_append, ← List.append_assoc] at heq
    exact h before s middle (List.append_inj' heq rfl).1

/-- The rules at the front of a list without faults have none. -/
theorem IsFaultless.of_append {rules more : List Rule} (h : IsFaultless (rules ++ more)) :
    IsFaultless rules := by
  intro before r later heq
  exact h before r (later ++ more) (by simp [heq])

/-- Further rules change nothing about the first fault of a list. -/
theorem FirstFault.append {rules : List Rule} {fault : Fault} (h : FirstFault rules fault)
    (more : List Rule) : FirstFault (rules ++ more) fault := by
  obtain ⟨before, r, later, rfl, hbefore, hr⟩ := h
  exact ⟨before, r, later ++ more, by simp, hbefore, hr⟩

/-- **A list of rules** has no fault, or it has a first one. -/
theorem isFaultless_or_firstFault (rules : List Rule) :
    IsFaultless rules ∨ ∃ fault, FirstFault rules fault := by
  induction rules using List.reverseRecOn with
  | nil => exact Or.inl isFaultless_nil
  | append_singleton rules r ih =>
    rcases ih with hnone | ⟨fault, hfirst⟩
    · by_cases hr : ∃ fault, FaultBehind rules r fault
      · obtain ⟨fault, hfault⟩ := hr
        exact Or.inr ⟨fault, rules, r, [], rfl, hnone, hfault⟩
      · exact Or.inl (hnone.concat fun fault hfault => hr ⟨fault, hfault⟩)
    · exact Or.inr ⟨fault, hfirst.append [r]⟩

/-! ### One addition -/

/-- A rule is refused for what is wrong with it behind the rules of the mapping. -/
theorem add_of_faultBehind {m : Mapping} {r : Rule} {fault : Fault}
    (h : FaultBehind m.rules r fault) : m.add r = .error fault := by
  cases h with
  | check hcheck => rw [add, hcheck]
  | repeated hcheck hid =>
    have htaken : (m.get? r.id).isSome = true := by
      rw [Option.isSome_iff_ne_none]
      exact fun hnone => (get?_eq_none_iff m r.id).1 hnone hid
    rw [add, hcheck, htaken]
    rfl

/-- A rule with which nothing is wrong is taken in. -/
theorem add_of_not_faultBehind {m : Mapping} {r : Rule}
    (h : ∀ fault, ¬ FaultBehind m.rules r fault) : m.add r = .ok ⟨m.rules ++ [r]⟩ := by
  rw [add_eq_ok_iff]
  cases hcheck : r.check with
  | error fault => exact absurd (.check hcheck) (h fault)
  | ok _ => exact ⟨rfl, fun hid => h _ (.repeated hcheck hid), rfl⟩

/-! ### All additions -/

/-- Rules without faults are all taken in, in their order. -/
theorem foldlM_add_of_faultless {rules : List Rule} (h : IsFaultless rules) :
    rules.foldlM add empty = .ok ⟨rules⟩ := by
  induction rules using List.reverseRecOn with
  | nil => rfl
  | append_singleton rules r ih =>
    have hr : ∀ fault, ¬ FaultBehind rules r fault := h rules r [] rfl
    rw [List.foldlM_append, ih h.of_append]
    change [r].foldlM add ⟨rules⟩ = _
    rw [List.foldlM_cons, add_of_not_faultBehind (m := ⟨rules⟩) hr]
    rfl

/-- The additions end at the first fault. -/
theorem foldlM_add_of_firstFault {rules : List Rule} {fault : Fault}
    (h : FirstFault rules fault) : rules.foldlM add empty = .error fault := by
  obtain ⟨before, r, later, rfl, hbefore, hr⟩ := h
  rw [List.foldlM_append, foldlM_add_of_faultless hbefore]
  change (r :: later).foldlM add ⟨before⟩ = _
  rw [List.foldlM_cons, add_of_faultBehind (m := ⟨before⟩) hr]
  rfl

/-- The additions come to an end exactly if no rule is at fault. -/
theorem foldlM_add_eq_ok_iff {rules : List Rule} {m : Mapping} :
    rules.foldlM add empty = .ok m ↔ m.rules = rules ∧ IsFaultless rules := by
  constructor
  · intro h
    rcases isFaultless_or_firstFault rules with hnone | ⟨fault, hfirst⟩
    · rw [foldlM_add_of_faultless hnone] at h
      obtain rfl := Except.ok.inj h
      exact ⟨rfl, hnone⟩
    · rw [foldlM_add_of_firstFault hfirst] at h
      cases h
  · intro ⟨hrules, hnone⟩
    subst hrules
    exact foldlM_add_of_faultless hnone

/-- The additions fail exactly for the first fault. -/
theorem foldlM_add_eq_error_iff {rules : List Rule} {fault : Fault} :
    rules.foldlM add empty = .error fault ↔ FirstFault rules fault := by
  constructor
  · intro h
    rcases isFaultless_or_firstFault rules with hnone | ⟨first, hfirst⟩
    · rw [foldlM_add_of_faultless hnone] at h
      cases h
    · rw [foldlM_add_of_firstFault hfirst] at h
      obtain rfl := Except.error.inj h
      exact hfirst
  · exact foldlM_add_of_firstFault

/-! ### The pass over a list -/

/-- **The pass over a list and the additions** go side by side, if the identifiers that the pass has
met are those of the mapping. -/
theorem foldlM_add_eq {m : Mapping} {seen : List String} (h : ∀ id, id ∈ seen ↔ id ∈ m.ids)
    (rules : List Rule) :
    rules.foldlM add m = (checkAll seen rules).map fun _ => ⟨m.rules ++ rules⟩ := by
  induction rules generalizing m seen with
  | nil => simp [checkAll, Except.map, pure, Except.pure]
  | cons r rest ih =>
    rw [List.foldlM_cons, checkAll]
    cases hcheck : r.check with
    | error fault =>
      rw [add, hcheck]
      rfl
    | ok _ =>
      by_cases hseen : r.id ∈ seen
      · have hadd : m.add r = .error (.repeatedId r.id) :=
          add_of_faultBehind (.repeated hcheck ((h r.id).1 hseen))
        have hmet : seen.contains r.id = true := by simpa using hseen
        rw [hadd, hmet]
        rfl
      · have hadd : m.add r = .ok ⟨m.rules ++ [r]⟩ :=
          add_eq_ok_iff.2 ⟨hcheck, fun hid => hseen ((h r.id).2 hid), rfl⟩
        have hnew : seen.contains r.id = false := by simpa using hseen
        have hnext : ∀ id, id ∈ r.id :: seen ↔ id ∈ ids ⟨m.rules ++ [r]⟩ := by
          intro id
          have hold : id ∈ seen ↔ id ∈ m.rules.map Rule.id := h id
          simp [ids, hold, or_comm]
        rw [hadd, hnew]
        change rest.foldlM add ⟨m.rules ++ [r]⟩ = _
        rw [ih hnext, List.append_assoc]
        rfl

/-- Loading a list is adding its rules to the mapping without rules. -/
theorem ofRules_eq_foldlM (rules : List Rule) : ofRules rules = rules.foldlM add empty := by
  have hmet : ∀ id, id ∈ ([] : List String) ↔ id ∈ empty.ids := fun id => Iff.rfl
  rw [foldlM_add_eq hmet, ofRules]
  cases checkAll [] rules with
  | error fault => rfl
  | ok _ => rfl

/-- The lists without faults are those whose rules pass their checks and have different
identifiers. -/
theorem isFaultless_iff_valid {rules : List Rule} : IsFaultless rules ↔ Valid ⟨rules⟩ := by
  calc IsFaultless rules
      ↔ rules.foldlM add empty = .ok ⟨rules⟩ := by simp [foldlM_add_eq_ok_iff]
    _ ↔ ofRules rules = .ok ⟨rules⟩ := by rw [ofRules_eq_foldlM]
    _ ↔ Valid ⟨rules⟩ := by simp [ofRules_eq_ok_iff]

/-- **Loading a list of rules at once** is adding them one by one.  Both give the mapping with these
rules in their order exactly if none is at fault, and both fail exactly for the first fault. -/
theorem ofRules_one_by_one (rules : List Rule) :
    ofRules rules = rules.foldlM add empty ∧
      (∀ m, ofRules rules = .ok m ↔ m.rules = rules ∧ IsFaultless rules) ∧
      ∀ fault, ofRules rules = .error fault ↔ FirstFault rules fault := by
  have hfold := ofRules_eq_foldlM rules
  refine ⟨hfold, ?_, ?_⟩
  · intro m
    rw [hfold]
    exact foldlM_add_eq_ok_iff
  · intro fault
    rw [hfold]
    exact foldlM_add_eq_error_iff

/-- A constant without text is found at fault before the identifier that it repeats, and a rule that
repeats an identifier before a later one with a bad path. -/
example :
    ofRules [⟨"1", "a", .constant "x"⟩, ⟨"1", "b", .constant ""⟩] = .error (.emptyConstant "1") ∧
      ofRules [⟨"1", "a", .constant "x"⟩, ⟨"1", "b", .direct "i"⟩, ⟨"2", "[", .direct "i"⟩]
        = .error (.repeatedId "1") :=
  ⟨rfl, rfl⟩

end Crosswalk.Mapping
