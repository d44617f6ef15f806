import Crosswalk.Mapping.Basic

/-!
# Mappings that can be made

A mapping is made by reading, from a list of rules, and by adding and removing single rules.  Each of
these ways leads from rules that pass their check, with different identifiers, to such rules.

* `add_eq_ok_iff` and `ofRules_eq_ok_iff` : when rules are taken in, and what then comes out.
* `Made.valid` : every mapping that can be made has rules that pass and different identifiers.
-/

namespace Crosswalk.Mapping

/-- A rule is taken in exactly if it passes its check and its identifier is new; it then stands at
the end. -/
theorem add_eq_ok_iff {m n : Mapping} {r : Rule} :
    m.add r = .ok n ↔ r.check = .ok () ∧ r.id ∉ m.ids ∧ n = ⟨m.rules ++ [r]⟩ := by
  unfold add
  cases hcheck : r.check with
  | error fault => simp
  | ok _ =>
    by_cases hfree : m.get? r.id = none
    · have hid : r.id ∉ m.ids := (get?_eq_none_iff m r.id).1 hfree
      simp [hfree, hid, eq_comm]
    · have hid : r.id ∈ m.ids :=
        Decidable.not_not.1 (mt (get?_eq_none_iff m r.id).2 hfree)
      have hsome : (m.get? r.id).isSome = true := Option.isSome_iff_ne_none.2 hfree
      simp [hsome, hid]

/-- The rules pass their checks and have different identifiers. -/
structure Valid (m : Mapping) : Prop where
  checked : ∀ r ∈ m.rules, r.check = .ok ()
  distinct : m.ids.Nodup

theorem checkAll_eq_ok_iff (seen : List String) (rules : List Rule) :
    checkAll seen rules = .ok () ↔
      (∀ r ∈ rules, r.check = .ok ()) ∧ (rules.map Rule.id).Nodup ∧
        ∀ r ∈ rules, r.id ∉ seen := by
  induction rules generalizing seen with
  | nil => simp [checkAll]
  | cons r rest ih =>
    rw [checkAll]
    cases hcheck : r.check with
    | error fault => simp [hcheck]
    | ok _ =>
      by_cases hseen : r.id ∈ seen
      · simp [hseen]
      · have hskip : seen.contains r.id = false := by simpa using hseen
        rw [hskip, if_neg Bool.false_ne_true, ih, List.map_cons, List.nodup_cons]
        constructor
        · intro ⟨hchecks, hnodup, hnew⟩
          refine ⟨List.forall_mem_cons.2 ⟨hcheck, hchecks⟩, ⟨?_, hnodup⟩, ?_⟩
          · intro hmem
            obtain ⟨s, hs, hid⟩ := List.mem_map.1 hmem
            exact hnew s hs (hid ▸ List.mem_cons_self)
          · refine List.forall_mem_cons.2 ⟨hseen, fun s hs hmem => ?_⟩
            exact hnew s hs (List.mem_cons_of_mem _ hmem)
        · intro ⟨hchecks, ⟨hother, hnodup⟩, hnew⟩
          refine ⟨(List.forall_mem_cons.1 hchecks).2, hnodup, ?_⟩
          intro s hs hmem
          rcases List.mem_cons.1 hmem with hid | hmem
          · exact hother (hid ▸ List.mem_map_of_mem hs)
          · exact hnew s (List.mem_cons_of_mem _ hs) hmem

/-- A list of rules is a mapping exactly if the rules pass their checks and have different
identifiers. -/
theorem ofRules_eq_ok_iff {rules : List Rule} {m : Mapping} :
    ofRules rules = .ok m ↔ m = ⟨rules⟩ ∧ m.Valid := by
  have hall := checkAll_eq_ok_iff [] rules
  unfold ofRules
  cases hcheck : checkAll [] rules with
  | error fault =>
    rw [hcheck] at hall
    simp only [reduceCtorEq, false_iff, not_and]
    intro heq hvalid
    subst heq
    exact absurd (hall.2 ⟨hvalid.checked, hvalid.distinct, by simp⟩) (by simp)
  | ok _ =>
    obtain ⟨hchecked, hdistinct, -⟩ := hall.1 hcheck
    simp only [Except.ok.injEq]
    constructor
    · intro heq
      subst heq
      exact ⟨rfl, hchecked, hdistinct⟩
    · intro heq
      exact heq.1.symm

theorem valid_empty : empty.Valid where
  checked := by simp [empty]
  distinct := by simp [empty, ids]

theorem Valid.add {m n : Mapping} {r : Rule} (h : m.Valid) (hadd : m.add r = .ok n) :
    n.Valid := by
  obtain ⟨hcheck, hnew, rfl⟩ := add_eq_ok_iff.1 hadd
  refine ⟨?_, ?_⟩
  · intro s hs
    rcases List.mem_append.1 hs with hs | hs
    · exact h.checked s hs
    · exact List.mem_singleton.1 hs ▸ hcheck
  · have hids : ids ⟨m.rules ++ [r]⟩ = m.ids ++ [r.id] := by simp [ids]
    rw [hids, List.nodup_append]
    refine ⟨h.distinct, by simp, ?_⟩
    intro id hid other hother heq
    exact hnew (List.mem_singleton.1 hother ▸ heq ▸ hid)

theorem Valid.remove {m : Mapping} (h : m.Valid) (id : String) : (m.remove id).Valid where
  checked := fun r hr => h.checked r (List.mem_filter.1 hr).1
  distinct := h.distinct.sublist (List.filter_sublist.map Rule.id)

/-- The mappings that can be made. -/
inductive Made : Mapping → Prop
  | empty : Made .empty
  | ofRules {rules : List Rule} {m : Mapping} (h : Mapping.ofRules rules = .ok m) : Made m
  | read {text : String} {m : Mapping} (h : Mapping.read text = .ok m) : Made m
  | add {m n : Mapping} {r : Rule} (hm : Made m) (h : m.add r = .ok n) : Made n
  | addDirect {m n : Mapping} {base outputPath sourcePath : String} (hm : Made m)
      (h : m.addDirect base outputPath sourcePath = .ok n) : Made n
  | addConstant {m n : Mapping} {base outputPath value : String} (hm : Made m)
      (h : m.addConstant base outputPath value = .ok n) : Made n
  | remove {m : Mapping} (id : String) (hm : Made m) : Made (m.remove id)

/-- **Every mapping that can be made is valid.** -/
theorem Made.valid {m : Mapping} (h : m.Made) : m.Valid := by
  induction h with
  | empty => exact valid_empty
  | ofRules h => exact (ofRules_eq_ok_iff.1 h).2
  | read h =>
    unfold Mapping.read at h
    split at h
    · simp at h
    · exact (ofRules_eq_ok_iff.1 h).2
  | add _ h ih => exact ih.add h
  | addDirect _ h ih => exact ih.add h
  | addConstant _ h ih => exact ih.add h
  | remove id _ ih => exact ih.remove id

end Crosswalk.Mapping
