import Crosswalk.Proofs.Mapping.Store
import Mathlib.Data.List.Basic
import Mathlib.Data.List.Induction

/-!
# Runs of changes to a mapping

A mapping is worked on by one change after the other.  A change either gives a new mapping or fails,
and then the mapping before it is still the one in hand.  After every run of changes the rules pass
their checks and have different identifiers.  Because of this the removal of a rule takes out that
one rule and nothing else, it undoes the addition of the rule, and removals may be exchanged.

* `made_iff_run` : the mappings that can be made are those that runs of changes lead to.
* `Valid.rules_remove` : what a removal leaves.
* `valid_run` : what holds after every run.
-/

namespace Crosswalk.Mapping

/-- What can be done to a mapping. -/
inductive Change where
  | clear
  | ofRules (rules : List Rule)
  | read (text : String)
  | add (r : Rule)
  /-- Adds a rule whose identifier is made from the text `base`. -/
  | addDirect (base outputPath sourcePath : String)
  /-- Adds a rule whose identifier is made from the text `base`. -/
  | addConstant (base outputPath value : String)
  | remove (id : String)

/-- The outcome of a change. -/
def change (m : Mapping) : Change → Except Fault Mapping
  | .clear => .ok empty
  | .ofRules rules => ofRules rules
  | .read text => read text
  | .add r => m.add r
  | .addDirect base outputPath sourcePath => m.addDirect base outputPath sourcePath
  | .addConstant base outputPath value => m.addConstant base outputPath value
  | .remove id => .ok (m.remove id)

/-- The mapping after a change, which is the same one if the change fails. -/
def after (m : Mapping) (c : Change) : Mapping :=
  match m.change c with
  | .ok n => n
  | .error _ => m

/-- The mapping after some changes to the one without rules. -/
def run (changes : List Change) : Mapping :=
  changes.foldl after empty

theorem run_concat (changes : List Change) (c : Change) :
    run (changes ++ [c]) = (run changes).after c := by
  rw [run, List.foldl_append]
  rfl

theorem after_of_ok {m n : Mapping} {c : Change} (h : m.change c = .ok n) : m.after c = n := by
  rw [after, h]

theorem after_of_error {m : Mapping} {c : Change} {fault : Fault}
    (h : m.change c = .error fault) : m.after c = m := by
  rw [after, h]

/-! ### Runs and the mappings that can be made -/

/-- What a change makes of a mapping that can be made can be made. -/
theorem Made.change {m n : Mapping} (hm : m.Made) {c : Change} (h : m.change c = .ok n) :
    n.Made := by
  cases c with
  | clear =>
    cases h
    exact .empty
  | ofRules rules => exact .ofRules h
  | read text => exact .read h
  | add r => exact .add hm h
  | addDirect base outputPath sourcePath => exact .addDirect hm h
  | addConstant base outputPath value => exact .addConstant hm h
  | remove id =>
    cases h
    exact .remove id hm

theorem made_run (changes : List Change) : (run changes).Made := by
  induction changes using List.reverseRecOn with
  | nil => exact .empty
  | append_singleton changes c ih =>
    rw [run_concat, after]
    cases hchange : (run changes).change c with
    | error fault => exact ih
    | ok n => exact ih.change hchange

/-- **The mappings that can be made** are those that runs of changes lead to. -/
theorem made_iff_run {m : Mapping} : m.Made ↔ ∃ changes, run changes = m := by
  constructor
  · intro h
    have hlast : ∀ {before m : Mapping} (c : Change), (∃ changes, run changes = before) →
        before.change c = .ok m → ∃ changes, run changes = m := by
      intro before m c ⟨changes, hbefore⟩ hchange
      refine ⟨changes ++ [c], ?_⟩
      rw [run_concat, hbefore, after_of_ok hchange]
    have hstart : ∃ changes, run changes = empty := ⟨[], rfl⟩
    induction h with
    | empty => exact hstart
    | @ofRules rules m h => exact hlast (.ofRules rules) hstart h
    | @read text m h => exact hlast (.read text) hstart h
    | @add m n r _ h ih => exact hlast (.add r) ih h
    | @addDirect m n base outputPath sourcePath _ h ih =>
      exact hlast (.addDirect base outputPath sourcePath) ih h
    | @addConstant m n base outputPath value _ h ih =>
      exact hlast (.addConstant base outputPath value) ih h
    | remove id _ ih => exact hlast (.remove id) ih rfl
  · intro ⟨changes, hrun⟩
    exact hrun ▸ made_run changes

/-! ### Removals -/

theorem get?_remove (m : Mapping) (id : String) : (m.remove id).get? id = none := by
  simp [get?_eq_none_iff, ids, remove]

theorem remove_comm (m : Mapping) (id other : String) :
    (m.remove id).remove other = (m.remove other).remove id := by
  rw [remove, remove, remove, remove, List.filter_comm]

/-- Rules none of which has an identifier are all kept when it is removed. -/
theorem filter_id_ne {rules : List Rule} {id : String} (h : ∀ r ∈ rules, r.id ≠ id) :
    rules.filter (fun r => r.id ≠ id) = rules := by
  rw [List.filter_eq_self]
  intro r hr
  simpa using h r hr

/-- Removing an identifier that no rule has changes nothing. -/
theorem remove_of_get?_none {m : Mapping} {id : String} (h : m.get? id = none) :
    m.remove id = m := by
  have hother : ∀ r ∈ m.rules, r.id ≠ id := by
    intro r hr heq
    exact (get?_eq_none_iff m id).1 h (heq ▸ List.mem_map_of_mem hr)
  rw [remove, filter_id_ne hother]

/-- **A removal takes out one rule**: the rules before and after it stay as they are. -/
theorem Valid.rules_remove {m : Mapping} (h : m.Valid) {id : String} {r : Rule}
    (hget : m.get? id = some r) :
    ∃ before later, m.rules = before ++ r :: later ∧ (m.remove id).rules = before ++ later := by
  obtain ⟨hid, before, later, hrules, hbefore⟩ := List.find?_eq_some_iff_append.1 hget
  obtain rfl : r.id = id := by simpa using hid
  have hdistinct : (before.map Rule.id ++ r.id :: later.map Rule.id).Nodup := by
    have hids := h.distinct
    rw [ids, hrules] at hids
    simpa using hids
  have hfront : ∀ s ∈ before, s.id ≠ r.id := by
    intro s hs
    simpa using hbefore s hs
  have hback : ∀ s ∈ later, s.id ≠ r.id := by
    intro s hs heq
    have hfirst := (List.nodup_cons.1 (List.nodup_append.1 hdistinct).2.1).1
    exact hfirst (heq ▸ List.mem_map_of_mem hs)
  refine ⟨before, later, hrules, ?_⟩
  rw [Mapping.remove, hrules, List.filter_append, List.filter_cons_of_neg (by simp),
    filter_id_ne hfront, filter_id_ne hback]

/-! ### What holds after every run -/

/-- **After every run of changes** the rules pass their checks and have different identifiers.  A
change that fails leaves no trace.  A rule is added exactly if it passes its check and its identifier
is new; it then stands behind all others, and removing it leads back.  Removals may be exchanged, what
is removed is not found any more, and all other rules stay in their order. -/
theorem valid_run (changes : List Change) :
    let m := run changes
    m.Valid ∧
      (∀ c fault later, m.change c = .error fault →
        run (changes ++ c :: later) = run (changes ++ later)) ∧
      (∀ r n, m.add r = .ok n ↔
        r.check = .ok () ∧ r.id ∉ m.ids ∧ n.rules = m.rules ++ [r]) ∧
      (∀ r n, m.add r = .ok n → n.remove r.id = m) ∧
      (∀ id other, (m.remove id).remove other = (m.remove other).remove id) ∧
      (∀ id, (m.remove id).get? id = none) ∧
      (∀ id, m.get? id = none → m.remove id = m) ∧
      (∀ id r, m.get? id = some r → ∃ before later,
        m.rules = before ++ r :: later ∧ (m.remove id).rules = before ++ later) := by
  intro m
  have hvalid : m.Valid := (made_run changes).valid
  refine ⟨hvalid, ?_, ?_, fun r n => remove_add, remove_comm m, get?_remove m,
    fun id => remove_of_get?_none, fun id r => hvalid.rules_remove⟩
  · intro c fault later hchange
    have hsame : (run changes).after c = run changes := after_of_error hchange
    rw [run, run, List.foldl_append, List.foldl_append, List.foldl_cons, ← run, hsame]
  · intro r n
    rw [add_eq_ok_iff]
    have hrules : n = ⟨m.rules ++ [r]⟩ ↔ n.rules = m.rules ++ [r] := by
      constructor
      · intro heq
        rw [heq]
      · intro heq
        rw [← heq]
    rw [hrules]

/-- A run in which a rule with a taken identifier and a constant without text are refused, an
identifier is made up although the given text is taken, and a rule in the middle is removed. -/
theorem valid_run_with_refusals :
    let first : Rule := ⟨"1", "a", .constant "x"⟩
    let second : Rule := ⟨"2", "b[@k='.'].c", .direct "i.@_k"⟩
    let third : Rule := ⟨"1-1", "e", .constant "z"⟩
    let changes : List Change :=
      [.ofRules [first, second], .add ⟨"1", "d", .constant "y"⟩, .addConstant "1" "e" "z",
       .addConstant "5" "f" ""]
    let m := run changes
    m.rules = [first, second, third] ∧ m.Valid ∧
      run (changes ++ [.add first, .clear]) = run (changes ++ [.clear]) ∧
      (∃ n, m.add ⟨"3", "g", .constant "u"⟩ = .ok n ∧ n.remove "3" = m) ∧
      m.remove "4" = m ∧
      ∃ before later, m.rules = before ++ second :: later ∧
        (m.remove "2").rules = before ++ later := by
  intro first second third changes m
  obtain ⟨hvalid, hfails, hadds, hundone, -, -, hunknown, htaken⟩ := valid_run changes
  have hmade : m = ⟨[first, second, third]⟩ := by decide
  have hrules : m.rules = [first, second, third] := congrArg Mapping.rules hmade
  have hcheck : first.check = .ok () := hvalid.checked first (by decide)
  have hrefused : m.change (.add first) = .error (.repeatedId "1") := by
    have hpresent : (m.get? first.id).isSome = true := by decide
    simp [change, add, hcheck, hpresent, first]
  have hnew : m.add ⟨"3", "g", .constant "u"⟩ = .ok ⟨m.rules ++ [⟨"3", "g", .constant "u"⟩]⟩ :=
    (hadds _ _).2 ⟨by rfl, by decide, rfl⟩
  exact ⟨hrules, hvalid, hfails _ _ [.clear] hrefused, ⟨_, hnew, hundone _ _ hnew⟩,
    hunknown "4" (by decide), htaken "2" second (by decide)⟩

end Crosswalk.Mapping
