import Crosswalk.Json.Text
import Crosswalk.Mapping.Form

/-!
# Mappings

A mapping is a list of rules in their order.  A rule is taken in only if it passes its check and no
rule has its identifier yet, so the identifiers of a mapping are different.  An identifier that is
made up is a given text, or, when that is taken, the text with the first number that is free.

* `remove_add` : removing a rule that was taken in leaves the mapping that it was added to.
-/

namespace Crosswalk

/-- The rules that say what the fields of an output are filled with. -/
structure Mapping where
  rules : List Rule
deriving DecidableEq, Repr

namespace Mapping

/-- The mapping without rules. -/
def empty : Mapping := ⟨[]⟩

instance : Inhabited Mapping := ⟨empty⟩

/-- The identifiers of the rules. -/
def ids (m : Mapping) : List String :=
  m.rules.map Rule.id

/-- How many rules a mapping has. -/
def size (m : Mapping) : Nat :=
  m.rules.length

/-- Whether a mapping has no rules. -/
def isEmpty (m : Mapping) : Bool :=
  m.rules.isEmpty

/-- The rule with an identifier. -/
def get? (m : Mapping) (id : String) : Option Rule :=
  m.rules.find? (fun r => r.id == id)

/-- The last rule. -/
def last? (m : Mapping) : Option Rule :=
  m.rules.getLast?

/-! ### Adding and removing -/

/-- A mapping with one more rule at its end. -/
def add (m : Mapping) (r : Rule) : Except Fault Mapping :=
  match r.check with
  | .error fault => .error fault
  | .ok _ =>
    if (m.get? r.id).isSome then .error (.repeatedId r.id) else .ok ⟨m.rules ++ [r]⟩

/-- A mapping without the rule that has an identifier. -/
def remove (m : Mapping) (id : String) : Mapping :=
  ⟨m.rules.filter (fun r => r.id ≠ id)⟩

/-- The identifiers that can be made from a text: the text itself, and the text with a number. -/
def candidate (base : String) : Nat → String
  | 0 => base
  | n + 1 => base ++ "-" ++ toString (n + 1)

/-- The first free identifier from the `n`-th on, when at most `tries` of them can be taken. -/
def freshFrom (taken : String → Bool) (base : String) (n : Nat) : (tries : Nat) → String
  | 0 => candidate base n
  | tries + 1 =>
    if taken (candidate base n) then freshFrom taken base (n + 1) tries else candidate base n

/-- An identifier made from a text that no rule has yet.  A mapping cannot take more identifiers
than it has rules, so one more than that are enough to choose from. -/
def freshId (m : Mapping) (base : String) : String :=
  freshFrom (fun id => (m.get? id).isSome) base 0 m.size

/-- A mapping with a direct rule at its end, whose identifier is made from a text. -/
def addDirect (m : Mapping) (base outputPath sourcePath : String) : Except Fault Mapping :=
  m.add ⟨m.freshId base, outputPath, .direct sourcePath⟩

/-- A mapping with a constant rule at its end, whose identifier is made from a text. -/
def addConstant (m : Mapping) (base outputPath value : String) : Except Fault Mapping :=
  m.add ⟨m.freshId base, outputPath, .constant value⟩

/-! ### Files -/

/-- Accepts rules one after the other, each of which has to pass its check and to have an
identifier that none before it has. -/
def checkAll (seen : List String) : List Rule → Except Fault Unit
  | [] => .ok ()
  | r :: rest =>
    match r.check with
    | .error fault => .error fault
    | .ok _ =>
      if seen.contains r.id then .error (.repeatedId r.id) else checkAll (r.id :: seen) rest

/-- The mapping of some rules. -/
def ofRules (rules : List Rule) : Except Fault Mapping :=
  match checkAll [] rules with
  | .error fault => .error fault
  | .ok _ => .ok ⟨rules⟩

/-- Reads a text as a mapping. -/
def read (text : String) : Except Fault Mapping :=
  match Rule.readAll text with
  | .error e => .error (.unreadable e)
  | .ok rules => ofRules rules

/-- A mapping as a JSON value. -/
def toJson (m : Mapping) : Json.Value :=
  .array (m.rules.map Rule.toJson)

/-- The text of a mapping. -/
def text (m : Mapping) : String :=
  m.toJson.indented

/-! ### Laws -/

theorem get?_eq_none_iff (m : Mapping) (id : String) : m.get? id = none ↔ id ∉ m.ids := by
  simp [get?, ids, List.find?_eq_none]

/-- Removing a rule that was taken in leaves the mapping that it was added to. -/
theorem remove_add {m n : Mapping} {r : Rule} (h : m.add r = .ok n) : n.remove r.id = m := by
  unfold add at h
  split at h
  · simp at h
  · split at h
    · simp at h
    · rename_i hfree
      simp only [Except.ok.injEq] at h
      subst h
      rw [Option.not_isSome_iff_eq_none, get?_eq_none_iff, ids] at hfree
      have hkeep : m.rules.filter (fun s => decide (s.id ≠ r.id)) = m.rules := by
        rw [List.filter_eq_self]
        intro s hs
        simp only [ne_eq, decide_eq_true_eq]
        rintro hid
        exact hfree (hid ▸ List.mem_map_of_mem hs)
      rw [remove, List.filter_append, hkeep]
      simp

end Mapping

end Crosswalk
