import Crosswalk.Proofs.Stylesheet.Groups

/-!
# Exchanged rules

The tree of output fields and the groups of appended fields are built along the named steps of the
output paths alone.  So if every rule is exchanged for one with the same named steps, trees and
groups have the new rules where the old ones stood, and are the same otherwise.

* `Level.ofRules_exchange` : the tree.
* `grouped_exchange` : the groups.
-/

namespace Crosswalk.Stylesheet

variable {f : Rule → Rule}

/-! ### Trees -/

mutual

/-- An entry with its rules exchanged. -/
def Entry.exchange (f : Rule → Rule) : Entry → Entry
  | .branch children => .branch (exchangeAll f children)
  | .leaf rule => .leaf (f rule)
  | .fanout rules => .fanout (rules.map f)

/-- Entries with their rules exchanged. -/
def exchangeAll (f : Rule → Rule) : List (Segment × Entry) → List (Segment × Entry)
  | [] => []
  | (step, entry) :: rest => (step, entry.exchange f) :: exchangeAll f rest

end

namespace Level

theorem exchangeAll_eq_map (level : Level) :
    exchangeAll f level = level.map (Prod.map id (Entry.exchange f)) := by
  induction level with
  | nil => rfl
  | cons e rest ih =>
    rw [exchangeAll, ih]
    rfl

theorem get?_exchangeAll (step : Segment) (level : Level) :
    Fields.get? step (exchangeAll f level) = (Fields.get? step level).map (Entry.exchange f) := by
  rw [exchangeAll_eq_map, Fields.get?_map]

theorem exchangeAll_put (step : Segment) (entry : Entry) (level : Level) :
    exchangeAll f (Fields.put step entry level)
      = Fields.put step (entry.exchange f) (exchangeAll f level) := by
  rw [exchangeAll_eq_map, exchangeAll_eq_map, Fields.put_map]

theorem place_exchange (rule : Rule) (step : Segment) (level : Level) :
    (place (f rule) step (exchangeAll f level)).1 = exchangeAll f (place rule step level).1 := by
  unfold place
  rw [get?_exchangeAll]
  cases Fields.get? step level with
  | none => cases step.brackets? <;> simp [Entry.exchange, exchangeAll_put]
  | some entry =>
    cases entry <;> cases step.brackets? <;> simp [Entry.exchange, exchangeAll_put]

/-- **One more rule** arrives at the same place. -/
theorem insert_exchange (rule : Rule) (path : List Segment) (level : Level) :
    (insert (f rule) path (exchangeAll f level)).1
      = exchangeAll f (insert rule path level).1 := by
  induction path generalizing level with
  | nil => rfl
  | cons step rest ih =>
    match rest with
    | [] => exact place_exchange rule step level
    | next :: rest =>
      simp only [insert]
      rw [get?_exchangeAll]
      cases hget : Fields.get? step level with
      | none =>
        have hbelow := ih []
        rw [exchangeAll] at hbelow
        simp [hbelow, Entry.exchange, exchangeAll_put]
      | some entry =>
        cases entry with
        | branch children => simp [ih children, Entry.exchange, exchangeAll_put]
        | leaf other => simp [Entry.exchange]
        | fanout others => simp [Entry.exchange]

/-- **The tree of exchanged rules** is the tree of the rules, with the rules in it exchanged. -/
theorem ofRules_exchange (hsteps : ∀ r, (f r).steps = r.steps) (rules : List Rule) :
    (ofRules (rules.map f)).1 = exchangeAll f (ofRules rules).1 := by
  induction rules using List.reverseRecOn with
  | nil => rfl
  | append_singleton rules rule ih =>
    rw [List.map_append, List.map_singleton, ofRules_concat, ofRules_concat, ih, hsteps,
      insert_exchange]

end Level

/-! ### Groups -/

/-- What is appended, with its rule exchanged. -/
def Appended.exchange (f : Rule → Rule) (a : Appended) : Appended :=
  { a with rule := f a.rule }

theorem ofRule?_exchange (hsteps : ∀ r, (f r).steps = r.steps) (rule : Rule) :
    Appended.ofRule? (f rule)
      = (Appended.ofRule? rule).map (Prod.map id (Appended.exchange f)) := by
  rw [Appended.ofRule?_eq, Appended.ofRule?_eq, Option.map_map, Rule.above, hsteps]
  rfl

/-- **The groups of exchanged rules** are the groups of the rules, with the rules in them
exchanged. -/
theorem grouped_exchange (hsteps : ∀ r, (f r).steps = r.steps) (rules : List Rule) :
    grouped (rules.map f)
      = (grouped rules).map (Prod.map id (List.map (Appended.exchange f))) := by
  induction rules using List.reverseRecOn with
  | nil => rfl
  | append_singleton rules rule ih =>
    rw [List.map_append, List.map_singleton, grouped_concat, grouped_concat,
      ofRule?_exchange hsteps, ih]
    cases Appended.ofRule? rule with
    | none => rfl
    | some member =>
      obtain ⟨steps, a⟩ := member
      have hothers : (Fields.get? steps ((grouped rules).map
          (Prod.map id (List.map (Appended.exchange f))))).getD []
            = ((Fields.get? steps (grouped rules)).getD []).map (Appended.exchange f) := by
        rw [Fields.get?_map]
        cases Fields.get? steps (grouped rules) <;> rfl
      simp only [Option.map_some, Prod.map_apply, id_eq, addMember]
      rw [hothers, Fields.put_map, List.map_append, List.map_singleton]

end Crosswalk.Stylesheet
