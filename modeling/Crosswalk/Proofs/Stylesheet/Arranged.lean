import Crosswalk.Proofs.Stylesheet.Constants

/-!
# Attributes in front of elements

The lines of a level come in another order than its entries: first the attributes, then the elements,
each in the order of the level, and so on every level below.  An attribute with entries below it is
left out.

* `levelAt?_arranged` : the levels that are left, and their order.
* `rulesAt_arranged` : no rule comes to another place, and only those below attributes are lost.
-/

namespace Crosswalk.Stylesheet

/-! ### The order of a level -/

/-- Whether an entry has entries below it. -/
def Entry.isBranch : Entry → Bool
  | .branch _ => true
  | _ => false

/-- The attributes of a level, without those that have entries below them. -/
def attributesOf (level : Level) : Level :=
  level.filter fun e => e.1.isAttribute && !e.2.isBranch

mutual

/-- An entry with the attributes first on every level below it. -/
def Entry.arranged : Entry → Entry
  | .leaf rule => .leaf rule
  | .fanout rules => .fanout rules
  | .branch children => .branch (attributesOf children ++ elementsOf children)

/-- The elements of a level, with the attributes first on every level below them. -/
def elementsOf : List (Segment × Entry) → Level
  | [] => []
  | (step, entry) :: rest =>
    if step.isAttribute then elementsOf rest else (step, entry.arranged) :: elementsOf rest

end

/-- A level with the attributes first, there and on every level below. -/
def arranged (level : Level) : Level :=
  attributesOf level ++ elementsOf level

/-- The elements of a level keep their order. -/
theorem elementsOf_eq_map (level : Level) :
    elementsOf level
      = (level.filter fun e => !e.1.isAttribute).map fun e => (e.1, e.2.arranged) := by
  induction level with
  | nil => rfl
  | cons e rest ih =>
    obtain ⟨step, entry⟩ := e
    cases hstep : step.isAttribute <;> simp [elementsOf, hstep, ih]

/-! ### Arranged levels -/

theorem ne_of_mem_attributesOf {level : Level} {step : Segment} (h : step.isAttribute = false) :
    ∀ e ∈ attributesOf level, e.1 ≠ step := by
  intro e he heq
  have hkept := (List.mem_filter.1 he).2
  rw [heq, h] at hkept
  cases hkept

theorem ne_of_mem_elementsOf {level : Level} {step : Segment} (h : step.isAttribute = true) :
    ∀ e ∈ elementsOf level, e.1 ≠ step := by
  intro e he heq
  rw [elementsOf_eq_map] at he
  obtain ⟨f, hf, rfl⟩ := List.mem_map.1 he
  have hplain := (List.mem_filter.1 hf).2
  rw [heq, h] at hplain
  cases hplain

/-- No branch stands under an attribute of an arranged level. -/
theorem not_mem_arranged {step : Segment} (h : step.isAttribute = true)
    (children level : Level) : (step, .branch children) ∉ arranged level := by
  intro hmem
  rcases List.mem_append.1 hmem with hattribute | helement
  · have hkept := (List.mem_filter.1 hattribute).2
    simp [Entry.isBranch] at hkept
  · exact ne_of_mem_elementsOf h _ helement rfl

/-- An element of an arranged level is the one of the level, arranged. -/
theorem get?_arranged {step : Segment} (h : step.isAttribute = false) (level : Level) :
    Fields.get? step (arranged level) = (Fields.get? step level).map Entry.arranged := by
  rw [arranged, Fields.get?_append_of_ne (ne_of_mem_attributesOf h)]
  induction level with
  | nil => rfl
  | cons e rest ih =>
    obtain ⟨first, entry⟩ := e
    rw [elementsOf, Fields.get?]
    by_cases hfirst : first = step
    · rw [hfirst, h, if_neg (by simp), Fields.get?, if_pos rfl, if_pos rfl]
      rfl
    · rw [if_neg hfirst]
      split
      · exact ih
      · rw [Fields.get?, if_neg hfirst]
        exact ih

/-- **Every level is arranged** that is not below an attribute, and no other level is left. -/
theorem levelAt?_arranged (place : List Segment) (level : Level) :
    levelAt? place (arranged level)
      = if place.all fun step => !step.isAttribute then (levelAt? place level).map arranged
        else none := by
  induction place generalizing level with
  | nil => rfl
  | cons step place ih =>
    cases hstep : step.isAttribute with
    | true =>
      rw [List.all_cons, hstep, levelAt?]
      split
      · rename_i children hget
        exact absurd (Fields.mem_of_get? hget) (not_mem_arranged hstep children level)
      · rfl
    | false =>
      rw [List.all_cons, hstep, levelAt?, levelAt?, get?_arranged hstep]
      cases Fields.get? step level with
      | none => simp
      | some entry =>
        cases entry with
        | leaf rule => simp [Entry.arranged]
        | fanout rules => simp [Entry.arranged]
        | branch children => exact ih children

/-! ### The rules of an arranged level -/

theorem rulesAt_append (steps : List Segment) (sent others : List Sent) :
    rulesAt steps (sent ++ others) = rulesAt steps sent ++ rulesAt steps others := by
  simp [rulesAt]

theorem heldIn_append (level others : Level) :
    heldIn (level ++ others) = heldIn level ++ heldIn others := by
  induction level with
  | nil => rfl
  | cons e rest ih => simp [heldIn, ih]

/-- The rules behind a step are those in the entries under that step. -/
theorem rulesAt_heldIn_cons (first : Segment) (steps : List Segment) (e : Segment × Entry)
    (rest : Level) :
    rulesAt (first :: steps) (heldIn (e :: rest))
      = (if e.1 = first then rulesAt steps e.2.held else [])
        ++ rulesAt (first :: steps) (heldIn rest) := by
  obtain ⟨step, entry⟩ := e
  rw [heldIn, rulesAt_append, rulesAt_cons first steps (entry.held.map _), onward_map_cons]
  split <;> rfl

/-- No rule is behind a step that no entry stands under. -/
theorem rulesAt_heldIn_of_ne {level : Level} {first : Segment} (h : ∀ e ∈ level, e.1 ≠ first)
    (steps : List Segment) : rulesAt (first :: steps) (heldIn level) = [] := by
  induction level with
  | nil => rfl
  | cons e rest ih =>
    obtain ⟨hne, hrest⟩ := List.forall_mem_cons.1 h
    rw [rulesAt_heldIn_cons, if_neg hne, List.nil_append]
    exact ih hrest

/-- A filter that looks at places leaves all rules at a place or none. -/
theorem rulesAt_filter (p : List Segment → Bool) (steps : List Segment) (sent : List Sent) :
    rulesAt steps (sent.filter fun s => p s.1) = if p steps then rulesAt steps sent else [] := by
  have hplace : ∀ s ∈ sent,
      (decide (s.1 = steps) && p s.1) = (p steps && decide (s.1 = steps)) := by
    intro s _
    by_cases hs : s.1 = steps
    · simp [hs]
    · simp [hs]
  rw [rulesAt, List.filter_filter, List.filter_congr hplace]
  cases p steps with
  | true => simp [rulesAt]
  | false => simp

theorem isOpen_cons_element {step : Segment} (h : step.isAttribute = false)
    (steps : List Segment) : IsOpen (step :: steps) = IsOpen steps := by
  cases steps with
  | nil => rfl
  | cons next rest => simp [IsOpen, h]

theorem isOpen_cons_attribute {step : Segment} (h : step.isAttribute = true)
    (steps : List Segment) : IsOpen (step :: steps) = steps.isEmpty := by
  cases steps with
  | nil => rfl
  | cons next rest => simp [IsOpen, h]

/-- An entry has its own rules if it is no branch, and below a branch there are only others. -/
theorem Entry.rulesAt_held_own (entry : Entry) (steps : List Segment) :
    (if entry.isBranch then [] else rulesAt steps entry.held)
      = if steps.isEmpty then rulesAt steps entry.held else [] := by
  cases entry with
  | leaf rule => cases steps <;> simp [Entry.isBranch, Entry.held, rulesAt]
  | fanout rules => cases steps <;> simp [Entry.isBranch, (held_fanout rules).2]
  | branch children =>
    cases steps <;> simp [Entry.isBranch, Entry.held, rulesAt_nil, arrived_heldIn]

/-- An attribute keeps its own rules, and loses those of entries below it. -/
theorem rulesAt_attributesOf {first : Segment} (hfirst : first.isAttribute = true)
    (steps : List Segment) (level : Level) :
    rulesAt (first :: steps) (heldIn (attributesOf level))
      = if steps.isEmpty then rulesAt (first :: steps) (heldIn level) else [] := by
  induction level with
  | nil => simp [attributesOf, heldIn]
  | cons e rest ih =>
    have hown := e.2.rulesAt_held_own steps
    have hrest : rulesAt (first :: steps) (heldIn (attributesOf (e :: rest)))
        = (if e.1 = first then (if e.2.isBranch then [] else rulesAt steps e.2.held) else [])
          ++ rulesAt (first :: steps) (heldIn (attributesOf rest)) := by
      by_cases he : e.1.isAttribute = true ∧ e.2.isBranch = false
      · rw [attributesOf, List.filter_cons_of_pos (by simp [he]), rulesAt_heldIn_cons, he.2]
        rfl
      · rw [attributesOf, List.filter_cons_of_neg (by simpa using he)]
        by_cases hname : e.1 = first
        · have hbranch : e.2.isBranch = true := by simpa [hname, hfirst] using he
          rw [hbranch]
          simp [attributesOf]
        · rw [if_neg hname]
          rfl
    rw [hrest, hown, ih, rulesAt_heldIn_cons]
    cases steps <;> simp

/-- Rules that are not below an attribute stay where they are, if they do among the elements. -/
theorem rulesAt_arranged_of {level : Level}
    (h : ∀ first steps, first.isAttribute = false →
      rulesAt (first :: steps) (heldIn (elementsOf level))
        = if IsOpen steps then rulesAt (first :: steps) (heldIn level) else [])
    (steps : List Segment) :
    rulesAt steps (heldIn (arranged level))
      = if IsOpen steps then rulesAt steps (heldIn level) else [] := by
  rw [arranged, heldIn_append, rulesAt_append]
  cases steps with
  | nil =>
    simp only [rulesAt_nil, arrived_heldIn]
    rfl
  | cons first steps =>
    -- Behind an attribute there are rules among the attributes only, and behind an element only
    -- among the elements.
    cases hfirst : first.isAttribute with
    | true =>
      rw [rulesAt_heldIn_of_ne (ne_of_mem_elementsOf hfirst), List.append_nil,
        rulesAt_attributesOf hfirst, isOpen_cons_attribute hfirst]
    | false =>
      rw [rulesAt_heldIn_of_ne (ne_of_mem_attributesOf hfirst), List.nil_append,
        h first steps hfirst, isOpen_cons_element hfirst]

mutual

/-- The rules of an entry that are not below an attribute stay where they are. -/
theorem Entry.rulesAt_arranged (entry : Entry) (steps : List Segment) :
    rulesAt steps entry.arranged.held
      = if IsOpen steps then rulesAt steps entry.held else [] := by
  cases entry with
  | leaf rule =>
    cases steps with
    | nil => rfl
    | cons next rest => simp [Entry.arranged, Entry.held, rulesAt]
  | fanout rules =>
    cases steps with
    | nil => rfl
    | cons next rest => simp [Entry.arranged, (held_fanout rules).2 next rest]
  | branch children =>
    have hbelow := rulesAt_arranged_of (fun first steps hfirst =>
      rulesAt_elementsOf children first steps hfirst) steps
    exact hbelow

/-- The rules of the elements of a level that are not below an attribute stay where they are. -/
theorem rulesAt_elementsOf (level : List (Segment × Entry)) (first : Segment)
    (steps : List Segment) (hfirst : first.isAttribute = false) :
    rulesAt (first :: steps) (heldIn (elementsOf level))
      = if IsOpen steps then rulesAt (first :: steps) (heldIn level) else [] := by
  match level with
  | [] => simp [elementsOf, heldIn]
  | (step, entry) :: rest =>
    have hrest := rulesAt_elementsOf rest first steps hfirst
    rw [elementsOf, rulesAt_heldIn_cons first steps (step, entry)]
    cases hstep : step.isAttribute with
    | true =>
      have hne : step ≠ first := by
        intro heq
        rw [heq, hfirst] at hstep
        cases hstep
      rw [if_pos rfl, if_neg hne, List.nil_append]
      exact hrest
    | false =>
      rw [if_neg (by simp), rulesAt_heldIn_cons, entry.rulesAt_arranged steps, hrest]
      cases IsOpen steps <;> simp

end

/-- **Attributes in front of elements** move no rule to another place: those below an attribute are
left out, and the others stay. -/
theorem rulesAt_arranged (level : Level) (steps : List Segment) :
    rulesAt steps (heldIn (arranged level))
      = rulesAt steps ((heldIn level).filter fun s => IsOpen s.1) := by
  rw [rulesAt_filter]
  exact rulesAt_arranged_of (rulesAt_elementsOf level) steps

end Crosswalk.Stylesheet
