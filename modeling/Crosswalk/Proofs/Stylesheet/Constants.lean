import Crosswalk.Proofs.Markup.Decoding
import Crosswalk.Proofs.Stylesheet.Groups
import Crosswalk.Proofs.Stylesheet.HeldRules
import Crosswalk.Stylesheet.Text
import Mathlib.Data.List.Perm.Subperm

/-!
# How fields are written

Every rule that a stylesheet carries out has an instruction of its own for its field.  The value
stands alone in an instruction for an attribute, and in the element of a field without brackets
that is written from nothing.  Every other element has its value on a line of its own, so line breaks
and spaces come into the output that the mapping does not speak of.

* `subperm_insideAll_levelLines` : the instructions for the rules in a tree.
* `sublist_insideAll_overrideTemplates` : the instructions for the rules in groups.
* `constants_written` : the text that an instruction writes for a constant.
-/

namespace Crosswalk.Stylesheet

open Markup

variable {qualifier namespaceUri pad : String}

/-! ### Trees -/

/-- Whether every field without brackets has one rule, and only fields with brackets have several. -/
inductive Entry.IsTidy : Segment → Entry → Prop
  | leaf {step : Segment} {rule : Rule} (h : step.brackets? = none) : IsTidy step (.leaf rule)
  | fanout {step : Segment} {rules : List Rule} (h : step.brackets? ≠ none) :
      IsTidy step (.fanout rules)
  | branch {step : Segment} {children : List (Segment × Entry)}
      (h : ∀ e ∈ children, IsTidy e.1 e.2) : IsTidy step (.branch children)

/-- The entries of a level that shows some rules are tidy. -/
theorem Level.Shows.isTidy {sent : List Sent} {level : Level} (h : level.Shows sent) :
    ∀ e ∈ level, Entry.IsTidy e.1 e.2 := by
  induction h with
  | @intro sent level names fits below ih =>
    have hnodup := (Level.Shows.intro names fits below).nodup
    intro e he
    obtain ⟨step, entry⟩ := e
    have hget : Fields.get? step level = some entry := Fields.get?_of_mem hnodup he
    have hfits := fits step entry hget
    cases entry with
    | leaf rule => exact .leaf hfits.1
    | fanout rules => exact .fanout hfits.1
    | branch children => exact .branch (ih step children hget)

/-- A rule in a tree stands below a step. -/
theorem ne_nil_of_mem_heldIn {level : Level} {s : Sent} (h : s ∈ heldIn level) : s.1 ≠ [] := by
  intro hnil
  have harrived : s.2 ∈ arrived (heldIn level) :=
    List.mem_map_of_mem (List.mem_filter.2 ⟨h, by simp [hnil]⟩)
  rw [arrived_heldIn] at harrived
  cases harrived

/-- The tree of some rules holds those to be held, each at its own place. -/
theorem perm_heldIn_ofRules (rules : List Rule) :
    (heldIn (Level.ofRules rules).1).Perm (Level.sentOf (kept rules)) := by
  apply perm_of_rulesAt
  intro steps
  rw [rulesAt_ofRules, rulesAt_sentOf]

/-! ### Fields that are written from nothing -/

/-- Whether no attribute stands above a field.  Nothing is written below an attribute. -/
def IsOpen (steps : List Segment) : Bool :=
  steps.dropLast.all fun step => !step.isAttribute

/-- The instruction for a field, when the output is written from nothing. -/
def ownField (pad : String) (content : Part) : Segment → Part
  | .attribute name => attributeInstruction name content
  | step =>
    .element (elementName step) (filterAttributes step)
      (if step.brackets?.isSome then
        [.text ("\n" ++ pad ++ "  "), content, .text ("\n" ++ pad)]
      else [content])

/-- The instruction for the field that some steps lead to, when the output is written from nothing. -/
def rebuiltField (pad : String) (content : Part) : List Segment → Part
  | [] => content
  | [step] => ownField pad content step
  | _ :: next :: rest => rebuiltField (pad ++ "  ") content (next :: rest)

/-- The instructions for the rules that some steps lead to. -/
def rebuiltFields (qualifier pad : String) (sent : List Sent) : List Part :=
  (sent.filter fun s => IsOpen s.1).map fun s =>
    rebuiltField pad (value qualifier s.2.source) s.1

theorem rebuiltFields_append (qualifier pad : String) (sent others : List Sent) :
    rebuiltFields qualifier pad (sent ++ others)
      = rebuiltFields qualifier pad sent ++ rebuiltFields qualifier pad others := by
  simp [rebuiltFields]

/-- The fields of an element are those of the level below it. -/
theorem rebuiltFields_below {step : Segment} (hstep : step.isAttribute = false) {sent : List Sent}
    (hsent : ∀ s ∈ sent, s.1 ≠ []) :
    rebuiltFields qualifier pad (sent.map fun (steps, rule) => (step :: steps, rule))
      = rebuiltFields qualifier (pad ++ "  ") sent := by
  induction sent with
  | nil => rfl
  | cons s sent ih =>
    obtain ⟨steps, rule⟩ := s
    obtain ⟨hne, hrest⟩ := List.forall_mem_cons.1 hsent
    obtain ⟨next, steps, rfl⟩ := List.exists_cons_of_ne_nil hne
    have hopen : IsOpen (step :: next :: steps) = IsOpen (next :: steps) := by
      simp [IsOpen, hstep]
    have hfirst : rebuiltFields qualifier pad [(step :: next :: steps, rule)]
        = rebuiltFields qualifier (pad ++ "  ") [(next :: steps, rule)] := by
      by_cases h : IsOpen (next :: steps) = true <;> simp [rebuiltFields, hopen, h, rebuiltField]
    have hsplit := rebuiltFields_append qualifier (pad ++ "  ") [(next :: steps, rule)] sent
    rw [List.singleton_append] at hsplit
    rw [hsplit, ← hfirst, ← ih hrest, ← rebuiltFields_append, List.singleton_append]
    rfl

/-- Nothing is written below an attribute. -/
theorem rebuiltFields_below_attribute {step : Segment} (hstep : step.isAttribute = true)
    {sent : List Sent} (hsent : ∀ s ∈ sent, s.1 ≠ []) :
    rebuiltFields qualifier pad (sent.map fun (steps, rule) => (step :: steps, rule)) = [] := by
  rw [rebuiltFields, List.map_eq_nil_iff, List.filter_eq_nil_iff]
  intro s hs
  obtain ⟨⟨steps, rule⟩, hmem, rfl⟩ := List.mem_map.1 hs
  obtain ⟨next, steps, rfl⟩ := List.exists_cons_of_ne_nil (hsent _ hmem)
  simp [IsOpen, hstep]

/-! ### The lines of a tree -/

theorem levelLines_cons (e : Segment × Entry) (rest : Level) :
    (Part.insideAll (levelLines qualifier pad (e :: rest))).Perm
      (Part.insideAll (levelLines qualifier pad [e])
        ++ Part.insideAll (levelLines qualifier pad rest)) := by
  have hattributes : attributeLines qualifier pad (e :: rest)
      = attributeLines qualifier pad [e] ++ attributeLines qualifier pad rest :=
    attributeLines_append qualifier pad [e] rest
  have hchildren : childLines qualifier pad (e :: rest)
      = childLines qualifier pad [e] ++ childLines qualifier pad rest := by
    simp [childLines]
  rw [levelLines, levelLines, levelLines, hattributes, hchildren]
  simp only [Part.insideAll_append, List.append_assoc]
  refine List.Perm.append_left _ ?_
  rw [← List.append_assoc, ← List.append_assoc]
  exact List.perm_append_comm.append_right _

/-- The instructions for the rules on a level, from those for each entry. -/
theorem subperm_insideAll_levelLines {level : Level}
    (h : ∀ e ∈ level, (rebuiltFields qualifier pad (heldIn [e])).Subperm
      (Part.insideAll (levelLines qualifier pad [e]))) :
    (rebuiltFields qualifier pad (heldIn level)).Subperm
      (Part.insideAll (levelLines qualifier pad level)) := by
  induction level with
  | nil => exact List.nil_subperm
  | cons e rest ih =>
    obtain ⟨hfirst, hrest⟩ := List.forall_mem_cons.1 h
    have hheld : heldIn (e :: rest) = heldIn [e] ++ heldIn rest := by
      simp [heldIn]
    rw [hheld, rebuiltFields_append]
    exact (hfirst.append (ih hrest)).trans (levelLines_cons e rest).symm.subperm

/-- What is in a part is in its line. -/
theorem inside_sublist_line (pad : String) (p : Part) :
    p.inside.Sublist (Part.insideAll (line pad p)) :=
  Part.inside_sublist_insideAll (by simp [line])

theorem levelLines_leaf {step : Segment} (h : step.brackets? = none) (rule : Rule) :
    levelLines qualifier pad [(step, .leaf rule)]
      = line pad (ownField pad (value qualifier rule.source) step) := by
  cases step with
  | element name brackets =>
    obtain rfl : brackets = none := h
    simp [levelLines, attributeLines, childLines, elementLines, ownField, Segment.isAttribute,
      Segment.brackets?]
  | _ => simp [levelLines, attributeLines, childLines, elementLines, ownField, Segment.isAttribute,
      Segment.brackets?]

theorem levelLines_fanout {step : Segment} (h : step.brackets? ≠ none) (rules : List Rule) :
    levelLines qualifier pad [(step, .fanout rules)]
      = rules.flatMap fun rule => line pad (ownField pad (value qualifier rule.source) step) := by
  cases step with
  | element name brackets =>
    have hsome : brackets.isSome = true := Option.isSome_iff_ne_none.2 h
    simp [levelLines, attributeLines, childLines, elementLines, ownField, Segment.isAttribute,
      Segment.brackets?, hsome]
  | _ => exact absurd rfl h

theorem levelLines_branch {step : Segment} (h : step.isAttribute = false) (children : Level) :
    levelLines qualifier pad [(step, .branch children)]
      = line pad (.element (elementName step) (filterAttributes step)
          ([.text "\n"] ++ levelLines qualifier (pad ++ "  ") children ++ [.text pad])) := by
  simp [levelLines, attributeLines, childLines, elementLines, h]

/-- **Every rule of an entry** has an instruction for its field among the lines of the entry. -/
theorem Entry.IsTidy.subperm {step : Segment} {entry : Entry} (h : entry.IsTidy step)
    (pad : String) :
    (rebuiltFields qualifier pad (heldIn [(step, entry)])).Subperm
      (Part.insideAll (levelLines qualifier pad [(step, entry)])) := by
  have hline : ∀ pad p, [p].Sublist (Part.insideAll (line pad p)) :=
    fun pad p => (Part.singleton_sublist_inside p).trans (inside_sublist_line pad p)
  induction h generalizing pad with
  | @leaf step rule hplain =>
    rw [levelLines_leaf hplain]
    exact (hline pad _).subperm
  | @fanout step rules hbrackets =>
    have hfields : rebuiltFields qualifier pad (heldIn [(step, .fanout rules)])
        = rules.flatMap fun rule => [ownField pad (value qualifier rule.source) step] := by
      rw [← List.map_eq_flatMap]
      simp [rebuiltFields, heldIn, Entry.held, List.filter_map, Function.comp_def, IsOpen,
        rebuiltField]
    rw [levelLines_fanout hbrackets, hfields]
    exact (Part.sublist_insideAll_flatMap rules fun rule _ => hline pad _).subperm
  | @branch step children hentries ih =>
    have hheld : heldIn [(step, .branch children)]
        = (heldIn children).map fun (steps, rule) => (step :: steps, rule) := by
      simp [heldIn, Entry.held]
    rw [hheld]
    by_cases hattribute : step.isAttribute = true
    · rw [rebuiltFields_below_attribute hattribute (fun _ => ne_nil_of_mem_heldIn)]
      exact List.nil_subperm
    · have hstep : step.isAttribute = false := by simpa using hattribute
      rw [rebuiltFields_below hstep (fun _ => ne_nil_of_mem_heldIn), levelLines_branch hstep]
      have hbelow := subperm_insideAll_levelLines (fun e he => ih e he (pad ++ "  "))
      refine hbelow.trans (List.Sublist.subperm ?_)
      exact (Part.insideAll_sublist_framed _ _ _ _ (List.Sublist.refl _)).trans
        (inside_sublist_line pad _)

/-! ### Fields that are appended -/

/-- The instruction for the field that some steps lead to, when it is appended. -/
def appendedField (namespaceUri : String) (content : Part) (steps : List Segment) : Part :=
  match steps.reverse with
  | [] => content
  | [field] => fieldInstruction namespaceUri "      " content field
  | field :: _ :: _ => fieldInstruction namespaceUri "        " content field

/-- The instruction for the field of a rule is among the instructions for what it appends. -/
theorem sublist_insideAll_parts {r : Rule} {above : List Segment} {a : Appended}
    (h : Appended.ofRule? r = some (above, a)) :
    [appendedField namespaceUri (value qualifier a.rule.source) a.rule.steps].Sublist
      (Part.insideAll (a.parts qualifier namespaceUri)) := by
  unfold Appended.ofRule? at h
  unfold appendedField Rule.steps Appended.parts
  split at h
  · cases h
  · rename_i field heq
    obtain ⟨rfl, rfl⟩ := Prod.mk.inj (Option.some.inj h)
    rw [heq]
    exact (Part.singleton_sublist_inside _).trans (Part.inside_sublist_insideAll (by simp))
  · rename_i field parent rest heq
    obtain ⟨rfl, rfl⟩ := Prod.mk.inj (Option.some.inj h)
    rw [heq]
    refine List.Sublist.trans ?_ (Part.inside_sublist_insideAll (List.mem_cons_of_mem _
      List.mem_cons_self))
    refine Part.insideAll_sublist_element _ _ ((Part.singleton_sublist_inside _).trans ?_)
    exact Part.inside_sublist_insideAll (by simp [line])

/-- The fields of the members of a group are written in its template. -/
theorem sublist_inside_overrideTemplate {steps : List Segment} {members : List Appended}
    {field : Appended → Part}
    (h : ∀ a ∈ members, [field a].Sublist (Part.insideAll (a.parts qualifier namespaceUri))) :
    (members.flatMap fun a => [field a]).Sublist
      (overrideTemplate qualifier namespaceUri steps members).inside := by
  have happended : (members.flatMap fun a => [field a]).Sublist (Part.insideAll
      (members.flatMap fun a => .text "\n" :: a.parts qualifier namespaceUri)) := by
    refine Part.sublist_insideAll_flatMap members fun a ha => ?_
    rw [Part.insideAll]
    exact (h a ha).trans (List.sublist_append_right _ _)
  have hcopied : (members.flatMap fun a => [field a]).Sublist (Part.element "xsl:copy" []
      ([.text "\n      ", applyTemplates]
        ++ (members.flatMap fun a => .text "\n" :: a.parts qualifier namespaceUri)
        ++ [.text "\n    "])).inside :=
    Part.insideAll_sublist_framed _ _ _ _ happended
  unfold overrideTemplate
  apply Part.insideAll_sublist_element
  exact hcopied.trans (Part.inside_sublist_insideAll (by simp))

/-- The templates of groups stand in order, with space between them. -/
theorem insideAll_sublist_overrideTemplates (groups : List (List Segment × List Appended)) :
    (groups.flatMap fun g => (overrideTemplate qualifier namespaceUri g.1 g.2).inside).Sublist
      (Part.insideAll (overrideTemplates qualifier namespaceUri groups)) := by
  unfold overrideTemplates
  cases groups with
  | nil => exact List.nil_sublist _
  | cons first rest =>
    simp only [List.map_cons, List.flatMap_cons, List.flatMap_map]
    rw [Part.insideAll, Part.insideAll]
    refine List.Sublist.trans ?_ (List.sublist_append_right _ _)
    refine List.Sublist.append (List.Sublist.refl _) ?_
    refine Part.sublist_insideAll_flatMap rest fun g _ => ?_
    exact Part.inside_sublist_insideAll (by simp)

/-- The fields of the members of all groups are written. -/
theorem sublist_insideAll_overrideTemplates {groups : List (List Segment × List Appended)}
    {field : Appended → Part}
    (h : ∀ a ∈ groups.flatMap Prod.snd,
      [field a].Sublist (Part.insideAll (a.parts qualifier namespaceUri))) :
    ((groups.flatMap Prod.snd).map field).Sublist
      (Part.insideAll (overrideTemplates qualifier namespaceUri groups)) := by
  refine List.Sublist.trans ?_ (insideAll_sublist_overrideTemplates groups)
  induction groups with
  | nil => exact List.nil_sublist _
  | cons group groups ih =>
    rw [List.flatMap_cons] at h
    obtain ⟨hfirst, hrest⟩ := List.forall_mem_append.1 h
    rw [List.flatMap_cons, List.flatMap_cons, List.map_append]
    refine List.Sublist.append ?_ (ih hrest)
    rw [List.map_eq_flatMap]
    exact sublist_inside_overrideTemplate hfirst

/-! ### All fields -/

/-- The rules whose fields a stylesheet writes.  One that copies its input writes every rule that has a
named step.  One that writes the output from nothing writes those that its tree is to hold, except
below attributes. -/
def written (s : Stylesheet) : List Rule :=
  if s.copiesInput then s.rules.filter fun r => !r.steps.isEmpty
  else (kept s.rules).filter fun r => IsOpen r.steps

/-- The instruction for the field of a rule. -/
def fieldPart (s : Stylesheet) (r : Rule) : Part :=
  let content := value s.qualifier r.source
  if s.copiesInput then appendedField s.namespaceUri content r.steps
  else rebuiltField "    " content r.steps

/-- The fields of a stylesheet that copies its input. -/
theorem subperm_appended (s : Stylesheet) (h : s.copiesInput = true) :
    ((written s).map (fieldPart s)).Subperm (Part.insideAll s.templates) := by
  have hmembers : ((s.rules.filterMap Appended.ofRule?).map Prod.snd).map
      (fun a => fieldPart s a.rule) = (written s).map (fieldPart s) := by
    rw [written, if_pos h, ← map_rule_ofRule?, List.map_map, List.map_map]
    rfl
  have hperm := (perm_members s.rules).map fun a => fieldPart s a.rule
  rw [hmembers] at hperm
  refine hperm.symm.subperm.trans (List.Sublist.subperm ?_)
  rw [templates, if_pos h, copyingTemplates, Part.insideAll_append]
  refine List.Sublist.trans (sublist_insideAll_overrideTemplates ?_) (List.sublist_append_right _ _)
  intro a ha
  have hmem := (perm_members s.rules).mem_iff.1 ha
  obtain ⟨⟨above, a⟩, hof, rfl⟩ := List.mem_map.1 hmem
  obtain ⟨r, _, hr⟩ := List.mem_filterMap.1 hof
  simp only [fieldPart, h, if_true]
  exact sublist_insideAll_parts hr

/-- The fields of a stylesheet that writes the output from nothing. -/
theorem subperm_rebuilt (s : Stylesheet) (h : s.copiesInput = false) :
    ((written s).map (fieldPart s)).Subperm (Part.insideAll s.templates) := by
  have hfields : rebuiltFields s.qualifier "    " (Level.sentOf (kept s.rules))
      = (written s).map (fieldPart s) := by
    simp [rebuiltFields, Level.sentOf, written, h, List.filter_map, Function.comp_def,
      fieldPart]
  have hperm : ((written s).map (fieldPart s)).Perm
      (rebuiltFields s.qualifier "    " (heldIn (Level.ofRules s.rules).1)) := by
    rw [← hfields]
    exact ((perm_heldIn_ofRules s.rules).symm.filter _).map _
  have htidy := (Level.shows_ofRules s.rules).isTidy
  have hlines : (rebuiltFields s.qualifier "    " (heldIn (Level.ofRules s.rules).1)).Subperm
      (Part.insideAll (levelLines s.qualifier "    " (Level.ofRules s.rules).1)) :=
    subperm_insideAll_levelLines fun e he => (htidy e he).subperm "    "
  refine hperm.subperm.trans (hlines.trans (List.Sublist.subperm ?_))
  rw [templates, h]
  exact (Part.insideAll_sublist_framed _ _ _ _ (List.Sublist.refl _)).trans
    (Part.inside_sublist_insideAll List.mem_cons_self)

/-! ### Constants -/

/-- Whether a text is made of line breaks and spaces. -/
def IsMargin (cs : List Char) : Prop := ∀ c ∈ cs, c = '\n' ∨ c = ' '

instance (cs : List Char) : Decidable (IsMargin cs) :=
  List.decidableBAll (fun c => c = '\n' ∨ c = ' ') cs

theorem isMargin_break : IsMargin ['\n'] := by decide

theorem IsMargin.append {cs ds : List Char} (hcs : IsMargin cs) (hds : IsMargin ds) :
    IsMargin (cs ++ ds) := by
  intro c hc
  exact (List.mem_append.1 hc).elim (hcs c) (hds c)

theorem IsMargin.deeper (h : IsMargin pad.toList) : IsMargin (pad ++ "  ").toList := by
  rw [String.toList_append]
  exact h.append (by decide)

/-- Whether a text is written with line breaks and spaces around it. -/
def IsSpaced (constant data : List Char) : Prop :=
  ∃ front back, front ≠ [] ∧ back ≠ [] ∧ IsMargin front ∧ IsMargin back ∧
    data = front ++ constant ++ back

/-- A constant alone in an attribute, or in an element without brackets. -/
theorem characterData_ownField_of_bare {step : Segment}
    (h : step.isAttribute = true ∨ step.brackets? = none) (constant : String) :
    (ownField pad (.text constant) step).characterData = constant.toList := by
  cases step with
  | element name brackets =>
    have hnone : brackets = none := h.resolve_left (by simp [Segment.isAttribute])
    simp [ownField, Segment.brackets?, hnone, Part.characterData_element, Part.text?]
  | _ => simp [ownField, attributeInstruction, Segment.brackets?, Part.characterData_element,
      Part.text?]

/-- A constant in an element with brackets. -/
theorem isSpaced_ownField {step : Segment} (h : step.brackets? ≠ none)
    (hpad : IsMargin pad.toList) (constant : String) :
    IsSpaced constant.toList (ownField pad (.text constant) step).characterData := by
  cases step with
  | element name brackets =>
    have hsome : brackets.isSome = true := Option.isSome_iff_ne_none.2 h
    refine ⟨['\n'] ++ (pad ++ "  ").toList, ['\n'] ++ pad.toList, by simp, by simp,
      isMargin_break.append hpad.deeper, isMargin_break.append hpad, ?_⟩
    simp [ownField, Segment.brackets?, hsome, Part.characterData_element, Part.text?]
  | _ => exact absurd rfl h

/-- A constant alone in an attribute that is appended. -/
theorem characterData_fieldInstruction {step : Segment} (h : step.isAttribute = true)
    (constant : String) :
    (fieldInstruction namespaceUri pad (.text constant) step).characterData = constant.toList := by
  obtain ⟨name, rfl⟩ : ∃ name, step = .attribute name := by
    cases step <;> simp_all [Segment.isAttribute]
  simp [fieldInstruction, attributeInstruction, Part.characterData_element, Part.text?]

/-- The texts beside the instruction for a filter make a margin. -/
theorem isMargin_filterInstruction (hpad : IsMargin pad.toList) (step : Segment) :
    IsMargin (((filterInstruction pad step).filterMap Part.text?).flatMap String.toList) := by
  unfold filterInstruction
  split
  · simpa [line, attributeInstruction, List.filterMap_cons, Part.text?] using
      hpad.append isMargin_break
  · intro c hc
    cases hc

/-- A constant in an element that is appended. -/
theorem isSpaced_fieldInstruction {step : Segment} (h : step.isAttribute = false)
    (hpad : IsMargin pad.toList) (constant : String) :
    IsSpaced constant.toList
      (fieldInstruction namespaceUri pad (.text constant) step).characterData := by
  have hfront := (isMargin_break.append (isMargin_filterInstruction hpad.deeper step)).append
    hpad.deeper
  refine ⟨_, ['\n'] ++ pad.toList, ?_, ?_, hfront, isMargin_break.append hpad, ?_⟩
  · simp
  · simp
  · unfold fieldInstruction
    split
    · simp [Segment.isAttribute] at h
    · simp [elementInstruction, line, Part.characterData_element, Part.text?]

/-- The step to a field decides how it is written from nothing. -/
theorem rebuiltField_eq {steps : List Segment} {field : Segment} (content : Part)
    (hpad : IsMargin pad.toList) (h : steps.getLast? = some field) :
    ∃ deeper : String, IsMargin deeper.toList ∧
      rebuiltField pad content steps = ownField deeper content field := by
  induction steps generalizing pad with
  | nil => cases h
  | cons step rest ih =>
    cases rest with
    | nil =>
      obtain rfl : step = field := by simpa using h
      exact ⟨pad, hpad, rfl⟩
    | cons next rest =>
      rw [List.getLast?_cons_cons] at h
      exact ih hpad.deeper h

/-- The step to a field decides how it is appended. -/
theorem appendedField_eq (namespaceUri : String) {steps : List Segment} {field : Segment}
    (content : Part) (h : steps.getLast? = some field) :
    ∃ deeper : String, IsMargin deeper.toList ∧
      appendedField namespaceUri content steps
        = fieldInstruction namespaceUri deeper content field := by
  have hpad : IsMargin "      ".toList := by decide
  rw [← List.head?_reverse] at h
  unfold appendedField
  split
  · rename_i hnil
    rw [hnil] at h
    cases h
  · rename_i last hone
    rw [hone] at h
    obtain rfl : last = field := by simpa using h
    exact ⟨_, hpad, rfl⟩
  · rename_i last parent above hmore
    rw [hmore] at h
    obtain rfl : last = field := by simpa using h
    exact ⟨_, hpad.deeper, rfl⟩

/-- The fields that are written have a step. -/
theorem exists_getLast?_of_mem_written {s : Stylesheet} {r : Rule} (h : r ∈ written s) :
    ∃ field, r.steps.getLast? = some field := by
  have hne : r.steps ≠ [] := by
    unfold written at h
    split at h
    · have hkept := (List.mem_filter.1 h).2
      simpa using hkept
    · obtain ⟨later, hnamed, -⟩ := survives_of_mem_keptAmong (List.mem_filter.1 h).1
      exact mt r.keys_eq_nil_iff.2 hnamed
  exact ⟨_, List.getLast?_eq_some_getLast hne⟩

/-- Whether the value of a field stands alone in its instruction. -/
def WritesBare (s : Stylesheet) (r : Rule) : Prop :=
  ∃ field, r.steps.getLast? = some field ∧
    (field.isAttribute = true ∨ s.copiesInput = false ∧ field.brackets? = none)

/-- **Constants that are written.**  Every rule whose field is written has an instruction of its own,
and for a constant the character data of this instruction are that constant: exactly, where the
value stands alone, and between line breaks and spaces everywhere else. -/
theorem constants_written (s : Stylesheet) :
    ((written s).map (fieldPart s)).Subperm (Part.insideAll s.templates) ∧
      ∀ r ∈ written s, ∀ constant, r.source = .constant constant →
        (WritesBare s r → (fieldPart s r).characterData = constant.toList) ∧
        (¬ WritesBare s r → IsSpaced constant.toList (fieldPart s r).characterData) := by
  refine ⟨?_, ?_⟩
  · cases hcopies : s.copiesInput with
    | true => exact subperm_appended s hcopies
    | false => exact subperm_rebuilt s hcopies
  · intro r hr constant hconstant
    obtain ⟨field, hfield⟩ := exists_getLast?_of_mem_written hr
    have hbare : WritesBare s r ↔
        (field.isAttribute = true ∨ s.copiesInput = false ∧ field.brackets? = none) := by
      simp [WritesBare, hfield]
    have hvalue : value s.qualifier r.source = .text constant := by
      rw [hconstant]
      rfl
    rw [hbare]
    cases hcopies : s.copiesInput with
    | true =>
      obtain ⟨pad, hpad, hpart⟩ := appendedField_eq s.namespaceUri (.text constant) hfield
      have hwritten : fieldPart s r = fieldInstruction s.namespaceUri pad (.text constant) field := by
        simp [fieldPart, hcopies, hvalue, hpart]
      rw [hwritten]
      constructor
      · intro halone
        exact characterData_fieldInstruction (by simpa using halone) constant
      · intro hspaced
        exact isSpaced_fieldInstruction (by simpa using hspaced) hpad constant
    | false =>
      have hmargin : IsMargin "    ".toList := by decide
      obtain ⟨pad, hpad, hpart⟩ := rebuiltField_eq (.text constant) hmargin hfield
      have hwritten : fieldPart s r = ownField pad (.text constant) field := by
        simp [fieldPart, hcopies, hvalue, hpart]
      rw [hwritten]
      constructor
      · intro halone
        exact characterData_ownField_of_bare (by simpa using halone) constant
      · intro hspaced
        refine isSpaced_ownField ?_ hpad constant
        intro hnone
        exact hspaced (Or.inr ⟨rfl, hnone⟩)

/-- A filter on a field puts line breaks around its constant, and so does copying the input; an
attribute has its constant alone. -/
theorem constant_between_breaks :
    let filtered : Rule := ⟨"1", "a[@t='1']", .constant "x"⟩
    let plain : Rule := ⟨"2", "a", .constant "x"⟩
    let onAttribute : Rule := ⟨"3", "a.@_k", .constant "x"⟩
    let own : Stylesheet := ⟨"", false, defaultNamespace, "ns", [filtered, plain]⟩
    let copying : Stylesheet := ⟨"", true, defaultNamespace, "ns", [plain, onAttribute]⟩
    (written own = [filtered, plain] ∧
      (fieldPart own filtered).characterData = "\n      x\n    ".toList ∧
      (fieldPart own plain).characterData = "x".toList) ∧
    written copying = [plain, onAttribute] ∧
      (fieldPart copying plain).characterData = "\n        x\n      ".toList ∧
      (fieldPart copying onAttribute).characterData = "x".toList := by
  decide

end Crosswalk.Stylesheet
