import Crosswalk.Proofs.Markup.Decoding
import Crosswalk.Proofs.Path.Spelling
import Crosswalk.Proofs.Stylesheet.Patterns

/-!
# Groups part the rules

A stylesheet that copies its input parts the rules with named steps by the element that they append
to.  Nothing about the groups depends on how they grew: they stand in the order in which the rules
first mention these elements, and each one has its rules in their order.  The steps to an element may
as well be told by their text, because that text is read as these steps again.  Every group has one
template, and in it every rule has one block.

* `grouped_eq` : the groups, said of the list of rules alone.
* `isPartition_grouped` : so they part the rules with named steps.
* `Rule.segments_groupText` : the text of the steps to an element is read as these steps.
* `templatesIn_document` : the templates of a stylesheet.
-/

namespace Crosswalk

open Markup

/-! ### The groups -/

/-- What a rule appends. -/
def Rule.appended? (r : Rule) : Option Stylesheet.Appended :=
  r.steps.getLast?.map fun field => ⟨r, r.steps.dropLast.getLast?, field⟩

/-- The rules with named steps. -/
def namedRules (rules : List Rule) : List Rule :=
  rules.filter fun r => !r.steps.isEmpty

theorem Rule.appended?_eq_none {r : Rule} (h : r.steps = []) : r.appended? = none := by
  simp [appended?, h]

theorem Rule.exists_appended? {r : Rule} (h : r.steps ≠ []) :
    ∃ a, r.appended? = some a ∧ a.rule = r := by
  refine ⟨⟨r, r.steps.dropLast.getLast?, r.steps.getLast h⟩, ?_, rfl⟩
  rw [appended?, List.getLast?_eq_some_getLast h]
  rfl

namespace Stylesheet

theorem ofRule?_eq_appended? (r : Rule) :
    Appended.ofRule? r = r.appended?.map fun a => (r.above, a) := by
  rw [Appended.ofRule?_eq, Rule.appended?, Option.map_map]
  rfl

/-- The rules of what some rules append are those with named steps. -/
theorem map_rule_appended? (rules : List Rule) :
    (rules.filterMap Rule.appended?).map Appended.rule = namedRules rules := by
  induction rules with
  | nil => rfl
  | cons r rules ih =>
    by_cases hsteps : r.steps = []
    · rw [List.filterMap_cons_none (Rule.appended?_eq_none hsteps), ih, namedRules, namedRules,
        List.filter_cons_of_neg (by simp [hsteps])]
    · obtain ⟨a, happended, hrule⟩ := Rule.exists_appended? hsteps
      rw [List.filterMap_cons_some happended, List.map_cons, ih, hrule, namedRules, namedRules,
        List.filter_cons_of_pos (by simp [hsteps])]

/-- The members of a group are what its rules append, in the order of the rules. -/
theorem getD_grouped (rules : List Rule) (steps : List Segment) :
    (Fields.get? steps (grouped rules)).getD []
      = (rules.filter (·.above = steps)).filterMap Rule.appended? := by
  induction rules using List.reverseRecOn with
  | nil => rfl
  | append_singleton rules r ih =>
    rw [grouped_concat, ofRule?_eq_appended?, List.filter_append, List.filterMap_append, ← ih]
    by_cases hsteps : r.steps = []
    · have hnone : ([r].filter (·.above = steps)).filterMap Rule.appended? = [] := by
        rw [List.filterMap_eq_nil_iff]
        intro t ht
        obtain rfl : t = r := List.mem_singleton.1 (List.mem_filter.1 ht).1
        exact Rule.appended?_eq_none hsteps
      rw [Rule.appended?_eq_none hsteps, hnone, List.append_nil]
      rfl
    · obtain ⟨a, happended, -⟩ := Rule.exists_appended? hsteps
      rw [happended]
      simp only [Option.map_some, addMember]
      by_cases habove : r.above = steps
      · rw [List.filter_cons_of_pos (by simpa using habove), List.filter_nil,
          List.filterMap_cons_some happended, List.filterMap_nil, ← habove, Fields.get?_put_self]
        rfl
      · rw [List.filter_cons_of_neg (by simpa using habove), List.filter_nil, List.filterMap_nil,
          List.append_nil, Fields.get?_put_of_ne (Ne.symm habove)]

/-- **The groups of a list of rules.**  They stand in the order in which the rules with named steps
first mention the elements, and each has what its rules append, in their order. -/
theorem grouped_eq (rules : List Rule) :
    grouped rules = ((namedRules rules).map Rule.above).eraseDups.map fun steps =>
      (steps, (rules.filter (·.above = steps)).filterMap Rule.appended?) := by
  have htable := Fields.eq_map_names (nodup_names_grouped rules) []
  rw [names_grouped, ← namedRules] at htable
  simpa only [getD_grouped] using htable

/-- The rules of a group are the rules with named steps that append to its element. -/
theorem map_rule_members {rules : List Rule} {g : List Segment × List Appended}
    (h : g ∈ grouped rules) :
    g.2.map Appended.rule = (namedRules rules).filter (·.above = g.1) := by
  rw [grouped_eq] at h
  obtain ⟨steps, -, rfl⟩ := List.mem_map.1 h
  rw [map_rule_appended?, namedRules, namedRules, List.filter_comm]

/-- **Rules are in one group** exactly if they append to the same element. -/
theorem together_iff {rules : List Rule} {r t : Rule} (hr : r ∈ namedRules rules)
    (ht : t ∈ namedRules rules) :
    (∃ g ∈ grouped rules, r ∈ g.2.map Appended.rule ∧ t ∈ g.2.map Appended.rule) ↔
      r.above = t.above := by
  constructor
  · intro ⟨g, hg, hrmem, htmem⟩
    rw [map_rule_members hg] at hrmem htmem
    have hrabove : r.above = g.1 := by simpa using (List.mem_filter.1 hrmem).2
    have htabove : t.above = g.1 := by simpa using (List.mem_filter.1 htmem).2
    rw [hrabove, htabove]
  · intro heq
    obtain ⟨hrmem, hrsteps⟩ := List.mem_filter.1 hr
    have hname : r.above ∈ Fields.names (grouped rules) :=
      (mem_names_grouped rules r.above).2 ⟨r, hrmem, by simpa using hrsteps, rfl⟩
    obtain ⟨g, hg, hgname⟩ := List.mem_map.1 hname
    refine ⟨g, hg, ?_⟩
    rw [map_rule_members hg, hgname]
    exact ⟨List.mem_filter.2 ⟨hr, by simp⟩, List.mem_filter.2 ⟨ht, by simp [heq]⟩⟩

/-- **Every rule with a named step** is in the groups as often as in the list. -/
theorem perm_namedRules (rules : List Rule) :
    ((grouped rules).flatMap fun g => g.2.map Appended.rule).Perm (namedRules rules) := by
  have hperm := (perm_members rules).map Appended.rule
  rw [List.map_map] at hperm
  have hrules := map_rule_ofRule? rules
  rw [← namedRules] at hrules
  rw [← List.map_flatMap, ← hrules]
  exact hperm

end Stylesheet

/-! ### The text of the steps to an element -/

/-- The text of the steps that lead to the element that a rule appends to. -/
def Rule.groupText (r : Rule) : String :=
  Path.join (r.above.map Segment.text)

/-- Pieces of a path without the last one can be the pieces of a path. -/
theorem Path.Divided.dropLast {pieces : List (List Char)} (h : Divided pieces) :
    Divided pieces.dropLast := by
  induction pieces with
  | nil => exact trivial
  | cons piece rest ih =>
    match rest with
    | [] => exact trivial
    | next :: rest =>
      obtain ⟨hwhole, hclosed, hrest⟩ := h
      exact ⟨hwhole, fun _ => hclosed (by simp), ih hrest⟩

/-- The pieces that lead to the element that a rule appends to are read again from their join. -/
theorem Rule.split_groupText (r : Rule) :
    Path.split r.groupText = r.above.map Segment.text := by
  have hpieces : r.above.map Segment.text
      = (Path.namedPieces r.outputPath).dropLast.dropLast := by
    rw [above, List.map_dropLast, List.map_dropLast, steps, Path.map_text_namedSegments]
  have hdivided : Path.Divided (((Path.namedPieces r.outputPath).dropLast.dropLast).map
      String.toList) := by
    rw [List.map_dropLast, List.map_dropLast]
    exact (Path.divided_namedPieces r.outputPath).dropLast.dropLast
  rw [groupText, hpieces]
  refine Path.split_join hdivided ?_
  intro piece hpiece
  exact Path.ne_empty_of_mem_namedPieces
    (List.dropLast_subset _ (List.dropLast_subset _ hpiece))

/-- **The text of the steps** to the element that a rule appends to is read as these steps. -/
theorem Rule.segments_groupText (r : Rule) : Path.segments r.groupText = r.above := by
  rw [Path.segments_eq_map, r.split_groupText, List.map_map]
  refine (List.map_congr_left ?_).trans (List.map_id _)
  intro step hstep
  have hmem : step ∈ Path.namedSegments r.outputPath :=
    List.dropLast_subset _ (List.dropLast_subset _ hstep)
  exact Path.isSpelled_of_mem_namedSegments hmem

/-- Texts of steps are the same exactly if the steps are. -/
theorem Rule.groupText_eq_iff (r t : Rule) : r.groupText = t.groupText ↔ r.above = t.above := by
  constructor
  · intro h
    rw [← r.segments_groupText, h, t.segments_groupText]
  · intro h
    rw [groupText, groupText, h]

/-! ### Templates -/

namespace Markup.Part

/-- Whether a part has a tag. -/
def isTagged : Part → Bool
  | element _ _ _ => true
  | single _ _ => true
  | _ => false

/-- The parts with tags that stand directly in an element. -/
def children : Part → List Part
  | element _ _ content => content.filter isTagged
  | _ => []

/-- Whether a part is a template. -/
def isTemplate : Part → Bool
  | element name _ _ => name == "xsl:template"
  | _ => false

/-- The templates in a part, itself included. -/
def templates (p : Part) : List Part :=
  p.inside.filter isTemplate

/-- The templates in some parts. -/
def templatesIn (ps : List Part) : List Part :=
  (insideAll ps).filter isTemplate

@[simp] theorem templatesIn_nil : templatesIn [] = [] := rfl

@[simp] theorem templatesIn_append (ps qs : List Part) :
    templatesIn (ps ++ qs) = templatesIn ps ++ templatesIn qs := by
  rw [templatesIn, insideAll_append, List.filter_append, templatesIn, templatesIn]

@[simp] theorem templatesIn_cons (p : Part) (ps : List Part) :
    templatesIn (p :: ps) = p.templates ++ templatesIn ps := by
  rw [templatesIn, insideAll, List.filter_append, templates, templatesIn]

theorem templatesIn_flatMap {α : Type} (xs : List α) (parts : α → List Part) :
    templatesIn (xs.flatMap parts) = xs.flatMap fun x => templatesIn (parts x) := by
  induction xs with
  | nil => rfl
  | cons x xs ih => rw [List.flatMap_cons, templatesIn_append, ih, List.flatMap_cons]

@[simp] theorem templates_text (content : String) : (text content).templates = [] := by
  simp [templates, inside, isTemplate]

@[simp] theorem templates_comment (content : String) : (comment content).templates = [] := by
  simp [templates, inside, isTemplate]

@[simp] theorem templates_single (name : String) (attributes : List Given) :
    (single name attributes).templates = [] := by
  simp [templates, inside, isTemplate]

/-- The templates in an element are those in its content, and the element itself if it is one. -/
@[simp] theorem templates_element (name : String) (attributes : List Given) (content : List Part) :
    (element name attributes content).templates
      = (if name = "xsl:template" then [element name attributes content] else [])
        ++ templatesIn content := by
  by_cases hname : name = "xsl:template" <;>
    simp [templates, templatesIn, inside, isTemplate, hname]

end Markup.Part

namespace Stylesheet

variable {qualifier namespaceUri : String}

@[simp] theorem templatesIn_line (pad : String) (p : Part) :
    Part.templatesIn (line pad p) = p.templates := by
  simp [line]

@[simp] theorem templates_value (source : Source) : (value qualifier source).templates = [] := by
  cases source <;> simp [value]

@[simp] theorem templates_attributeInstruction (name : String) (content : Part) :
    (attributeInstruction name content).templates = content.templates := by
  simp [attributeInstruction]

@[simp] theorem templatesIn_filterInstruction (pad : String) (step : Segment) :
    Part.templatesIn (filterInstruction pad step) = [] := by
  unfold filterInstruction
  cases step.filter? <;> simp

@[simp] theorem templates_elementInstruction (step : Segment) (content : List Part) :
    (elementInstruction namespaceUri step content).templates = Part.templatesIn content := by
  simp [elementInstruction]

/-- The instruction that writes a field has no templates apart from those in its value. -/
@[simp] theorem templates_fieldInstruction (pad : String) (content : Part) (step : Segment) :
    (fieldInstruction namespaceUri pad content step).templates = content.templates := by
  cases step <;> simp [fieldInstruction]

/-- Nothing that a rule appends is a template. -/
theorem templatesIn_parts (a : Appended) :
    Part.templatesIn (a.parts qualifier namespaceUri) = [] := by
  unfold Appended.parts
  cases a.parent <;> simp

/-- Whatever some rules append, their template is one template. -/
theorem templates_overrideTemplate (steps : List Segment) (members : List Appended) :
    (overrideTemplate qualifier namespaceUri steps members).templates
      = [overrideTemplate qualifier namespaceUri steps members] := by
  have happended : Part.templatesIn
      (members.flatMap fun a => .text "\n" :: a.parts qualifier namespaceUri) = [] := by
    simp [Part.templatesIn_flatMap, templatesIn_parts]
  unfold overrideTemplate
  simp [applyTemplates, happended]

theorem templatesIn_overrideTemplates (groups : List (List Segment × List Appended)) :
    Part.templatesIn (overrideTemplates qualifier namespaceUri groups)
      = groups.map fun g => overrideTemplate qualifier namespaceUri g.1 g.2 := by
  cases groups with
  | nil => rfl
  | cons first rest =>
    simp only [overrideTemplates, List.map_cons, Part.templatesIn_cons, Part.templates_text,
      Part.templatesIn_flatMap, Part.templatesIn_nil, templates_overrideTemplate, List.flatMap_map,
      List.nil_append, List.append_nil, List.singleton_append]
    rw [← List.map_eq_flatMap]

/-- **The templates of a stylesheet** that copies its input: the one that copies, and one for each
group. -/
theorem templatesIn_document {s : Stylesheet} (h : s.copiesInput = true) :
    Part.templatesIn (document s s.templates) = identityTemplate ::
      (grouped s.rules).map fun g => overrideTemplate s.qualifier s.namespaceUri g.1 g.2 := by
  have hnotes : Part.templatesIn (notesComment s.notes) = [] := by
    unfold notesComment
    split <;> simp
  have hidentity : identityTemplate.templates = [identityTemplate] := by
    simp [identityTemplate, applyTemplates]
  simp [document, hnotes, outputDeclaration, Stylesheet.templates, h, copyingTemplates, hidentity,
    templatesIn_overrideTemplates]

/-! ### The blocks in a template -/

/-- Writing a rule's last steps takes one part, after the spaces in front of it. -/
theorem exists_parts_eq (qualifier namespaceUri : String) (a : Appended) :
    ∃ block, block.isTagged = true ∧ a.parts qualifier namespaceUri = [.text "      ", block] := by
  unfold Appended.parts
  cases a.parent with
  | some parent => exact ⟨_, rfl, rfl⟩
  | none =>
    refine ⟨_, ?_, rfl⟩
    cases a.field <;> rfl

/-- Among the parts that some rules append, one part with tags stands for each of them. -/
theorem forall₂_blocks (members : List Appended) :
    List.Forall₂ (fun a block => a.parts qualifier namespaceUri = [.text "      ", block]) members
      ((members.flatMap fun a => .text "\n" :: a.parts qualifier namespaceUri).filter
        Part.isTagged) := by
  induction members with
  | nil => exact .nil
  | cons a members ih =>
    obtain ⟨block, htagged, hparts⟩ := exists_parts_eq qualifier namespaceUri a
    rw [List.flatMap_cons, List.filter_append, hparts,
      List.filter_cons_of_neg (by simp [Part.isTagged]),
      List.filter_cons_of_neg (by simp [Part.isTagged]), List.filter_cons_of_pos htagged,
      List.filter_nil, List.singleton_append]
    exact .cons hparts ih

/-- In the copy that a group's template makes there stand the instruction for what was there before
and one block for each member. -/
theorem children_overrideTemplate (steps : List Segment) (members : List Appended) :
    (overrideTemplate qualifier namespaceUri steps members).children.flatMap Part.children
      = applyTemplates ::
        (members.flatMap fun a => .text "\n" :: a.parts qualifier namespaceUri).filter
          Part.isTagged := by
  simp [overrideTemplate, Part.children, Part.isTagged, applyTemplates, List.filter_cons]

/-! ### No rule is lost -/

/-- Groups that part the rules with named steps. -/
structure IsPartition (rules : List Rule) (groups : List (List Segment × List Appended)) : Prop where
  /-- Every rule is in the groups as often as in the list. -/
  perm : (groups.flatMap fun g => g.2.map Appended.rule).Perm (namedRules rules)
  /-- No rule is in two groups. -/
  unique : ∀ r ∈ namedRules rules, ∃! g, g ∈ groups ∧ r ∈ g.2.map Appended.rule
  /-- Rules are together if they append to the same element. -/
  together : ∀ r ∈ namedRules rules, ∀ t ∈ namedRules rules,
    (∃ g ∈ groups, r ∈ g.2.map Appended.rule ∧ t ∈ g.2.map Appended.rule) ↔ r.above = t.above
  /-- The groups have the order of their first rules. -/
  order : Fields.names groups = ((namedRules rules).map Rule.above).eraseDups
  /-- The members of a group have the order of the rules. -/
  members : ∀ g ∈ groups,
    g.2.map Appended.rule = (namedRules rules).filter (·.above = g.1)

theorem isPartition_grouped (rules : List Rule) : IsPartition rules (grouped rules) where
  perm := perm_namedRules rules
  unique := by
    intro r hr
    obtain ⟨g, hg, hmem, -⟩ := (together_iff hr hr).2 rfl
    refine ⟨g, ⟨hg, hmem⟩, ?_⟩
    intro other ⟨hother, hotherMem⟩
    rw [map_rule_members hg, List.mem_filter] at hmem
    rw [map_rule_members hother, List.mem_filter] at hotherMem
    have hnames : other.1 = g.1 :=
      (of_decide_eq_true hotherMem.2).symm.trans (of_decide_eq_true hmem.2)
    exact List.inj_on_of_nodup_map (nodup_names_grouped rules) hother hg hnames
  together := fun _ hr _ ht => together_iff hr ht
  order := names_grouped rules
  members := fun _ => map_rule_members

/-- A member of a group is what its rule appends. -/
theorem appended?_of_mem_members {rules : List Rule} {g : List Segment × List Appended}
    (hg : g ∈ grouped rules) {a : Appended} (ha : a ∈ g.2) : a.rule.appended? = some a := by
  rw [grouped_eq] at hg
  obtain ⟨steps, -, rfl⟩ := List.mem_map.1 hg
  obtain ⟨r, -, hr⟩ := List.mem_filterMap.1 ha
  have hsteps : r.steps ≠ [] := by
    intro hnil
    rw [Rule.appended?_eq_none hnil] at hr
    cases hr
  obtain ⟨b, hb, hrule⟩ := Rule.exists_appended? hsteps
  obtain rfl : b = a := Option.some.inj (hb.symm.trans hr)
  rwa [hrule]

/-- **No rule is lost, and none is repeated.**  The groups part the rules with named steps, and the
elements they stand for are told by the text of the steps to them.  Apart from the template that
copies, the stylesheet has one template for each group, in their order, and in what this appends
there is one block for each rule of the group, in their order. -/
theorem grouped_once (s : Stylesheet) (h : s.copiesInput = true) :
    IsPartition s.rules (grouped s.rules) ∧
    (∀ r t : Rule, r.groupText = t.groupText ↔ r.above = t.above) ∧
    ∃ overriding, Part.templatesIn (document s s.templates) = identityTemplate :: overriding ∧
      List.Forall₂ (fun template g =>
        template.pattern? = some (XPath.pattern s.qualifier g.1) ∧
        ∃ blocks, template.children.flatMap Part.children = applyTemplates :: blocks ∧
          List.Forall₂ (fun a block => a.rule.appended? = some a ∧
            a.parts s.qualifier s.namespaceUri = [.text "      ", block]) g.2 blocks)
        overriding (grouped s.rules) := by
  refine ⟨isPartition_grouped s.rules, Rule.groupText_eq_iff, _, templatesIn_document h, ?_⟩
  rw [List.forall₂_map_left_iff, List.forall₂_same]
  intro g hg
  refine ⟨pattern?_overrideTemplate _ _ _ _, _, children_overrideTemplate _ _, ?_⟩
  exact (List.forall₂_and_left _ _).2 ⟨fun a ha => appended?_of_mem_members hg ha, forall₂_blocks _⟩

/-- Rules at one element whose filter has a dot in it, two of them apart by another rule and one
spelled with a position, beside rules of other elements, one with an open bracket, and a rule
without named steps. -/
theorem grouped_once_with_filters :
    let s : Stylesheet := ⟨"", true, "urn:a\"b", "ns",
      [⟨"1", "a[@k='x.y'].p.c", .constant "<"⟩, ⟨"2", "q", .direct "In.b[@t='\"']"⟩,
       ⟨"3", "a[@k='x.y'].007.p.@_d", .direct "In"⟩, ⟨"4", "a[@k='x.z'].p.c[", .constant ""⟩,
       ⟨"5", "0.1", .constant "lost"⟩, ⟨"6", "a[@k='x.y'].p", .constant ""⟩]⟩
    (grouped s.rules).map (fun g => (g.1.map Segment.text, g.2.map fun a => a.rule.id))
        = [(["a[@k='x.y']"], ["1", "3"]), ([], ["2", "6"]), (["a[@k='x.z']"], ["4"])] ∧
      (Part.templatesIn (document s s.templates)).length = 4 := by
  intro s
  obtain ⟨hpartition, -, overriding, htemplates, hall⟩ := grouped_once s rfl
  have hgroups : (grouped s.rules).map (fun g => (g.1.map Segment.text, g.2.map fun a => a.rule.id))
      = [(["a[@k='x.y']"], ["1", "3"]), ([], ["2", "6"]), (["a[@k='x.z']"], ["4"])] := by
    decide
  have hlength : (grouped s.rules).length = 3 := by
    simpa using congrArg List.length hgroups
  refine ⟨hgroups, ?_⟩
  rw [htemplates, List.length_cons, hall.length_eq, hlength]

end Stylesheet

end Crosswalk
