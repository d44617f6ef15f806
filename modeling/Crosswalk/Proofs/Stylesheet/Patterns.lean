import Crosswalk.Proofs.Stylesheet.Groups
import Crosswalk.Stylesheet.Text
import Mathlib.Data.List.Nodup

/-!
# The patterns of templates

Two templates that match the same elements compete, and only one of them is carried out.  In a
stylesheet that copies its input there is a template for each group of rules, that is for each
element that rules append to, told by all the steps to it.  Its pattern has the names of the
elements among these steps and nothing else: neither filters nor attributes.

* `XPath.elementNames_of_pattern` : a pattern tells the names of its elements.
* `nodup_tail_patterns_iff` : templates compete exactly if rules append to elements whose steps have
  the same names and yet are different.
-/

namespace Crosswalk

/-- The names of the elements among some steps. -/
def elementNames (steps : List Segment) : List String :=
  steps.filterMap fun
    | .element name _ => some name
    | _ => none

namespace XPath

variable {qualifier : String}

/-- Names with their qualifier, one below the other. -/
def qualified (qualifier : String) (names : List String) : String :=
  String.intercalate "/" (names.map fun name => qualifier ++ ":" ++ name)

/-- A pattern is made of the names of its elements. -/
theorem pattern_eq (steps : List Segment) :
    pattern qualifier steps = orRoot (qualified qualifier (elementNames steps)) := by
  have hnames : steps.filterMap (elementName? qualifier)
      = (elementNames steps).map fun name => qualifier ++ ":" ++ name := by
    rw [elementNames, List.map_filterMap]
    congr 1
    funext step
    cases step <;> rfl
  rw [pattern, hnames, qualified]

theorem toList_qualified (names : List String) :
    (qualified qualifier names).toList
      = ['/'].intercalate (names.map fun name => qualifier.toList ++ ':' :: name.toList) := by
  rw [qualified, String.toList_intercalate, List.map_map]
  congr 1
  apply List.map_congr_left
  intro name _
  simp [String.toList_append]

/-- The sign after a qualifier stands in every pattern that has a name. -/
theorem colon_mem_qualified (qualifier name : String) (rest : List String) :
    ':' ∈ (qualified qualifier (name :: rest)).toList := by
  rw [toList_qualified, List.map_cons]
  cases rest with
  | nil => simp
  | cons next rest => simp

/-- A pattern that has a name is not the root. -/
theorem orRoot_qualified (name : String) (rest : List String) :
    orRoot (qualified qualifier (name :: rest)) = qualified qualifier (name :: rest) := by
  have hne : (qualified qualifier (name :: rest)).isEmpty = false := by
    have hcolon := colon_mem_qualified qualifier name rest
    cases hempty : (qualified qualifier (name :: rest)).isEmpty with
    | false => rfl
    | true =>
      rw [String.isEmpty_iff] at hempty
      simp [hempty] at hcolon
  rw [orRoot, hne]
  rfl

/-- Names in which no slash stands are told by their pattern. -/
theorem eq_of_qualified {names others : List String} (hqualifier : '/' ∉ qualifier.toList)
    (hnames : ∀ name ∈ names, '/' ∉ name.toList) (hothers : ∀ name ∈ others, '/' ∉ name.toList)
    (hne : names ≠ []) (hothersNe : others ≠ [])
    (h : qualified qualifier names = qualified qualifier others) : names = others := by
  have hpiece : ∀ ns : List String, (∀ name ∈ ns, '/' ∉ name.toList) →
      ∀ piece ∈ ns.map (fun name => qualifier.toList ++ ':' :: name.toList), '/' ∉ piece := by
    intro ns hns piece hpiece
    obtain ⟨name, hname, rfl⟩ := List.mem_map.1 hpiece
    simpa [hqualifier] using hns name hname
  have hchars := congrArg (fun text => text.toList.splitOn '/') h
  simp only [toList_qualified] at hchars
  rw [List.splitOn_intercalate '/' (hpiece names hnames) (by simpa using hne),
    List.splitOn_intercalate '/' (hpiece others hothers) (by simpa using hothersNe)] at hchars
  refine (List.map_inj_right ?_).1 hchars
  intro name other heq
  simpa [String.toList_inj] using heq

/-- **A pattern tells the names** of its elements, if no slash stands in them. -/
theorem elementNames_of_pattern {steps others : List Segment} (hqualifier : '/' ∉ qualifier.toList)
    (hnames : ∀ name ∈ elementNames steps, '/' ∉ name.toList)
    (hothers : ∀ name ∈ elementNames others, '/' ∉ name.toList)
    (h : pattern qualifier steps = pattern qualifier others) :
    elementNames steps = elementNames others := by
  have hroot : ∀ name rest, orRoot (qualified qualifier (name :: rest)) ≠ orRoot
      (qualified qualifier []) := by
    intro name rest heq
    have hcolon := colon_mem_qualified qualifier name rest
    rw [← orRoot_qualified, heq] at hcolon
    simp [qualified, orRoot] at hcolon
  rw [pattern_eq, pattern_eq] at h
  cases hleft : elementNames steps with
  | nil =>
    cases hright : elementNames others with
    | nil => rfl
    | cons name rest =>
      rw [hleft, hright] at h
      exact absurd h.symm (hroot name rest)
  | cons name rest =>
    cases hright : elementNames others with
    | nil =>
      rw [hleft, hright] at h
      exact absurd h (hroot name rest)
    | cons other others =>
      rw [hleft] at h hnames
      rw [hright] at h hothers
      rw [orRoot_qualified, orRoot_qualified] at h
      exact eq_of_qualified hqualifier hnames hothers (by simp) (by simp) h

end XPath

/-! ### Templates -/

/-- The pattern of a template. -/
def Markup.Part.pattern? : Markup.Part → Option String
  | .element name attributes _ =>
    if name = "xsl:template" then
      (attributes.find? (fun a => a.name == "match")).map Markup.Given.value
    else none
  | _ => none

namespace Stylesheet

/-- The patterns of the templates of a stylesheet, in their order. -/
def patterns (s : Stylesheet) : List String :=
  s.templates.filterMap Markup.Part.pattern?

theorem pattern?_overrideTemplate (qualifier namespaceUri : String) (steps : List Segment)
    (members : List Appended) :
    (overrideTemplate qualifier namespaceUri steps members).pattern?
      = some (XPath.pattern qualifier steps) := by
  simp [overrideTemplate, Markup.Part.pattern?, quoted]

/-- The patterns of a stylesheet that copies its input: one for everything, and one for each
group. -/
theorem patterns_of_copiesInput {s : Stylesheet} (h : s.copiesInput = true) :
    s.patterns = "@*|node()" ::
      (Fields.names (grouped s.rules)).map (XPath.pattern s.qualifier) := by
  have hgroups : (overrideTemplates s.qualifier s.namespaceUri (grouped s.rules)).filterMap
      Markup.Part.pattern? = (Fields.names (grouped s.rules)).map (XPath.pattern s.qualifier) := by
    have hspaced : ∀ templates : List Markup.Part,
        (templates.flatMap fun t => [.text "\n\n  ", t]).filterMap Markup.Part.pattern?
          = templates.filterMap Markup.Part.pattern? := by
      intro templates
      induction templates with
      | nil => rfl
      | cons t templates ih =>
        rw [List.flatMap_cons, List.filterMap_append, ih, ← List.filterMap_append]
        rfl
    have htemplates : ((grouped s.rules).map fun g =>
        overrideTemplate s.qualifier s.namespaceUri g.1 g.2).filterMap Markup.Part.pattern?
          = (Fields.names (grouped s.rules)).map (XPath.pattern s.qualifier) := by
      simp [Fields.names, List.filterMap_map, Function.comp_def, pattern?_overrideTemplate,
        List.filterMap_eq_map']
    rw [← htemplates]
    unfold overrideTemplates
    simp only
    split
    · rename_i hnil
      rw [hnil]
    · rename_i first rest hcons
      rw [hcons, List.filterMap_cons_none rfl, List.filterMap_cons, List.filterMap_cons, hspaced]
  rw [patterns, templates, if_pos h, copyingTemplates, List.filterMap_append, hgroups]
  rfl

/-- **Templates that compete.**  In a stylesheet that copies its input the patterns of the templates
for the groups are all different, unless rules append to elements whose steps have the same names
and yet are different. -/
theorem nodup_tail_patterns_iff {s : Stylesheet} (h : s.copiesInput = true)
    (hqualifier : '/' ∉ s.qualifier.toList)
    (hnames : ∀ r ∈ s.rules, ∀ name ∈ elementNames r.above, '/' ∉ name.toList) :
    s.patterns.tail.Nodup ↔
      ∀ r ∈ s.rules, ∀ t ∈ s.rules, r.steps ≠ [] → t.steps ≠ [] →
        elementNames r.above = elementNames t.above → r.above = t.above := by
  rw [patterns_of_copiesInput h, List.tail_cons]
  constructor
  · intro hnodup r hr t ht hrne htne heq
    have hin : ∀ u ∈ s.rules, u.steps ≠ [] → u.above ∈ Fields.names (grouped s.rules) :=
      fun u hu hne => (mem_names_grouped s.rules u.above).2 ⟨u, hu, hne, rfl⟩
    refine List.inj_on_of_nodup_map hnodup (hin r hr hrne) (hin t ht htne) ?_
    rw [XPath.pattern_eq, XPath.pattern_eq, heq]
  · intro hsame
    refine (nodup_names_grouped s.rules).map_on ?_
    intro first hfirst second hsecond heq
    obtain ⟨r, hr, hrne, rfl⟩ := (mem_names_grouped s.rules first).1 hfirst
    obtain ⟨t, ht, htne, rfl⟩ := (mem_names_grouped s.rules second).1 hsecond
    exact hsame r hr t ht hrne htne
      (XPath.elementNames_of_pattern hqualifier (hnames r hr) (hnames t ht) heq)

/-- Two rules that append to elements of one name, told apart by a filter, have templates for the
same elements. -/
theorem patterns_competing :
    let s : Stylesheet := ⟨"", true, defaultNamespace, "ns",
      [⟨"1", "a[@t='1'].p.c", .constant "x"⟩, ⟨"2", "a[@t='2'].p.c", .constant "y"⟩]⟩
    s.patterns = ["@*|node()", "ns:a", "ns:a"] ∧ ¬ s.patterns.tail.Nodup := by
  decide

/-- Elements at different places, one of which two rules append to. -/
theorem nodup_patterns_of_places :
    let s : Stylesheet := ⟨"", true, defaultNamespace, "ns",
      [⟨"1", "a.p.c", .constant "x"⟩, ⟨"2", "a.b.p.c", .constant "y"⟩,
       ⟨"3", "a.0.p.@_k", .constant "z"⟩, ⟨"4", "p", .constant "u"⟩]⟩
    s.patterns.tail = ["ns:a", "ns:a/ns:b", "/"] ∧ s.patterns.tail.Nodup := by
  intro s
  have hnames : ∀ r ∈ s.rules, ∀ name ∈ elementNames r.above, '/' ∉ name.toList := by decide
  exact ⟨by decide, (nodup_tail_patterns_iff rfl (by decide) hnames).2 (by decide)⟩

end Stylesheet

end Crosswalk
