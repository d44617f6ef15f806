import Crosswalk.Proofs.Markup.Tokens
import Crosswalk.Proofs.Path.Splicing
import Crosswalk.Proofs.Stylesheet.Exchanged
import Crosswalk.Proofs.Stylesheet.SoundParts
import Crosswalk.Proofs.Stylesheet.Within
import Crosswalk.Stylesheet.Text
import Mathlib.Data.List.Forall2

/-!
# The markup of stylesheets

The tags of a stylesheet come from the output paths of its rules and from the sorts of their sources.
Constants, source paths and the namespace only fill texts and values, and identifiers are not written
at all.  So a stylesheet has the same tokens as the one that is left when all these are emptied,
whatever characters stand in them.

* `sameTokens_value` : a constant or a source path, emptied.
* `sameTokens_elementLines`, `sameTokens_parts` : the lines of a tree, and what a rule appends.
* `sameTokens_document` : both sorts of stylesheets.
-/

namespace Crosswalk

open Markup

/-- A source with nothing left but its sort. -/
def Source.blank : Source → Source
  | .direct _ => .direct ""
  | .constant _ => .constant ""

/-- A rule with nothing left but its output path and the sort of its source. -/
def Rule.blank (r : Rule) : Rule :=
  ⟨"", r.outputPath, r.source.blank⟩

theorem Source.blank_eq_of_sort {source other : Source} (h : source.sort = other.sort) :
    source.blank = other.blank := by
  cases source <;> cases other <;> simp_all [sort, blank]

theorem Rule.blank_eq_of_same {r u : Rule} (hpath : r.outputPath = u.outputPath)
    (hsort : r.source.sort = u.source.sort) : r.blank = u.blank := by
  rw [blank, blank, hpath, Source.blank_eq_of_sort hsort]

/-- The name in a filter stands for itself in a tag. -/
theorem Filter.isTagText_of_read? {text : String} {filter : Filter}
    (h : Filter.read? text = some filter) : IsTagText filter.name.toList := by
  have hread : Filter.read text = .ok filter := by
    unfold Filter.read? at h
    cases hresult : Filter.read text with
    | error fault => simp [hresult, Except.toOption] at h
    | ok found => simpa [hresult, Except.toOption] using h
  intro c hc
  have hchar := (Filter.spellable_of_read hread).name_chars c hc
  refine ⟨?_, ?_, ?_⟩
  all_goals
    intro heq
    subst heq
    exact absurd hchar (by decide +kernel)

namespace Stylesheet

variable (qualifier namespaceUri other : String)

/-! ### What both sorts share -/

theorem isTagText_space : IsTagText " ".toList := by decide

theorem readable_quoted {name : String} (value : String) (hname : IsTagText name.toList) :
    (quoted name value).Readable where
  gap := isTagText_space
  name := hname
  plain := fun h => nomatch h

/-- Nothing is left of a value that is escaped. -/
theorem map_blanked_quoted (name first second : String) :
    [quoted name first].map Given.blanked = [quoted name second].map Given.blanked := rfl

theorem readable_plain {name value : String} (hname : IsTagText name.toList)
    (hvalue : '"' ∉ value.toList) : (plain name value).Readable where
  gap := isTagText_space
  name := hname
  plain := fun _ => hvalue

theorem sameTokens_line {p q : Part} (h : SameTokens [p] [q]) (pad : String) :
    SameTokens (line pad p) (line pad q) :=
  .cons (.text pad pad) (.cons h (.text _ _))

/-- Parts between two texts. -/
theorem sameTokens_block {ps qs others rest : List Part} (h : SameTokens ps qs)
    (hothers : SameTokens others rest) (opening closing : String) :
    SameTokens ([.text opening] ++ ps ++ others ++ [.text closing])
      ([.text opening] ++ qs ++ rest ++ [.text closing]) :=
  .append (.append (.append (.text _ _) h) hothers) (.text _ _)

/-- Elements with one attribute. -/
theorem sameTokens_element_one {name : String} (hname : IsName name.toList) {a : Given}
    (ha : a.Readable) {ps qs : List Part} (h : SameTokens ps qs) :
    SameTokens [.element name [a] ps] [.element name [a] qs] := by
  have hattributes : ∀ b ∈ [a], b.Readable := List.forall_mem_singleton.2 ha
  exact .element hname.isTagName hattributes hattributes rfl h

/-- **A constant is text, and a source path a value.**  Neither has tokens. -/
theorem sameTokens_value (source : Source) :
    SameTokens [value qualifier source] [value qualifier source.blank] := by
  cases source with
  | constant constant => exact .text _ _
  | direct path =>
    have hname : IsName "xsl:value-of".toList := by decide
    have hselect : ∀ text, ∀ a ∈ [quoted "select" text], a.Readable := fun text =>
      List.forall_mem_singleton.2 (readable_quoted text (by decide))
    exact .single hname.isTagName (hselect _) (hselect _) (map_blanked_quoted _ _ _)

theorem sameTokens_attributeInstruction {name : String} (hname : IsTagText name.toList)
    {p q : Part} (h : SameTokens [p] [q]) :
    SameTokens [attributeInstruction name p] [attributeInstruction name q] :=
  sameTokens_element_one (by decide) (readable_plain (by decide) (quote_not_mem hname)) h

/-! ### Writing the output from nothing -/

/-- Whether the name of a step is a name of markup. -/
def IsNamed (step : Segment) : Prop :=
  IsName (elementName step).toList

/-- Entries all of whose steps have names of markup. -/
abbrev Entry.IsNamed (entry : Entry) : Prop :=
  entry.Within Stylesheet.IsNamed fun _ => True

abbrev Level.IsNamed (level : Level) : Prop :=
  level.Within Stylesheet.IsNamed fun _ => True

theorem readable_filterAttributes (step : Segment) :
    ∀ a ∈ filterAttributes step, a.Readable := by
  unfold filterAttributes
  split
  · rename_i f hf
    obtain ⟨text, -, hread⟩ := Option.bind_eq_some_iff.1 hf
    exact List.forall_mem_singleton.2 (readable_quoted _ (Filter.isTagText_of_read? hread))
  · exact fun _ ha => nomatch ha

theorem sameTokens_outputElement {step : Segment} (hstep : IsNamed step) {ps qs : List Part}
    (h : SameTokens ps qs) :
    SameTokens [.element (elementName step) (filterAttributes step) ps]
      [.element (elementName step) (filterAttributes step) qs] :=
  .element hstep.isTagName (readable_filterAttributes step) (readable_filterAttributes step) rfl h

theorem sameTokens_attributeLines {level : Level} (h : level.IsNamed) (pad : String) :
    SameTokens (attributeLines qualifier pad level)
      (attributeLines qualifier pad (exchangeAll Rule.blank level)) := by
  have hline : ∀ (name : String) (rule : Rule), IsNamed (.attribute name) →
      SameTokens (line pad (attributeInstruction name (value qualifier rule.source)))
        (line pad (attributeInstruction name (value qualifier rule.blank.source))) := by
    intro name rule hname
    exact sameTokens_line (sameTokens_attributeInstruction hname.isTagName.isTagText
      (sameTokens_value qualifier rule.source)) pad
  induction level with
  | nil => exact .nil
  | cons e rest ih =>
    obtain ⟨hstep, hrest⟩ := List.forall_mem_cons.1 h
    match e with
    | (.attribute name, .leaf rule) =>
      exact (hline name rule hstep.1).append (ih hrest)
    | (.attribute name, .fanout rules) =>
      rw [exchangeAll, Entry.exchange, attributeLines, attributeLines, List.flatMap_map]
      exact .append (.flatMap fun rule _ => hline name rule hstep.1) (ih hrest)
    | (.attribute _, .branch _) => exact ih hrest
    | (.element _ _, _) => exact ih hrest
    | (.index _, _) => exact ih hrest

/-- The lines of a level have the same tokens if those of its entries have. -/
theorem sameTokens_childLines {qualifier pad : String} {level : Level}
    (h : ∀ e ∈ level, SameTokens (elementLines qualifier pad e.1 e.2)
      (elementLines qualifier pad e.1 (e.2.exchange Rule.blank))) :
    SameTokens (childLines qualifier pad level)
      (childLines qualifier pad (exchangeAll Rule.blank level)) := by
  induction level with
  | nil =>
    rw [exchangeAll, childLines]
    exact .nil
  | cons e rest ih =>
    obtain ⟨step, entry⟩ := e
    obtain ⟨hentry, hrest⟩ := List.forall_mem_cons.1 h
    rw [exchangeAll, childLines, childLines]
    refine .append ?_ (ih hrest)
    split
    · exact .nil
    · exact hentry

/-- **The lines of an entry have the same tokens**, however deep they are indented. -/
theorem sameTokens_elementLines {entry : Entry} (h : entry.IsNamed) {step : Segment}
    (hstep : IsNamed step) (pad : String) :
    SameTokens (elementLines qualifier pad step entry)
      (elementLines qualifier pad step (entry.exchange Rule.blank)) := by
  induction h generalizing step pad with
  | @leaf rule _ =>
    rw [Entry.exchange, elementLines, elementLines]
    exact sameTokens_line (sameTokens_outputElement hstep (sameTokens_value qualifier _)) pad
  | @fanout rules _ =>
    rw [Entry.exchange, elementLines, elementLines, List.flatMap_map]
    refine .flatMap fun rule _ => sameTokens_line (sameTokens_outputElement hstep ?_) pad
    exact .cons (.text _ _) (.cons (sameTokens_value qualifier _) (.text _ _))
  | @branch children hsteps hentries ih =>
    rw [Entry.exchange, elementLines, elementLines]
    have hchildren : Level.IsNamed children := fun e he => ⟨hsteps e he, hentries e he⟩
    have hattributes := sameTokens_attributeLines qualifier hchildren (pad ++ "  ")
    have hbelow := sameTokens_childLines fun e he => ih e he (hsteps e he) (pad ++ "  ")
    exact sameTokens_line (sameTokens_outputElement hstep
      (sameTokens_block hattributes hbelow _ _)) pad

theorem sameTokens_rebuildingTemplate {level : Level} (h : level.IsNamed) :
    SameTokens [rebuildingTemplate qualifier level]
      [rebuildingTemplate qualifier (exchangeAll Rule.blank level)] := by
  have hattributes := sameTokens_attributeLines qualifier h "    "
  have hchildren := sameTokens_childLines fun e he =>
    sameTokens_elementLines qualifier (h e he).2 (h e he).1 "    "
  have hmatch : (plain "match" "/").Readable := readable_plain (by decide) (by decide)
  exact sameTokens_element_one (by decide) hmatch
    (.append (.append (.text _ _) (hattributes.append hchildren)) (.text _ _))

/-! ### Appending to a copy of the input -/

theorem sameTokens_filterInstruction (pad : String) (step : Segment) :
    SameTokens (filterInstruction pad step) (filterInstruction pad step) := by
  unfold filterInstruction
  split
  · rename_i f hf
    obtain ⟨text, -, hread⟩ := Option.bind_eq_some_iff.1 hf
    exact sameTokens_line (sameTokens_attributeInstruction (Filter.isTagText_of_read? hread)
      (.text _ _)) pad
  · exact .nil

/-- Instructions for an element of one name, in whatever namespaces. -/
theorem sameTokens_elementInstruction {step : Segment} (hstep : IsNamed step) {ps qs : List Part}
    (h : SameTokens ps qs) :
    SameTokens [elementInstruction namespaceUri step ps] [elementInstruction other step qs] := by
  have hname : IsName "xsl:element".toList := by decide
  have hattributes : ∀ uri, ∀ a ∈ [plain "name" (elementName step), quoted "namespace" uri],
      a.Readable := by
    intro uri
    have hown : (plain "name" (elementName step)).Readable :=
      readable_plain (by decide) (quote_not_mem hstep.isTagName.isTagText)
    exact List.forall_mem_cons.2 ⟨hown, List.forall_mem_singleton.2
      (readable_quoted uri (by decide))⟩
  exact .element hname.isTagName (hattributes namespaceUri) (hattributes other) rfl h

theorem sameTokens_fieldInstruction {step : Segment} (hstep : IsNamed step) {p q : Part}
    (h : SameTokens [p] [q]) (pad : String) :
    SameTokens [fieldInstruction namespaceUri pad p step]
      [fieldInstruction other pad q step] := by
  unfold fieldInstruction
  split
  · exact sameTokens_attributeInstruction hstep.isTagName.isTagText h
  · exact sameTokens_elementInstruction namespaceUri other hstep
      (sameTokens_block (sameTokens_filterInstruction _ _) (sameTokens_line h _) _ _)

/-- **What a rule appends has the same tokens** as what is appended for the emptied rule. -/
theorem sameTokens_parts {a : Appended} (h : a.Within IsNamed fun _ => True) :
    SameTokens (a.parts qualifier namespaceUri)
      ((a.exchange Rule.blank).parts qualifier other) := by
  have hvalue := sameTokens_value qualifier a.rule.source
  unfold Appended.parts Appended.exchange
  cases hparent : a.parent with
  | none =>
    exact .cons (.text _ _) (sameTokens_fieldInstruction namespaceUri other h.field hvalue _)
  | some parent =>
    have hfield := sameTokens_fieldInstruction namespaceUri other h.field hvalue "        "
    refine .cons (.text _ _) ?_
    exact sameTokens_elementInstruction namespaceUri other (h.parent parent hparent)
      (sameTokens_block (sameTokens_filterInstruction _ _) (sameTokens_line hfield _) _ _)

theorem sameTokens_applyTemplates : SameTokens [applyTemplates] [applyTemplates] := by
  have hname : IsName "xsl:apply-templates".toList := by decide
  have hselect : ∀ a ∈ [plain "select" "@*|node()"], a.Readable :=
    List.forall_mem_singleton.2 (readable_plain (by decide) (by decide))
  exact .single hname.isTagName hselect hselect rfl

/-- Templates that copy what they match. -/
theorem sameTokens_copyingTemplate {pattern : Given} (hpattern : pattern.Readable)
    {ps qs : List Part} (h : SameTokens ps qs) :
    SameTokens
      [.element "xsl:template" [pattern]
        [.text "\n    ",
         .element "xsl:copy" [] ([.text "\n      ", applyTemplates] ++ ps ++ [.text "\n    "]),
         .text "\n  "]]
      [.element "xsl:template" [pattern]
        [.text "\n    ",
         .element "xsl:copy" [] ([.text "\n      ", applyTemplates] ++ qs ++ [.text "\n    "]),
         .text "\n  "]] := by
  have hcopied : SameTokens ([.text "\n      ", applyTemplates] ++ ps ++ [.text "\n    "])
      ([.text "\n      ", applyTemplates] ++ qs ++ [.text "\n    "]) :=
    .append (.append (.cons (.text _ _) sameTokens_applyTemplates) h) (.text _ _)
  have hname : IsName "xsl:copy".toList := by decide
  have hnone : ∀ a ∈ ([] : List Given), a.Readable := fun _ ha => nomatch ha
  have hcopy := SameTokens.element hname.isTagName hnone hnone rfl hcopied
  exact sameTokens_element_one (by decide) hpattern
    (.cons (.text _ _) (.cons hcopy (.text _ _)))

theorem sameTokens_identityTemplate : SameTokens [identityTemplate] [identityTemplate] := by
  have hmatch : (plain "match" "@*|node()").Readable := readable_plain (by decide) (by decide)
  have hcopied := sameTokens_copyingTemplate hmatch SameTokens.nil
  unfold identityTemplate
  exact hcopied

theorem sameTokens_overrideTemplate (steps : List Segment) {members : List Appended}
    (h : ∀ a ∈ members, a.Within IsNamed fun _ => True) :
    SameTokens [overrideTemplate qualifier namespaceUri steps members]
      [overrideTemplate qualifier other steps (members.map (Appended.exchange Rule.blank))] := by
  unfold overrideTemplate
  refine sameTokens_copyingTemplate (readable_quoted _ (by decide)) ?_
  rw [List.flatMap_map]
  exact .flatMap fun a ha => .cons (.text _ _) (sameTokens_parts qualifier namespaceUri other (h a ha))

theorem sameTokens_overrideTemplates {groups : List (List Segment × List Appended)}
    (h : GroupsWithin IsNamed (fun _ => True) groups) :
    SameTokens (overrideTemplates qualifier namespaceUri groups)
      (overrideTemplates qualifier other
        (groups.map (Prod.map id (List.map (Appended.exchange Rule.blank))))) := by
  cases groups with
  | nil => exact .nil
  | cons first rest =>
    obtain ⟨hfirst, hrest⟩ := List.forall_mem_cons.1 h
    have htemplate :=
      sameTokens_overrideTemplate qualifier namespaceUri other first.1 hfirst.2
    simp only [overrideTemplates, List.map_cons, List.map_map, List.flatMap_map]
    refine .cons (.text _ _) (.cons htemplate (.flatMap fun g hg => ?_))
    exact .cons (.text _ _)
      (sameTokens_overrideTemplate qualifier namespaceUri other g.1 (hrest g hg).2)

/-! ### The document -/

/-- A stylesheet with nothing left of its rules but their output paths and the sorts of their
sources, and nothing of its namespace. -/
def blank (s : Stylesheet) : Stylesheet :=
  { s with namespaceUri := "", rules := s.rules.map Rule.blank }

theorem sameTokens_comment {content : String} (h : Hyphens.pairs content.toList = 0) :
    SameTokens [.comment content] [.comment content] :=
  .comment fun hinfix => Hyphens.pairs_ne_zero_of_infix hinfix h

theorem sameTokens_notesComment (notes : String) :
    SameTokens (notesComment notes) (notesComment notes) := by
  unfold notesComment
  split
  · exact .nil
  · exact .cons (sameTokens_comment (pairs_notes notes)) (.text _ _)

/-- Whether the names of the output fields of a stylesheet, and its qualifier, are names of
markup. -/
structure IsWellNamed (s : Stylesheet) : Prop where
  qualifier : IsName s.qualifier.toList
  names : ∀ r ∈ s.rules, ∀ step ∈ Path.segments r.outputPath, ∀ name, step.name? = some name →
    IsName name.toList

theorem IsWellNamed.isNamed {s : Stylesheet} (h : s.IsWellNamed) :
    ∀ r ∈ s.rules, ∀ step ∈ Path.namedSegments r.outputPath, IsNamed step := by
  intro r hr step hstep
  obtain ⟨hmem, hnamed⟩ := List.mem_filter.1 hstep
  rcases step with ⟨name, brackets⟩ | name | n
  · exact h.names r hr _ hmem name rfl
  · exact h.names r hr _ hmem name rfl
  · simp [Segment.isIndex] at hnamed

/-- Nothing of the names is lost in an emptied stylesheet. -/
theorem isWellNamed_blank_iff (s : Stylesheet) : s.blank.IsWellNamed ↔ s.IsWellNamed := by
  constructor
  · intro h
    exact ⟨h.qualifier, fun r hr => h.names r.blank (List.mem_map_of_mem hr)⟩
  · intro h
    refine ⟨h.qualifier, ?_⟩
    intro r hr
    obtain ⟨given, hgiven, rfl⟩ := List.mem_map.1 hr
    exact h.names given hgiven

theorem sameTokens_templates {s : Stylesheet} (h : s.IsWellNamed) :
    SameTokens s.templates s.blank.templates := by
  have hrules : ∀ r ∈ s.rules, True := fun _ _ => trivial
  have hsteps : ∀ r : Rule, r.blank.steps = r.steps := fun _ => rfl
  unfold templates
  by_cases hcopies : s.copiesInput = true
  · have hblank : s.blank.copiesInput = true := hcopies
    have hgroups := sameTokens_overrideTemplates s.qualifier s.namespaceUri ""
      (within_grouped s.rules hrules h.isNamed)
    rw [← grouped_exchange hsteps] at hgroups
    rw [if_pos hcopies, if_pos hblank]
    unfold copyingTemplates
    refine .append ?_ hgroups
    exact .cons (sameTokens_comment (by decide)) (.cons (.text _ _)
      (.cons sameTokens_identityTemplate (.cons (.text _ _) (sameTokens_comment (by decide)))))
  · have hblank : ¬ s.blank.copiesInput = true := hcopies
    have htree := sameTokens_rebuildingTemplate s.qualifier
      (Level.within_ofRules s.rules hrules h.isNamed)
    rw [← Level.ofRules_exchange hsteps] at htree
    rw [if_neg hcopies, if_neg hblank]
    exact htree

theorem readable_rootAttributes {s : Stylesheet} (h : IsName s.qualifier.toList) :
    ∀ a ∈ rootAttributes s, a.Readable := by
  have hgap : IsTagText "\n  ".toList := by decide
  have hexclude : IsTagText "exclude-result-prefixes".toList := by decide
  have hchars := h.isTagName.isTagText
  have hdeclared : IsTagText ("xmlns:" ++ s.qualifier).toList := by
    have hlead : IsTagText "xmlns:".toList := by decide
    rw [String.toList_append]
    exact hlead.append hchars
  simp only [rootAttributes, List.forall_mem_cons]
  refine ⟨readable_plain (by decide) (by decide), ⟨hgap, by decide, fun _ => by decide⟩,
    ⟨hgap, hdeclared, fun hplain => nomatch hplain⟩,
    ⟨hgap, hexclude, fun _ => quote_not_mem hchars⟩, fun _ ha => nomatch ha⟩

/-- **A stylesheet has the same tokens as its emptied one.** -/
theorem sameTokens_document {s : Stylesheet} (h : s.IsWellNamed) :
    SameTokens (document s s.templates) (document s.blank s.blank.templates) := by
  have hname : IsName "xsl:stylesheet".toList := by decide
  have houtput : SameTokens [outputDeclaration] [outputDeclaration] := by
    have houtputName : IsName "xsl:output".toList := by decide
    have hattributes : ∀ a ∈ [plain "method" "xml", plain "encoding" "UTF-8", plain "indent" "yes"],
        a.Readable := by
      simp only [List.forall_mem_cons]
      exact ⟨readable_plain (by decide) (by decide), readable_plain (by decide) (by decide),
        readable_plain (by decide) (by decide), fun _ ha => nomatch ha⟩
    exact .single houtputName.isTagName hattributes hattributes rfl
  have hcontent : SameTokens
      ([.text "\n  ", outputDeclaration, .text "\n\n  "] ++ s.templates ++ [.text "\n"])
      ([.text "\n  ", outputDeclaration, .text "\n\n  "] ++ s.blank.templates ++ [.text "\n"]) :=
    .append (.append (.cons (.text _ _) (.cons houtput (.text _ _))) (sameTokens_templates h))
      (.text _ _)
  have hroot := SameTokens.element hname.isTagName (readable_rootAttributes h.qualifier)
    (readable_rootAttributes (s := s.blank) h.qualifier) rfl hcontent
  exact .append (sameTokens_notesComment s.notes) (.cons hroot (.text _ _))

/-- The text of a stylesheet is read as a token for the declaration and then as its document. -/
theorem scans_stylesheet {s : Stylesheet} {found : List (List Char)}
    (h : Scans .outside (Part.charsOf (document s s.templates)) found .outside) :
    Scans .outside s.text.toList ("<?xml version=\"\" encoding=\"\"?>".toList :: found) .outside := by
  have hdeclaration : Scans .outside "<?xml version=\"1.0\" encoding=\"UTF-8\"?>\n".toList
      ["<?xml version=\"\" encoding=\"\"?>".toList] .outside := rfl
  have hchars : (String.ofList (Part.charsOf (document s s.templates))).toList
      = Part.charsOf (document s s.templates) := String.toList_ofList
  unfold Stylesheet.text
  rw [String.toList_append, hchars]
  exact hdeclaration.append h

/-- **Texts of a user do not change the markup** of a stylesheet.  Stylesheets whose rules agree in
their output paths and in the sorts of their sources, with the same notes and the same qualifier, have
the same tokens, whatever the identifiers, constants, source paths and namespaces are; and all that is
opened in them is closed. -/
theorem tokens_text_eq {s t : Stylesheet} (h : s.IsWellNamed) (hnotes : s.notes = t.notes)
    (hcopies : s.copiesInput = t.copiesInput) (hqualifier : s.qualifier = t.qualifier)
    (hrules : List.Forall₂ (fun r u => r.outputPath = u.outputPath ∧
      r.source.sort = u.source.sort) s.rules t.rules) :
    tokens s.text.toList = tokens t.text.toList ∧
      Scans .outside s.text.toList (tokens s.text.toList) .outside := by
  have hsame : s.rules.map Rule.blank = t.rules.map Rule.blank := by
    rw [← List.forall₂_eq_eq_eq, List.forall₂_map_left_iff, List.forall₂_map_right_iff]
    exact hrules.imp fun _ _ hru => Rule.blank_eq_of_same hru.1 hru.2
  have hblank : s.blank = t.blank := by
    rw [blank, blank, hnotes, hcopies, hqualifier, hsame]
  have ht : t.IsWellNamed := by
    rw [← isWellNamed_blank_iff, ← hblank, isWellNamed_blank_iff]
    exact h
  obtain ⟨found, hsReads, hsEmptied⟩ := sameTokens_document h
  obtain ⟨more, htReads, htEmptied⟩ := sameTokens_document ht
  rw [hblank] at hsEmptied
  have hfound : found = more := hsEmptied.tokens_eq.symm.trans htEmptied.tokens_eq
  have hsText := scans_stylesheet hsReads
  have htText := scans_stylesheet htReads
  constructor
  · rw [hsText.tokens_eq, htText.tokens_eq, hfound]
  · rw [hsText.tokens_eq]
    exact hsText

/-- Rules whose texts would end tags, values and comments, in a tree and in groups, with a filter, an
attribute, and a name that several rules have. -/
theorem tokens_text_eq_with_markup :
    let s : Stylesheet := ⟨"it's \"<b>\" --->", false, "urn:x", "ns",
      [⟨"1", "Doc.Item[@k='a>\"b<']", .constant "x"⟩, ⟨"2", "Doc.Head.@_id", .direct "In.a"⟩,
       ⟨"3", "Doc.Item[@k='a>\"b<']", .direct "In.b"⟩, ⟨"4", "Doc.0.Head.T", .constant "y"⟩]⟩
    let t : Stylesheet := ⟨"it's \"<b>\" --->", false, "'/>\"<e a=\"", "ns",
      [⟨"", "Doc.Item[@k='a>\"b<']", .constant "</Item><!-- \" ' -->]]>"⟩,
       ⟨"7", "Doc.Head.@_id", .direct "In[\"'>].<x a='\"/>"⟩,
       ⟨"7", "Doc.Item[@k='a>\"b<']", .direct "\"/></xsl:template>"⟩,
       ⟨"-->", "Doc.0.Head.T", .constant ""⟩]⟩
    let copying : Stylesheet := { s with copiesInput := true }
    let copied : Stylesheet := { t with copiesInput := true }
    tokens s.text.toList = tokens t.text.toList ∧
      tokens copying.text.toList = tokens copied.text.toList := by
  intro s t copying copied
  have hnames : ∀ r ∈ s.rules, ∀ step ∈ Path.segments r.outputPath,
      step.name?.all (fun name => decide (IsName name.toList)) = true := by decide +kernel
  have hwell : s.IsWellNamed := by
    refine ⟨by decide, ?_⟩
    intro r hr step hstep name hname
    have hall := hnames r hr step hstep
    rw [hname] at hall
    exact of_decide_eq_true hall
  have hrules : List.Forall₂ (fun r u => r.outputPath = u.outputPath ∧
      r.source.sort = u.source.sort) s.rules t.rules :=
    .cons ⟨rfl, rfl⟩ (.cons ⟨rfl, rfl⟩ (.cons ⟨rfl, rfl⟩ (.cons ⟨rfl, rfl⟩ .nil)))
  have hcopying : copying.IsWellNamed := ⟨hwell.qualifier, hwell.names⟩
  have hnotes : s.notes = t.notes := rfl
  have hqualifier : s.qualifier = t.qualifier := rfl
  have hrebuilds : s.copiesInput = t.copiesInput := rfl
  have hcopies : copying.copiesInput = copied.copiesInput := rfl
  have hrebuilt := tokens_text_eq (t := t) hwell hnotes hrebuilds hqualifier hrules
  have hoverridden := tokens_text_eq (t := copied) hcopying hnotes hcopies hqualifier hrules
  exact ⟨hrebuilt.1, hoverridden.1⟩

end Stylesheet

end Crosswalk
