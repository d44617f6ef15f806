import Crosswalk.Proofs.Stylesheet.SoundParts
import Crosswalk.Proofs.Stylesheet.Within
import Crosswalk.Stylesheet.Text

/-!
# Stylesheets are well-formed

Whatever rules a stylesheet is made from, its text is a well-formed document, in both sorts of
stylesheets, as long as the names that it has to write are names and all characters are legal.  What
the tree of output fields and the groups of appended fields hold are steps and rules of the list, so
each part that is written from them is sound.

* `Writable` : what is asked of the names and characters.
* `isDocument_text` : the text is a well-formed document.
-/

namespace Crosswalk.Stylesheet

open Markup

/-- Whether the names and characters that go into a stylesheet may be written. -/
structure Writable (s : Stylesheet) : Prop where
  names : ∀ r ∈ s.rules, ∀ step ∈ Path.segments r.outputPath, ∀ name, step.name? = some name →
    IsPlainName name.toList
  filters : ∀ r ∈ s.rules, ∀ step ∈ Path.segments r.outputPath, ∀ f, step.filter? = some f →
    IsPlainName f.name.toList ∧ IsLegal f.value.toList
  sources : ∀ r ∈ s.rules, r.source.IsLegal
  qualifier : IsPlainName s.qualifier.toList
  qualifier_ne : s.qualifier ≠ "xsl"
  notes : IsLegal s.notes.toList
  namespaceUri : IsLegal s.namespaceUri.toList

/-- The steps that count in the output path of a rule may be written. -/
theorem Writable.step {s : Stylesheet} (h : s.Writable) {r : Rule} (hr : r ∈ s.rules) :
    ∀ step ∈ Path.namedSegments r.outputPath, step.Writable := by
  intro step hstep
  obtain ⟨hmem, hnamed⟩ := List.mem_filter.1 hstep
  refine ⟨?_, h.filters r hr step hmem⟩
  rcases step with ⟨name, brackets⟩ | name | n
  · exact ⟨name, rfl, h.names r hr _ hmem name rfl⟩
  · exact ⟨name, rfl, h.names r hr _ hmem name rfl⟩
  · simp [Segment.isIndex] at hnamed

/-! ### Writing the output from nothing -/

variable {qualifier : String}

/-- The rules and steps of a tree whose lines are sound. -/
abbrev Level.IsWritable (level : Level) : Prop :=
  level.Within Segment.Writable fun rule => rule.source.IsLegal

theorem sound_filterAttributes {step : Segment} (h : step.Writable) :
    (∀ a ∈ filterAttributes step, a.Sound) ∧ ((filterAttributes step).map Given.name).Nodup := by
  unfold filterAttributes
  split
  · rename_i f hf
    obtain ⟨hname, hvalue⟩ := h.filter f hf
    exact ⟨List.forall_mem_singleton.2 (sound_quoted hname.1 hvalue), by simp⟩
  · exact ⟨fun _ ha => (nomatch ha), by simp⟩

/-- An element of the output, with what its filter demands. -/
theorem sound_outputElement {step : Segment} (h : step.Writable) {content : List Part}
    (hcontent : AllSound content) :
    (Part.element (elementName step) (filterAttributes step) content).Sound := by
  obtain ⟨hattributes, hdistinct⟩ := sound_filterAttributes h
  exact .element h.isName hattributes hdistinct hcontent

theorem allSound_attributeLines (hqualifier : IsLegal qualifier.toList) {pad : String}
    (hpad : IsLegal pad.toList) {level : Level} (h : level.IsWritable) :
    AllSound (attributeLines qualifier pad level) := by
  induction level with
  | nil => exact allSound_nil
  | cons e rest ih =>
    obtain ⟨step, entry⟩ := e
    obtain ⟨⟨hstep, hentry⟩, hrest⟩ := List.forall_mem_cons.1 h
    unfold attributeLines
    refine AllSound.append ?_ (ih hrest)
    split
    · rename_i name rule
      cases hentry with
      | leaf hrule =>
        exact allSound_line hpad (sound_attributeInstruction hstep.isName
          (sound_value hqualifier hrule))
    · rename_i name members
      cases hentry with
      | fanout hmembers =>
        refine allSound_flatMap fun rule hr => ?_
        exact allSound_line hpad (sound_attributeInstruction hstep.isName
          (sound_value hqualifier (hmembers rule hr)))
    · exact allSound_nil

/-- The lines of a level are sound if those of its entries are. -/
theorem allSound_childLines {pad : String} {level : Level}
    (h : ∀ e ∈ level, AllSound (elementLines qualifier pad e.1 e.2)) :
    AllSound (childLines qualifier pad level) := by
  induction level with
  | nil =>
    rw [childLines]
    exact allSound_nil
  | cons e rest ih =>
    obtain ⟨step, entry⟩ := e
    obtain ⟨hentry, hrest⟩ := List.forall_mem_cons.1 h
    rw [childLines]
    refine AllSound.append ?_ (ih hrest)
    split
    · exact allSound_nil
    · exact hentry

/-- **The lines of an entry are sound**, however deep they are indented. -/
theorem allSound_elementLines (hqualifier : IsLegal qualifier.toList) {entry : Entry}
    (h : entry.Within Segment.Writable fun rule => rule.source.IsLegal) {step : Segment}
    (hstep : step.Writable) {pad : String} (hpad : IsLegal pad.toList) :
    AllSound (elementLines qualifier pad step entry) := by
  induction h generalizing step pad with
  | leaf hrule =>
    rw [elementLines]
    exact allSound_line hpad (sound_outputElement hstep (allSound_singleton
      (sound_value hqualifier hrule)))
  | @fanout members hrules =>
    rw [elementLines]
    refine allSound_flatMap fun rule hr => ?_
    have houter : IsLegal ("\n" ++ pad).toList := by
      rw [String.toList_append]
      exact isLegal_break.append hpad
    have hvalue := allSound_singleton (sound_value hqualifier (hrules rule hr))
    exact allSound_line hpad (sound_outputElement hstep
      (hvalue.framed (isLegal_deeper houter) houter))
  | @branch children hsteps hentries ih =>
    rw [elementLines]
    have hdeeper := isLegal_deeper hpad
    have hwithin : Level.IsWritable children := fun e he => ⟨hsteps e he, hentries e he⟩
    have hattributes := allSound_attributeLines hqualifier hdeeper hwithin
    have hchildren : AllSound (childLines qualifier (pad ++ "  ") children) :=
      allSound_childLines fun e he => ih e he (hsteps e he) hdeeper
    exact allSound_line hpad (sound_outputElement hstep
      ((hattributes.append hchildren).framed isLegal_break hpad))

/-- The template that writes a tree is sound. -/
theorem sound_rebuildingTemplate (hqualifier : IsLegal qualifier.toList) {level : Level}
    (h : level.IsWritable) : (rebuildingTemplate qualifier level).Sound := by
  have hpad : IsLegal "    ".toList := by decide
  have hattributes := allSound_attributeLines hqualifier hpad h
  have hchildren : AllSound (childLines qualifier "    " level) :=
    allSound_childLines fun e he =>
      allSound_elementLines hqualifier (h e he).2 (h e he).1 hpad
  have hmatch : (plain "match" "/").Sound := sound_plain (by decide) (by decide)
  exact sound_element_one (by decide) hmatch
    ((hattributes.append hchildren).framed isLegal_break (by decide))

/-! ### Appending to a copy of the input -/

variable {namespaceUri : String}

theorem allSound_filterInstruction {pad : String} (hpad : IsLegal pad.toList) {step : Segment}
    (h : step.Writable) : AllSound (filterInstruction pad step) := by
  unfold filterInstruction
  split
  · rename_i f hf
    obtain ⟨hname, hvalue⟩ := h.filter f hf
    exact allSound_line hpad (sound_attributeInstruction hname.1 (.text hvalue))
  · exact allSound_nil

theorem sound_elementInstruction (hnamespace : IsLegal namespaceUri.toList) {step : Segment}
    (h : step.Writable) {content : List Part} (hcontent : AllSound content) :
    (elementInstruction namespaceUri step content).Sound := by
  refine .element (by decide) ?_ (by simp [plain, quoted]) hcontent
  refine List.forall_mem_cons.2 ⟨sound_plain_name h.isName, List.forall_mem_singleton.2 ?_⟩
  exact sound_quoted (by decide) hnamespace

theorem sound_fieldInstruction (hnamespace : IsLegal namespaceUri.toList) {pad : String}
    (hpad : IsLegal pad.toList) {content : Part} (hcontent : content.Sound) {step : Segment}
    (h : step.Writable) : (fieldInstruction namespaceUri pad content step).Sound := by
  unfold fieldInstruction
  split
  · exact sound_attributeInstruction h.isName hcontent
  · have hdeeper := isLegal_deeper hpad
    have hfilter := allSound_filterInstruction hdeeper h
    exact sound_elementInstruction hnamespace h
      ((hfilter.append (allSound_line hdeeper hcontent)).framed isLegal_break hpad)

/-- What a rule appends. -/
theorem allSound_parts (hqualifier : IsLegal qualifier.toList)
    (hnamespace : IsLegal namespaceUri.toList) {a : Appended}
    (h : a.Within Segment.Writable fun rule => rule.source.IsLegal) :
    AllSound (a.parts qualifier namespaceUri) := by
  have hpad : IsLegal "      ".toList := by decide
  have hdeeper : IsLegal "        ".toList := isLegal_deeper hpad
  have hvalue := sound_value hqualifier h.rule
  unfold Appended.parts
  simp only
  split
  · exact allSound_cons (.text hpad) (allSound_singleton
      (sound_fieldInstruction hnamespace hpad hvalue h.field))
  · rename_i parent hparent
    have hwritable := h.parent parent hparent
    have hfield := sound_fieldInstruction hnamespace hdeeper hvalue h.field
    have hfilter := allSound_filterInstruction hdeeper hwritable
    refine allSound_cons (.text hpad) (allSound_singleton ?_)
    exact sound_elementInstruction hnamespace hwritable
      ((hfilter.append (allSound_line hdeeper hfield)).framed isLegal_break hpad)

/-- A template that copies what it matches, with parts after everything that it holds. -/
theorem sound_copyingTemplate {pattern : Given} (hpattern : pattern.Sound) {appended : List Part}
    (happended : AllSound appended) :
    (Part.element "xsl:template" [pattern]
      [.text "\n    ",
       .element "xsl:copy" [] ([.text "\n      ", applyTemplates] ++ appended ++ [.text "\n    "]),
       .text "\n  "]).Sound := by
  have hselect : (plain "select" "@*|node()").Sound := sound_plain (by decide) (by decide)
  have happly : applyTemplates.Sound :=
    .single (by decide) (List.forall_mem_singleton.2 hselect) (by simp)
  have hcopied : AllSound ([.text "\n      ", applyTemplates] ++ appended ++ [.text "\n    "]) :=
    (allSound_cons happly happended).framed (by decide) (by decide)
  have hcopy : (Part.element "xsl:copy" []
      ([.text "\n      ", applyTemplates] ++ appended ++ [.text "\n    "])).Sound :=
    .element (by decide) (fun _ ha => (nomatch ha)) List.nodup_nil hcopied
  exact sound_element_one (by decide) hpattern
    ((allSound_singleton hcopy).framed (by decide) (by decide))

theorem sound_identityTemplate : identityTemplate.Sound :=
  sound_copyingTemplate (sound_plain (by decide) (by decide)) allSound_nil

/-- The template of a group is sound. -/
theorem sound_overrideTemplate (hqualifier : IsLegal qualifier.toList)
    (hnamespace : IsLegal namespaceUri.toList) {steps : List Segment} {members : List Appended}
    (hsteps : ∀ step ∈ steps, step.Writable)
    (hmembers : ∀ a ∈ members, a.Within Segment.Writable fun rule => rule.source.IsLegal) :
    (overrideTemplate qualifier namespaceUri steps members).Sound := by
  have happended : AllSound (members.flatMap fun a =>
      .text "\n" :: a.parts qualifier namespaceUri) :=
    allSound_flatMap fun a ha =>
      allSound_cons (.text isLegal_break) (allSound_parts hqualifier hnamespace (hmembers a ha))
  have hpattern := sound_quoted (show IsName "match".toList by decide)
    (XPath.isLegal_pattern hqualifier hsteps)
  exact sound_copyingTemplate hpattern happended

theorem allSound_overrideTemplates (hqualifier : IsLegal qualifier.toList)
    (hnamespace : IsLegal namespaceUri.toList)
    {groups : List (List Segment × List Appended)}
    (h : GroupsWithin Segment.Writable (fun rule => rule.source.IsLegal) groups) :
    AllSound (overrideTemplates qualifier namespaceUri groups) := by
  unfold overrideTemplates
  simp only
  split
  · exact allSound_nil
  · rename_i first rest heq
    have htemplates : AllSound (first :: rest) := by
      rw [← heq]
      intro p hp
      obtain ⟨g, hg, rfl⟩ := List.mem_map.1 hp
      exact sound_overrideTemplate hqualifier hnamespace (h g hg).1 (h g hg).2
    obtain ⟨hfirst, hrest⟩ := List.forall_mem_cons.1 htemplates
    refine allSound_cons (.text (by decide)) (allSound_cons hfirst ?_)
    refine allSound_flatMap fun p hp => ?_
    exact allSound_cons (.text (by decide)) (allSound_singleton (hrest p hp))

/-! ### The document -/

/-- The templates of both sorts of stylesheets are sound. -/
theorem Writable.allSound_templates {s : Stylesheet} (h : s.Writable) :
    AllSound (templates s) := by
  have hqualifier : IsLegal s.qualifier.toList := h.qualifier.1.isLegal
  unfold templates
  split
  · have hgroups := within_grouped s.rules h.sources fun r hr => h.step hr
    have hoverrides := allSound_overrideTemplates hqualifier h.namespaceUri hgroups
    have hidentity : (Part.comment " Identity transform: copy everything ").Sound :=
      sound_comment (by decide) (by decide) (by decide)
    have happend : (Part.comment " Append mapped elements ").Sound :=
      sound_comment (by decide) (by decide) (by decide)
    refine AllSound.append ?_ hoverrides
    exact allSound_cons hidentity (allSound_cons (.text (by decide))
      (allSound_cons sound_identityTemplate (allSound_cons (.text (by decide))
        (allSound_singleton happend))))
  · have htree := Level.within_ofRules s.rules h.sources fun r hr => h.step hr
    exact allSound_singleton (sound_rebuildingTemplate hqualifier htree)

theorem isName_declared {qualifier : String} (h : IsName qualifier.toList) :
    IsName ("xmlns:" ++ qualifier).toList := by
  obtain ⟨first, rest, heq, hfirst, hinner⟩ := h
  have hlead : ∀ c ∈ "mlns:".toList, isNameChar c = true := List.all_eq_true.1 (by decide)
  refine ⟨'x', "mlns:".toList ++ qualifier.toList, by simp [String.toList_append], by decide, ?_⟩
  intro c hc
  rcases List.mem_append.1 hc with hc | hc
  · exact hlead c hc
  · rw [heq] at hc
    rcases List.mem_cons.1 hc with rfl | hc
    · exact isNameChar_of_isNameStart hfirst
    · exact hinner c hc

/-- An attribute on a line of its own. -/
theorem sound_onLine {name value : String} {quoting : Quoting} (hname : IsName name.toList)
    (hvalue : IsLegal value.toList)
    (hplain : quoting = .plain → IsPlainValue value.toList) :
    (Given.mk name value quoting "\n  ").Sound where
  gap_ne := by simp
  gap_blank := by simp
  name := hname
  legal := hvalue
  plain := hplain

/-- The attributes of the outermost element are sound, and their names differ. -/
theorem Writable.sound_rootAttributes {s : Stylesheet} (h : s.Writable) :
    (∀ a ∈ rootAttributes s, a.Sound) ∧ ((rootAttributes s).map Given.name).Nodup := by
  constructor
  · have hversion : (plain "version" "1.0").Sound := sound_plain (by decide) (by decide)
    have hxsl : (Given.mk "xmlns:xsl" "http://www.w3.org/1999/XSL/Transform" .plain
        "\n  ").Sound := sound_onLine (by decide) (by decide) (fun _ => by decide)
    have hown : (Given.mk ("xmlns:" ++ s.qualifier) s.namespaceUri .namespaceUri "\n  ").Sound :=
      sound_onLine (isName_declared h.qualifier.1) h.namespaceUri (fun hplain => nomatch hplain)
    have hexclude : (Given.mk "exclude-result-prefixes" s.qualifier .plain "\n  ").Sound :=
      sound_onLine (by decide) h.qualifier.1.isLegal (fun _ => h.qualifier.1.isPlainValue)
    simp only [rootAttributes, List.forall_mem_cons]
    exact ⟨hversion, hxsl, hown, hexclude, fun _ ha => nomatch ha⟩
  · have hversion : "xmlns:" ++ s.qualifier ≠ "version" := by
      intro heq
      have hchars := congrArg String.toList heq
      simp [String.toList_append] at hchars
    have hown : "xmlns:" ++ s.qualifier ≠ "xmlns:xsl" := by
      intro heq
      have hchars := congrArg String.toList heq
      have hsame : "xmlns:".toList ++ s.qualifier.toList = "xmlns:".toList ++ "xsl".toList := by
        rw [← String.toList_append]
        exact hchars
      exact h.qualifier_ne (String.toList_injective (List.append_cancel_left hsame))
    have hexclude : "xmlns:" ++ s.qualifier ≠ "exclude-result-prefixes" := by
      intro heq
      have hchars := congrArg String.toList heq
      simp [String.toList_append] at hchars
    simp [rootAttributes, plain, hversion.symm, hown.symm, hexclude]

theorem isMisc_notesComment {notes : String} (h : IsLegal notes.toList) :
    IsMisc (Part.charsOf (notesComment notes)) := by
  unfold notesComment
  split
  · exact .nil
  · cases sound_notes h with
    | comment hlegal hpairs hlast =>
      exact .comment (isComment_comment hlegal hpairs hlast) (.blank (by decide) .nil)

/-- **Stylesheets are well-formed.**  The text of a stylesheet is a well-formed document whose
outermost element is `xsl:stylesheet`. -/
theorem isDocument_text {s : Stylesheet} (h : s.Writable) :
    IsDocument "xsl:stylesheet".toList s.text.toList := by
  obtain ⟨hattributes, hdistinct⟩ := h.sound_rootAttributes
  have houtput : outputDeclaration.Sound := by
    refine .single (by decide) ?_ (by decide)
    refine List.forall_mem_cons.2 ⟨sound_plain (by decide) (by decide), ?_⟩
    refine List.forall_mem_cons.2 ⟨sound_plain (by decide) (by decide), ?_⟩
    exact List.forall_mem_singleton.2 (sound_plain (by decide) (by decide))
  have hgap : (Part.text "\n\n  ").Sound := .text (by decide)
  have hcontent : AllSound ([.text "\n  ", outputDeclaration, .text "\n\n  "] ++ templates s
      ++ [.text "\n"]) :=
    (allSound_cons houtput (allSound_cons hgap h.allSound_templates)).framed (by decide)
      isLegal_break
  have hname : IsName "xsl:stylesheet".toList := by decide
  have hroot := isElement_element (.element hname hattributes hdistinct hcontent)
  have hbefore : IsMisc ('\n' :: Part.charsOf (notesComment s.notes)) :=
    .blank (by decide) (isMisc_notesComment h.notes)
  have hafter : IsMisc ['\n'] := .blank (by decide) .nil
  have hfirst : "<?xml version=\"1.0\" encoding=\"UTF-8\"?>\n".toList
      = declaration ++ ['\n'] := by decide
  have hlast : (Part.text "\n").chars = ['\n'] := by decide
  refine ⟨_, _, _, ?_, hbefore, hroot, hafter⟩
  unfold Stylesheet.text
  rw [String.toList_append, hfirst, String.toList_ofList, document, Part.charsOf_append,
    Part.charsOf, Part.charsOf, Part.charsOf, hlast]
  simp only [List.append_assoc, List.cons_append, List.nil_append, List.append_nil]

/-- Stylesheets of both sorts with a filter, an attribute, quotes, brackets and hyphens. -/
theorem isDocument_text_with_escapes :
    let s : Stylesheet :=
      ⟨"a --- b", false, "urn:\"x\"&'y'", "ns",
        [⟨"1", "Doc.Item[@kind='a<\"b\"'].@_id", .constant "<&>]]>"⟩,
         ⟨"2", "Doc.Item[@kind='a<\"b\"'].Text", .direct "In.A[x<'1'].0.@_b"⟩]⟩
    s.Writable ∧ IsDocument "xsl:stylesheet".toList s.text.toList ∧
      IsDocument "xsl:stylesheet".toList { s with copiesInput := true }.text.toList := by
  intro s
  have hsteps : ∀ r ∈ s.rules, ∀ step ∈ Path.segments r.outputPath,
      step.name?.all (fun name => IsPlainName name.toList) = true ∧
        step.filter?.all (fun f =>
          decide (IsPlainName f.name.toList ∧ IsLegal f.value.toList)) = true := by decide +kernel
  have hwritable : s.Writable := by
    refine ⟨?_, ?_, ?_, by decide, by decide, by decide, by decide⟩
    · intro r hr step hstep name hname
      have hall := (hsteps r hr step hstep).1
      rw [hname] at hall
      exact of_decide_eq_true hall
    · intro r hr step hstep f hf
      have hall := (hsteps r hr step hstep).2
      rw [hf] at hall
      exact of_decide_eq_true hall
    · have hconstant : IsLegal "<&>]]>".toList := by decide
      have hpath : IsLegal "In.A[x<'1'].0.@_b".toList := by decide
      exact List.forall_mem_cons.2 ⟨hconstant, List.forall_mem_singleton.2 hpath⟩
  have hcopying : Writable { s with copiesInput := true } :=
    ⟨hwritable.names, hwritable.filters, hwritable.sources, hwritable.qualifier,
      hwritable.qualifier_ne, hwritable.notes, hwritable.namespaceUri⟩
  exact ⟨hwritable, isDocument_text hwritable, isDocument_text hcopying⟩

end Crosswalk.Stylesheet
