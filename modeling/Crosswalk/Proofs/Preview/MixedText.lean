import Crosswalk.Proofs.Document.ElementFields
import Crosswalk.Proofs.Preview.Suggestions

/-!
# Text beside attributes and children

The text of an element that has attributes or child elements is a field of its own in the value of
the document, and so a node of its own in the schema.  But a search in the markup takes the last
piece of the path of that node for the name of a child element, which no element can have.  So the
text that the node offers is never found there.  It is found at the path of the node above, if it
stands at the front of the element.

* `exists_text_of_ownText_ne` : the text of an element has a run that is not blank.
* `followMarkup?_textKey` : no step leads to the text.
* `exists_owner_of_text` : a text node stands below the node of an element that has a text.
* `findText?_mixed_text` : where the text of a text node is found, and where it is not.
-/

namespace Crosswalk

namespace Document

open Markup

/-- The text of an element has a run that is not blank, unless it is empty. -/
theorem exists_text_of_ownText_ne {children : List Node} (h : ownText children ≠ "") :
    ∃ s, Node.text s ∈ children ∧ Text.isBlankText s = false := by
  refine Classical.byContradiction fun hnone => h ?_
  have hruns : ∀ s ∈ (children.filterMap Node.text?).map Text.trim, s = "" := by
    intro trimmed htrimmed
    obtain ⟨s, hs, rfl⟩ := List.mem_map.1 htrimmed
    obtain ⟨n, hn, htext⟩ := List.mem_filterMap.1 hs
    have hblank : Text.isBlankText s = true := by
      cases n with
      | text content =>
        obtain rfl : content = s := Option.some.inj htext
        rw [← Bool.not_eq_false]
        exact fun hsome => hnone ⟨content, hn, hsome⟩
      | _ => cases htext
    rw [Text.trim, (Text.trimChars_eq_nil_iff s.toList).2 hblank]
  apply String.toList_injective
  rw [ownText, String.toList_join]
  exact List.flatMap_eq_nil_iff.2 fun s hs => by rw [hruns s hs]; rfl

/-- **An element with a text field** has a text. -/
theorem ownText_ne_of_textKey {e : Element} (hnames : ∀ c ∈ e.elements, IsName c.name.base.toList)
    {v : Json.Value} (h : (textKey, v) ∈ Schema.childFields (elementValue e)) :
    ownText e.children ≠ "" := by
  have hname : ∀ fields, (textKey, v) ∈ fields → textKey ∈ Fields.names fields :=
    fun fields hmem => List.mem_map_of_mem hmem
  intro hempty
  rw [elementValue_eq, hempty] at h
  split at h
  · rw [childFields_scalarOfText] at h
    cases h
  · exact textKey_not_mem_names hnames (hname _ h)

end Document

namespace Preview

open Markup Document
open Schema (Origin childFields topFields)

/-- **No step leads to the text** of an element: no child element has its name. -/
theorem followMarkup?_textKey {root : Name} {c : Element}
    (hnames : ∀ x ∈ c.elements, IsName x.name.base.toList) :
    followMarkup? root false [Segment.ofText textKey] c = none := by
  have hstep : Segment.ofText textKey = .element textKey none := by decide
  have hchildren : childrenNamed root.space textKey c = [] := by
    refine List.eq_nil_iff_forall_not_mem.2 fun x hx => ?_
    obtain ⟨hchild, hbase⟩ := mem_childrenNamed hx
    exact textKey_ne_of_isName (hnames x hchild) hbase.symm
  rw [hstep, followMarkup?_name (by decide), hchildren]
  rfl

/-- The node that is inferred for a field of an element is a text node only if the field is the
text. -/
theorem eq_textKey_of_name {c : Element} (hregular : c.IsRegular)
    (hnames : ∀ x ∈ c.elements, IsName x.name.base.toList) {key : String} {v : Json.Value}
    (h : IsField c key v) (hname : Schema.shownName key = textKey) : key = textKey := by
  cases h with
  | @ofAttribute a ha =>
    have hbase : a.name.base = textKey := (Schema.shownName_attributeKey _).symm.trans hname
    exact absurd hbase.symm (textKey_ne_of_isName (hregular.attribute_names a ha))
  | @ofChildren _ x others _ hnamed _ =>
    obtain ⟨helement, rfl⟩ := Element.of_named_eq_cons hnamed
    exact (Schema.shownName_of_isName (hnames x helement)).symm.trans hname
  | ofText => rfl

/-- **The owner of a text node**: the node stands below that of an element which has a text, and no
more than the path of that element leads to it. -/
theorem exists_owner_of_text {root : Element} (hregular : ∀ x ∈ root.inside, x.IsRegular)
    (hdots : root.HasUndividedNames) {n : Schema.Node}
    (hn : n ∈ Schema.preorder (Schema.infer (valueOfRoot root))) (hname : n.name = textKey) :
    ∃ p ∈ Schema.preorder (Schema.infer (valueOfRoot root)), n ∈ p.children ∧
      n.path = Schema.childPath p.path textKey ∧
      ∃ bases c, reached? bases root = some c ∧ ownText c.children ≠ "" ∧
        Path.split p.path = root.name.base :: bases ∧
        Path.split n.path = root.name.base :: (bases ++ [textKey]) := by
  rw [Schema.infer_eq] at hn ⊢
  obtain ⟨keys, v, horigin⟩ := Schema.mem_preorder_nodesOf.1 hn
  have hlength : 1 < keys.length := by
    rcases origin_valueOfRoot hregular horigin with ⟨rfl, -, hnode⟩ | ⟨bases, key, _, _, rfl, -⟩
    · have hroot : IsName root.name.base.toList := (hregular root root.self_mem_inside).name
      rw [hnode, Schema.nodeOf_name, Schema.shownName_of_isName hroot] at hname
      exact absurd hname.symm (textKey_ne_of_isName hroot)
    · simp
  obtain ⟨above, key, p, w, rfl, hp, hfield, rfl⟩ := horigin.exists_parent hlength
  obtain ⟨bases, c, rfl, hreached, hfields⟩ :=
    exists_element_of_origin hregular hp (List.ne_nil_of_mem hfield)
  have hinside : c ∈ root.inside := (mem_inside_of_reached? hreached).1
  have hnames := isName_of_inside hregular hinside
  have hisField : IsField c key v := isField_of_mem hnames (hfields ▸ hfield)
  rw [Schema.nodeOf_name] at hname
  obtain rfl : key = textKey := eq_textKey_of_name (hregular c hinside) hnames hisField hname
  have hpieces := isPlainPiece_of_reached? hregular hdots hreached hisField
  refine ⟨p, Schema.mem_preorder_nodesOf.2 ⟨_, _, hp⟩, ?_, Schema.nodeOf_path _ _ _, bases, c,
    hreached, ?_, ?_, ?_⟩
  · rw [hp.children_eq]
    exact Schema.mem_nodesOf.2 ⟨_, hfield, rfl⟩
  · exact ownText_ne_of_textKey hnames (hfields ▸ hfield)
  · exact hp.split_path fun k hk => hpieces k (List.mem_append_left _ hk)
  · exact horigin.split_path hpieces

/-- **Where the text of a text node is found.**  A search never finds it at the path of the node.  The
node above is that of an element with a run of text that is not blank, and there a search finds what
stands at the front of the element that it comes to, which is the same one if its way is open. -/
theorem findText?_mixed_text {text : String} {root : Element} (h : Element.read text = .ok root)
    (hspace : root.InOneSpace) (hdots : root.HasUndividedNames) :
    ∀ n ∈ Schema.preorder (Schema.infer (valueOfRoot root)), n.name = textKey →
      findText? n.path root = none ∧
        ∃ p ∈ Schema.preorder (Schema.infer (valueOfRoot root)), n ∈ p.children ∧
          n.path = Schema.childPath p.path textKey ∧
          ∃ names, ∃ c ∈ root.inside, reached? names root = some c ∧
            (∃ s, Node.text s ∈ c.children ∧ Text.isBlankText s = false) ∧
            findText? p.path root
              = (seen? root.name.space names root).bind Element.leadingText? ∧
            ((root.name.namespace? = none → IsOpenWay root names) →
              findText? p.path root = c.leadingText?) := by
  have hregular : ∀ x ∈ root.inside, x.IsRegular := isRegular_of_read h
  have hroot : IsName root.name.base.toList := (hregular root root.self_mem_inside).name
  intro n hn hname
  obtain ⟨p, hp, hchild, hpath, names, c, hreached, htext, hsplit, hsplitText⟩ :=
    exists_owner_of_text hregular hdots hn hname
  have hinside : c ∈ root.inside := (mem_inside_of_reached? hreached).1
  have hnames := isName_of_reached? hregular hreached
  rw [← List.append_nil names] at hsplit
  have hfound : findText? p.path root
      = (seen? root.name.space names root).bind Element.leadingText? :=
    findText?_of_seen hroot hsplit hnames
  refine ⟨?_, p, hp, hchild, hpath, names, c, hinside, hreached, exists_text_of_ownText_ne htext,
    hfound, fun hnone => ?_⟩
  · rw [findText?_of_seen hroot hsplitText hnames, Option.bind_eq_none_iff]
    intro x hx
    exact followMarkup?_textKey (isName_of_inside hregular (mem_inside_of_seen? hx))
  · rw [hfound, (isOpenWay_of_inOneSpace hspace hnone).seen?_eq hreached, Option.bind_some]

/-! ### An element with an attribute and a text -/

/-- A document whose element has a text beside its attribute. -/
def mixedSample : Element := ⟨⟨none, "r"⟩, [⟨⟨none, "a"⟩, "1"⟩], [.text "x"]⟩

theorem read_mixedSample : Element.read "<r a=\"1\">x</r>" = .ok mixedSample := by
  with_unfolding_all rfl

/-- The node for the text. -/
def sampleText : Schema.Node := ⟨"#text", "r.#text", .string, [], false⟩

theorem infer_mixedSample :
    Schema.infer (valueOfRoot mixedSample)
      = [⟨"r", "r", .object, [⟨"a", "r.@_a", .string, [], true⟩, sampleText], false⟩] := by
  have hkey : attributeKey "a" = "@_a" := by decide
  have htrim : Text.trim "x" = "x" := by with_unfolding_all rfl
  have hscalar : scalarOfText "x" = .string "x" := by with_unfolding_all rfl
  have hvalue : valueOfRoot mixedSample
      = .object [("r", .object [("@_a", .string "1"), ("#text", .string "x")])] := by
    simp [mixedSample, valueOfRoot, elementValue, childValues, assembled, attributeFields, ownText,
      textKey, Fields.put, Node.text?, List.filterMap, String.join, hkey, htrim,
      hscalar]
  rw [hvalue]
  with_unfolding_all rfl

theorem sampleText_mem :
    sampleText ∈ Schema.preorder (Schema.infer (valueOfRoot mixedSample)) := by
  rw [infer_mixedSample]
  simp [Schema.preorder, Schema.Node.preorder_eq]

/-- The text that a node offers is lost, though nothing stands before it in its element. -/
theorem mixed_text_lost :
    ∃ root, Element.read "<r a=\"1\">x</r>" = .ok root ∧
      (root.InOneSpace ∧ root.HasUndividedNames ∧ root.HasNoAsides) ∧ root.children = [.text "x"] ∧
      ∃ n ∈ Schema.preorder (Schema.infer (valueOfRoot root)), n.name = textKey ∧
        n.path = "r.#text" ∧ findText? n.path root = none :=
  ⟨mixedSample, read_mixedSample, by decide +kernel, rfl, sampleText, sampleText_mem, rfl, rfl,
    by decide +kernel⟩

/-- The text is found at the path of its element. -/
theorem findText?_mixed_text_above :
    ∃ root, ∃ n p : Schema.Node, Element.read "<r a=\"1\">x</r>" = .ok root ∧
      n ∈ Schema.preorder (Schema.infer (valueOfRoot root)) ∧ n.name = textKey ∧ n ∈ p.children ∧
      findText? n.path root = none ∧ findText? p.path root = some "x" := by
  obtain ⟨hnone, p, -, hchild, -, names, c, hc, -, -, -, hfound⟩ :=
    findText?_mixed_text read_mixedSample (by decide +kernel) (by decide +kernel) sampleText
      sampleText_mem rfl
  have hinside : mixedSample.inside = [mixedSample] := rfl
  have hopen : IsOpenWay mixedSample names := isOpenWay_of_same (by decide +kernel) names
  rw [hinside, List.mem_singleton] at hc
  rw [hc] at hfound
  exact ⟨mixedSample, sampleText, p, read_mixedSample, sampleText_mem, rfl, hchild, hnone,
    hfound fun _ => hopen⟩

end Preview

end Crosswalk
