import Crosswalk.Proofs.Path.Filtering
import Crosswalk.Proofs.Preview.MarkupPaths
import Crosswalk.Proofs.Schema.Ancestry

/-!
# Following a suggestion

A filter can ask for the attributes that stand beside a field.  They belong to the element that the
field stands in, and on the path of an attribute the filter goes on that element too, so asking for
the value that is there finds what was found without the filter.  On the path of a child element
the filter goes on the child: what is found is the first child that has the attribute itself.  The
elements are those that a search comes to, which are those of the document if the way is open.

* `exists_element_of_origin` : the element that a node with fields comes from.
* `exists_owner_of_origin` : the element that a node stands in, and the suggestions for the node.
* `findText?_filtered_owner`, `findText?_filtered_child` : a search with a filter.
* `findText?_suggested` : what is found when a suggestion is followed.
-/

namespace Crosswalk

namespace Document

open Markup

/-- No two fields of an element have the same name. -/
theorem nodup_names_childFields (e : Element) :
    (Fields.names (Schema.childFields (elementValue e))).Nodup := by
  rw [elementValue_eq]
  split
  · rw [childFields_scalarOfText]
    exact List.nodup_nil
  · split
    · exact nodup_names_elementFields e
    · exact Fields.nodup_names_put _ _ (nodup_names_elementFields e)

end Document

namespace Preview

open Markup Document
open Schema (Origin childFields topFields)

/-! ### Nodes and elements -/

/-- Whether some fields are those of an element in a document, or of the document, or none at all. -/
def AreFieldsIn (root : Element) (fields : Fields Json.Value) : Prop :=
  fields = topFields (valueOfRoot root) ∨ fields = [] ∨
    ∃ e ∈ root.inside, fields = childFields (elementValue e)

/-- The fields below those of an element are those of an element again. -/
theorem areFieldsIn_childFields {root : Element} (hregular : ∀ x ∈ root.inside, x.IsRegular)
    {fields : Fields Json.Value} (h : AreFieldsIn root fields) :
    (Fields.names fields).Nodup ∧ ∀ f ∈ fields, AreFieldsIn root (childFields f.2) := by
  rcases h with rfl | rfl | ⟨e, he, rfl⟩
  · refine ⟨List.nodup_singleton _, ?_⟩
    intro f hf
    obtain rfl := List.mem_singleton.1 hf
    exact Or.inr (Or.inr ⟨root, root.self_mem_inside, rfl⟩)
  · exact ⟨List.nodup_nil, fun f hf => nomatch hf⟩
  · refine ⟨nodup_names_childFields e, ?_⟩
    intro f hf
    have hnames := isName_of_inside hregular he
    obtain ⟨key, v⟩ := f
    cases isField_of_mem hnames hf with
    | ofAttribute => exact Or.inr (Or.inl rfl)
    | ofText => exact Or.inr (Or.inl (childFields_scalarOfText _))
    | @ofChildren _ x others _ hnamed hgroup =>
      have hx : x ∈ root.inside := Element.mem_inside_trans he
        (Element.mem_inside_of_mem_elements (Element.of_named_eq_cons hnamed).1)
      exact Or.inr (Or.inr ⟨x, hx, childFields_of_grouped (isSingle_elementValue x) hgroup⟩)

/-- **The element of a node** that has fields: its keys lead there, and the fields are those of the
element. -/
theorem exists_element_of_origin {root : Element} (hregular : ∀ x ∈ root.inside, x.IsRegular)
    {keys : List String} {p : Schema.Node} {w : Json.Value}
    (h : Origin "" (topFields (valueOfRoot root)) keys p w) (hfields : childFields w ≠ []) :
    ∃ bases c, keys = root.name.base :: bases ∧ reached? bases root = some c ∧
      childFields w = childFields (elementValue c) := by
  rcases origin_valueOfRoot hregular h with
    ⟨rfl, rfl, -⟩ | ⟨bases, key, above, e, rfl, -, hreached, hfield⟩
  · exact ⟨[], root, rfl, rfl, rfl⟩
  · cases hfield with
    | ofAttribute => exact absurd rfl hfields
    | ofText => exact absurd (childFields_scalarOfText _) hfields
    | @ofChildren _ x others _ hnamed hgroup =>
      refine ⟨bases ++ [key], x, rfl, ?_, childFields_of_grouped (isSingle_elementValue x) hgroup⟩
      rw [reached?_append, hreached, Option.bind_some, reached?, hnamed]
      rfl

/-- The attributes that a schema knows below an element are those of the element. -/
theorem exists_attribute_of_mem {c : Element} (hnames : ∀ x ∈ c.elements, IsName x.name.base.toList)
    {parent s : String}
    (h : s ∈ Schema.attributeNames (Schema.nodesOf parent (childFields (elementValue c)))) :
    ∃ a ∈ c.attributes, a.name.base = s := by
  obtain ⟨n, hn, rfl⟩ := List.mem_map.1 h
  obtain ⟨hmem, hattribute⟩ := List.mem_filter.1 hn
  obtain ⟨⟨key, v⟩, hfield, rfl⟩ := Schema.mem_nodesOf.1 hmem
  rw [Schema.nodeOf_isAttribute] at hattribute
  rw [Schema.nodeOf_name]
  cases isField_of_mem hnames hfield with
  | @ofAttribute a ha =>
    exact ⟨a, ha, (Schema.shownName_attributeKey a.name.base).symm⟩
  | @ofChildren _ x others _ hnamed _ =>
    obtain ⟨helement, rfl⟩ := Element.of_named_eq_cons hnamed
    rw [Path.isAttributePiece_of_isName (hnames x helement)] at hattribute
    cases hattribute
  | ofText =>
    have hnot : Path.isAttributePiece textKey = false := by decide
    rw [hnot] at hattribute
    cases hattribute

/-! ### A search with a filter -/

/-- A step with a filter leads to the first child that passes, of those that a search takes for its
name. -/
theorem followMarkup?_filtered {root : Name} {f : Filter} (hf : f.Spellable) (base : String)
    (rest : List Segment) (e : Element) :
    followMarkup? root false (.element base (some f.text) :: rest) e
      = ((childrenNamed root.space base e).find? (passes f)).bind
          (followMarkup? root false rest) := by
  have hread : Filter.read? f.text = some f := by
    rw [Filter.read?, Filter.read_text hf]
    rfl
  rw [followMarkup?]
  simp only [Option.isNone_some, Bool.false_and, Bool.false_eq_true, if_false, Option.bind_some,
    hread]
  cases (childrenNamed root.space base e).find? (passes f) with
  | none => rfl
  | some next => rfl

section Filtered

variable {root : Element} {path key : String} {bases : List String} {f : Filter}

/-- **On the path of an attribute** a filter that its owner passes makes no difference. -/
theorem findText?_filtered_owner (hroot : IsName root.name.base.toList)
    (hbases : ∀ base ∈ bases, IsName base.toList) (hne : bases ≠ [])
    (hkey : Path.isAttributePiece key = true)
    (hpath : Path.split path = root.name.base :: (bases ++ [key])) (hf : f.Spellable)
    (hvalue : ∀ ch ∈ f.value.toList, ch ≠ '[' ∧ ch ≠ ']')
    (hpasses : ∀ c, seen? root.name.space bases root = some c → passes f c = true) :
    findText? (Path.splice path f.text).1 root = findText? path root := by
  obtain ⟨above, base, rfl⟩ := (List.eq_nil_or_concat' bases).resolve_left hne
  have habove : ∀ b ∈ above, IsName b.toList :=
    fun b hb => hbases b (List.mem_append_left _ hb)
  have hbase : IsName base.toList := hbases base (List.mem_append_right _ List.mem_cons_self)
  have hpieces : Path.split path = (root.name.base :: above) ++ [base, key] := by
    rw [hpath, List.append_assoc]
    rfl
  have htarget : Path.target? (Path.split path) = some (root.name.base :: above, base, [key]) := by
    rw [hpieces]
    exact Path.target?_attribute hkey _ base
  have hopen : '[' ∉ base.toList := not_mem_of_isName hbase (by decide)
  have hsplit := Path.split_splice_text hf hvalue htarget hopen
  rw [List.cons_append] at hsplit hpieces
  rw [findText?_of_seen hroot hsplit habove, findText?_of_seen hroot hpieces habove]
  simp only [List.map_cons, List.map_nil]
  rw [Segment.ofText_filtered hbase, Segment.ofText_of_isName hbase]
  cases he : seen? root.name.space above root with
  | none => rfl
  | some e =>
    have hfirst : (childrenNamed root.name.space base e).find? (passes f)
        = (childrenNamed root.name.space base e).head? := by
      cases hchildren : childrenNamed root.name.space base e with
      | nil => rfl
      | cons x others =>
        refine List.find?_cons_of_pos (hpasses x ?_)
        rw [seen?_append, he, Option.bind_some, seen?, hchildren]
        rfl
    rw [Option.bind_some, Option.bind_some, followMarkup?_filtered hf, hfirst,
      followMarkup?_name (Segment.isDigits_of_isName hbase)]

/-- **On the path of a child** a filter asks for the attribute of the child. -/
theorem findText?_filtered_child (hroot : IsName root.name.base.toList)
    (hbases : ∀ base ∈ bases, IsName base.toList) (hkey : IsName key.toList)
    (hpath : Path.split path = root.name.base :: (bases ++ [key])) (hf : f.Spellable)
    (hvalue : ∀ ch ∈ f.value.toList, ch ≠ '[' ∧ ch ≠ ']') :
    findText? (Path.splice path f.text).1 root
      = (seen? root.name.space bases root).bind (fun c =>
          ((childrenNamed root.name.space key c).find? (passes f)).bind Element.leadingText?) := by
  have htarget : Path.target? (Path.split path) = some (root.name.base :: bases, key, []) := by
    rw [hpath, ← List.cons_append]
    exact Path.target?_element (Path.isAttributePiece_of_isName hkey) _
  have hopen : '[' ∉ key.toList := not_mem_of_isName hkey (by decide)
  have hsplit := Path.split_splice_text hf hvalue htarget hopen
  rw [List.cons_append] at hsplit
  have hstep : followMarkup? root.name false [.element key (some f.text)]
      = fun c => ((childrenNamed root.name.space key c).find? (passes f)).bind
          Element.leadingText? := by
    funext c
    rw [followMarkup?_filtered hf, followMarkup?_nil]
  rw [findText?_of_seen hroot hsplit hbases, List.map_singleton, Segment.ofText_filtered hkey, hstep]

end Filtered

/-! ### Suggestions -/

/-- **The owner of a node** that is not an outermost one: the element that all keys but the last lead
to.  The node stands for one of its fields, and the suggestions are its attributes. -/
theorem exists_owner_of_origin {root : Element} (hregular : ∀ x ∈ root.inside, x.IsRegular)
    (hdots : root.HasUndividedNames) {keys : List String} {n : Schema.Node} {v : Json.Value}
    (h : Origin "" (topFields (valueOfRoot root)) keys n v) (hlength : 1 < keys.length) :
    ∃ bases key above c, keys = root.name.base :: (bases ++ [key]) ∧
      n = Schema.nodeOf above key v ∧ reached? bases root = some c ∧ IsField c key v ∧
      Path.split n.path = keys ∧
      Schema.suggestions (Schema.nodesOf "" (topFields (valueOfRoot root))) n.path
        = Schema.attributeNames (Schema.nodesOf above (childFields (elementValue c))) := by
  obtain ⟨before, key, p, w, rfl, hp, hfield, hnode⟩ := h.exists_parent hlength
  obtain ⟨bases, c, rfl, hreached, hfields⟩ :=
    exists_element_of_origin hregular hp (List.ne_nil_of_mem hfield)
  have hinside : c ∈ root.inside := (mem_inside_of_reached? hreached).1
  have hnames := isName_of_inside hregular hinside
  have hisField : IsField c key v := isField_of_mem hnames (hfields ▸ hfield)
  have hpieces := isPlainPiece_of_reached? hregular hdots hreached hisField
  have hopen : ∀ k ∈ root.name.base :: bases ++ [key], '[' ∉ k.toList :=
    fun k hk => (hpieces k hk).2.2
  have hsplit := h.split_path hpieces
  have hdistinct : ∀ fields, AreFieldsIn root fields →
      (Fields.names fields).Nodup ∧ ∀ f ∈ fields, AreFieldsIn root (childFields f.2) :=
    fun fields hin => areFieldsIn_childFields hregular hin
  obtain ⟨chain, hchain, -⟩ := h.descend hdistinct (Or.inl rfl) hopen
  obtain ⟨way, hway, hlast⟩ := hp.descend hdistinct (Or.inl rfl)
    fun k hk => hopen k (List.mem_append_left _ hk)
  refine ⟨bases, key, p.path, c, rfl, hnode, hreached, hisField, hsplit, ?_⟩
  rw [Schema.suggestions_of_parent hsplit hchain hway hlast, hp.children_eq, hfields]

/-- What is found in a document when a filter is added to the path of a node that stands in the
element which a search comes to by the given names, if it comes to one. -/
structure Follows (root : Element) (bases : List String) (n : Schema.Node) (f : Filter) :
    Prop where
  /-- On the path of an attribute the filter is tested on that element. -/
  ofAttribute : n.isAttribute = true →
    findText? (Path.splice n.path f.text).1 root = findText? n.path root
  /-- On the path of a child element the filter is tested on the children of that name. -/
  ofChild : n.isAttribute = false → (∀ ch ∈ f.name.toList, Filter.isNameChar ch = true) →
    findText? (Path.splice n.path f.text).1 root
      = (seen? root.name.space bases root).bind (fun c =>
          ((childrenNamed root.name.space n.name c).find? (passes f)).bind Element.leadingText?)
  /-- A filter whose name cannot be spelled is not added. -/
  ofRefused : (∃ ch ∈ f.name.toList, Filter.isNameChar ch = false) →
    findText? (Path.splice n.path f.text).1 root = findText? n.path root

/-- A filter with the name of an attribute that no filter may have is not added. -/
theorem splice_of_refused {base : String} (hbase : IsName base.toList) (path value : String)
    (hrefused : ∃ ch ∈ base.toList, Filter.isNameChar ch = false) :
    (Path.splice path (Filter.text ⟨base, value⟩)).1 = path := by
  have hchars : ∀ ch ∈ base.toList, ch ≠ '=' ∧ ch.isWhitespace = false := by
    intro ch hch
    constructor
    · rintro rfl
      exact not_mem_of_isName hbase (by decide) hch
    · rw [← Bool.not_eq_true]
      intro hblank
      simp only [Char.isWhitespace, Bool.or_eq_true, decide_eq_true_eq] at hblank
      rcases hblank with ((rfl | rfl) | rfl) | rfl
      all_goals exact not_mem_of_isName hbase (by decide) hch
  obtain ⟨fault, hfault⟩ := Filter.read_text_of_refused (f := ⟨base, value⟩) hchars hrefused
  exact Path.splice_of_fault path hfault

/-- A filter that asks for a value can be spelled, if the name and the value can. -/
theorem spellable_of_isName {base value : String} (hbase : IsName base.toList)
    (hspelled : ∀ ch ∈ base.toList, Filter.isNameChar ch = true) (hvalue : value ≠ "")
    (hquote : ∀ ch ∈ value.toList, ch ≠ '\'') : Filter.Spellable ⟨base, value⟩ := by
  refine ⟨?_, hspelled, by simpa using hvalue, ?_⟩
  · intro hnil
    rw [hnil] at hbase
    exact absurd hbase (by decide)
  · intro ch hch
    simpa [Filter.isValueChar] using hquote ch hch

/-- The node for a field that is neither an attribute nor the text has the name of a child. -/
theorem name_of_isField {c : Element} (hnames : ∀ x ∈ c.elements, IsName x.name.base.toList)
    {above key : String} {v : Json.Value} (hfield : IsField c key v)
    (hattribute : Path.isAttributePiece key = false)
    (hname : (Schema.nodeOf above key v).name ≠ textKey) :
    (Schema.nodeOf above key v).name = key ∧ IsName key.toList := by
  have hshown : (Schema.nodeOf above key v).name = key := by
    rw [Schema.nodeOf_name, Schema.shownName, hattribute]
    rfl
  refine ⟨hshown, ?_⟩
  cases hfield with
  | ofAttribute =>
    rw [Path.isAttributePiece_attributeKey] at hattribute
    cases hattribute
  | @ofChildren _ x others _ hnamed _ =>
    obtain ⟨helement, rfl⟩ := Element.of_named_eq_cons hnamed
    exact hnames x helement
  | ofText => exact absurd hshown hname

/-- A filter that asks for an attribute which a search sees on the element that a node stands in. -/
theorem follows_of_seen {root c : Element} (hregular : ∀ x ∈ root.inside, x.IsRegular)
    {bases : List String} (hreached : reached? bases root = some c) (hne : bases ≠ [])
    {above key : String} {v : Json.Value} (hfield : IsField c key v) {n : Schema.Node}
    (hnode : n = Schema.nodeOf above key v) (hname : n.name ≠ textKey)
    (hsplit : Path.split n.path = root.name.base :: (bases ++ [key])) {f : Filter}
    (hfilter : IsName f.name.toList) (hvalue : f.value ≠ "")
    (hchars : ∀ ch ∈ f.value.toList, ch ≠ '\'' ∧ ch ≠ '[' ∧ ch ≠ ']')
    (hseen : ∀ x, seen? root.name.space bases root = some x →
      x.attribute? f.name = some f.value) :
    Follows root bases n f := by
  have hinside : c ∈ root.inside := (mem_inside_of_reached? hreached).1
  have hroot : IsName root.name.base.toList := (hregular root root.self_mem_inside).name
  have hbases := isName_of_reached? hregular hreached
  have hbrackets : ∀ ch ∈ f.value.toList, ch ≠ '[' ∧ ch ≠ ']' := fun ch hch => (hchars ch hch).2
  have hpasses : ∀ x, seen? root.name.space bases root = some x → passes f x = true := by
    intro x hx
    rw [passes, hseen x hx, beq_iff_eq]
  have hspellable : (∀ ch ∈ f.name.toList, Filter.isNameChar ch = true) → f.Spellable :=
    fun hspelled => spellable_of_isName hfilter hspelled hvalue fun ch hch => (hchars ch hch).1
  have hrefused : (∃ ch ∈ f.name.toList, Filter.isNameChar ch = false) →
      findText? (Path.splice n.path f.text).1 root = findText? n.path root := by
    intro hstrange
    rw [splice_of_refused hfilter n.path f.value hstrange]
  refine ⟨?_, ?_, hrefused⟩
  · intro hattribute
    rw [hnode, Schema.nodeOf_isAttribute] at hattribute
    by_cases hspelled : ∀ ch ∈ f.name.toList, Filter.isNameChar ch = true
    · exact findText?_filtered_owner hroot hbases hne hattribute hsplit (hspellable hspelled)
        hbrackets hpasses
    · apply hrefused
      simpa using hspelled
  · intro hattribute hspelled
    rw [hnode, Schema.nodeOf_isAttribute] at hattribute
    rw [hnode] at hname
    obtain ⟨hshown, hkey⟩ := name_of_isField (isName_of_inside hregular hinside) hfield hattribute
      hname
    have hfound := findText?_filtered_child hroot hbases hkey hsplit (hspellable hspelled) hbrackets
    rw [hfound, hnode, hshown]

/-- **Following a suggestion.**  A suggestion for a node below an array is an attribute of the element
that the node stands in, which is the one that a search comes to if its way is open.  A filter that
asks for the value which the search sees there finds for an attribute what was found without the
filter, and for a child element the first child of its name that has this attribute with this value
itself. -/
theorem findText?_suggested {text : String} {root : Element} (h : Element.read text = .ok root)
    (hspace : root.InOneSpace) (hdots : root.HasUndividedNames) :
    ∀ m ∈ Schema.preorder (Schema.infer (valueOfRoot root)), m.kind = .array →
      ∀ n ∈ Schema.preorder m.children, n.name ≠ textKey →
        ∀ s ∈ Schema.suggestions (Schema.infer (valueOfRoot root)) n.path,
          ∃ bases key, Path.split n.path = root.name.base :: (bases ++ [key]) ∧
            (∃ c v, reached? bases root = some c ∧ c.attribute? s = some v ∧
              ((root.name.namespace? = none → IsOpenWay root bases) →
                seen? root.name.space bases root = some c)) ∧
            ∀ v, (∀ c, seen? root.name.space bases root = some c → c.attribute? s = some v) →
              v ≠ "" → (∀ ch ∈ v.toList, ch ≠ '\'' ∧ ch ≠ '[' ∧ ch ≠ ']') →
                Follows root bases n ⟨s, v⟩ := by
  have hregular : ∀ x ∈ root.inside, x.IsRegular := isRegular_of_read h
  intro m hm harray n hn hname s hs
  rw [Schema.infer_eq] at hm hs
  obtain ⟨keys, w, horigin⟩ := Schema.mem_preorder_nodesOf.1 hm
  rw [horigin.children_eq] at hn
  obtain ⟨below, v, hbelow⟩ := Schema.mem_preorder_nodesOf.1 hn
  have hlong : 2 < (keys ++ below).length := by
    have hlast := List.length_pos_iff.2 hbelow.keys_ne_nil
    rw [List.length_append]
    cases horigin with
    | here hfield =>
      -- The outermost element is no array.
      obtain ⟨rfl, rfl⟩ := Prod.mk.inj (List.mem_singleton.1 hfield)
      obtain ⟨items, hitems⟩ := Schema.exists_items_of_kind harray
      exact absurd hitems (isSingle_elementValue root items)
    | inside hfield hinner =>
      have hinnerLength := List.length_pos_iff.2 hinner.keys_ne_nil
      rw [List.length_cons]
      omega
  obtain ⟨bases, key, above, c, hkeys, hnode, hreached, hfield, hsplit, hsuggestions⟩ :=
    exists_owner_of_origin hregular hdots (horigin.trans hbelow) (by omega)
  rw [hkeys] at hsplit hlong
  have hne : bases ≠ [] := by
    rintro rfl
    simp at hlong
  have hinside : c ∈ root.inside := (mem_inside_of_reached? hreached).1
  rw [hsuggestions] at hs
  obtain ⟨a, ha, rfl⟩ := exists_attribute_of_mem (isName_of_inside hregular hinside) hs
  obtain ⟨b, -, -, hvalue⟩ := exists_attribute?_of_mem ha
  refine ⟨bases, key, hsplit, ⟨c, b.value, hreached, hvalue, fun hnone => ?_⟩, ?_⟩
  · exact (isOpenWay_of_inOneSpace hspace hnone).seen?_eq hreached
  · intro asked hseen hsome hchars
    exact follows_of_seen hregular hreached hne hfield hnode hname hsplit
      ((hregular c hinside).attribute_names a ha) hsome hchars hseen

/-! ### Two elements of one name, the first with an attribute and a child -/

/-- A document with a group. -/
def groupSample : Element :=
  ⟨⟨none, "r"⟩, [], [.element ⟨none, "i"⟩ [⟨⟨none, "k"⟩, "1"⟩]
    [.element ⟨none, "c"⟩ [] [.text "a"]], .element ⟨none, "i"⟩ [] []]⟩

theorem read_groupSample :
    Element.read "<r><i k=\"1\"><c>a</c></i><i/></r>" = .ok groupSample := by
  with_unfolding_all rfl

/-- The node for the attribute of the first element. -/
def sampleAttribute : Schema.Node := ⟨"k", "r.i.@_k", .string, [], true⟩

/-- The node for the child of the first element. -/
def sampleChild : Schema.Node := ⟨"c", "r.i.c", .string, [], false⟩

/-- The node for the two elements. -/
def sampleGroup : Schema.Node := ⟨"i", "r.i", .array, [sampleAttribute, sampleChild], false⟩

theorem infer_groupSample :
    Schema.infer (valueOfRoot groupSample) = [⟨"r", "r", .object, [sampleGroup], false⟩] := by
  have hkey : attributeKey "k" = "@_k" := by decide
  have htrim : Text.trim "a" = "a" := by with_unfolding_all rfl
  have hscalar : scalarOfText "a" = .string "a" := by with_unfolding_all rfl
  have hempty : scalarOfText "" = .string "" := by with_unfolding_all rfl
  have hvalue : valueOfRoot groupSample = .object [("r", .object [("i", .array
      [.object [("@_k", .string "1"), ("c", .string "a")], .string ""])])] := by
    simp [groupSample, valueOfRoot, elementValue, childValues, assembled, attributeFields, addChild,
      ownText, Fields.put, Fields.get?, Node.text?, List.filterMap, String.join, hkey, htrim,
      hscalar, hempty]
  rw [hvalue]
  with_unfolding_all rfl

theorem isPlain_groupSample :
    groupSample.InOneSpace ∧ groupSample.HasPlainAttributes ∧ groupSample.HasUndividedNames := by
  decide +kernel

theorem sampleGroup_mem :
    sampleGroup ∈ Schema.preorder (Schema.infer (valueOfRoot groupSample)) := by
  rw [infer_groupSample]
  simp [Schema.preorder, Schema.Node.preorder_eq]

/-- The child of the element that has the suggested attribute is lost: the filter is tested on the
child, which does not have the attribute. -/
theorem suggested_child_lost :
    ∃ root, Element.read "<r><i k=\"1\"><c>a</c></i><i/></r>" = .ok root ∧
      (root.InOneSpace ∧ root.HasPlainAttributes ∧ root.HasUndividedNames) ∧
      ∃ m ∈ Schema.preorder (Schema.infer (valueOfRoot root)), m.kind = .array ∧
        ∃ n ∈ Schema.preorder m.children, n.path = "r.i.c" ∧ n.name ≠ textKey ∧
          "k" ∈ Schema.suggestions (Schema.infer (valueOfRoot root)) n.path ∧
          (reached? ["i"] root).bind (fun c => c.attribute? "k") = some "1" ∧
          findText? n.path root = some "a" ∧
          findText? (Path.splice n.path "@k='1'").1 root = none := by
  have hn : sampleChild ∈ Schema.preorder sampleGroup.children := by
    simp [sampleGroup, Schema.preorder, Schema.Node.preorder_eq]
  refine ⟨groupSample, read_groupSample, isPlain_groupSample, sampleGroup, sampleGroup_mem, rfl,
    sampleChild, hn, rfl, by decide, ?_, ?_, ?_, ?_⟩
  · rw [infer_groupSample]
    decide +kernel
  · decide +kernel
  · decide +kernel
  · decide +kernel

/-- The attribute is found again when its value is asked for. -/
theorem findText?_suggested_attribute :
    ∃ root c n, Element.read "<r><i k=\"1\"><c>a</c></i><i/></r>" = .ok root ∧
      seen? root.name.space ["i"] root = some c ∧ c.attribute? "k" = some "1" ∧
      n.path = "r.i.@_k" ∧ Follows root ["i"] n ⟨"k", "1"⟩ := by
  have hn : sampleAttribute ∈ Schema.preorder sampleGroup.children := by
    simp [sampleGroup, Schema.preorder, Schema.Node.preorder_eq]
  have hs : "k" ∈ Schema.suggestions (Schema.infer (valueOfRoot groupSample))
      sampleAttribute.path := by
    rw [infer_groupSample]
    decide +kernel
  obtain ⟨hspace, -, hdots⟩ := isPlain_groupSample
  obtain ⟨bases, key, hsplit, ⟨c, v, hreached, hvalue, hseen⟩, hfollows⟩ :=
    findText?_suggested read_groupSample hspace hdots _ sampleGroup_mem rfl _ hn (by decide) "k" hs
  have hpieces : Path.split sampleAttribute.path = groupSample.name.base :: (["i"] ++ ["@_k"]) := by
    decide +kernel
  obtain rfl : ["i"] = bases :=
    (List.append_inj' (List.cons.inj (hpieces.symm.trans hsplit)).2 rfl).1
  have hc := hseen fun _ => by decide +kernel
  obtain rfl : (⟨⟨none, "i"⟩, [⟨⟨none, "k"⟩, "1"⟩], [.element ⟨none, "c"⟩ [] [.text "a"]]⟩ : Element)
      = c := Option.some.inj hreached
  refine ⟨groupSample, _, _, read_groupSample, hc, rfl, rfl, hfollows "1" ?_ (by decide) (by simp)⟩
  intro x hx
  rw [← Option.some.inj (hc.symm.trans hx)]
  rfl

end Preview

end Crosswalk
