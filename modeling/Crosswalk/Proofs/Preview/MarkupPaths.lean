import Crosswalk.Proofs.Document.Grouping
import Crosswalk.Proofs.Path.Spelling
import Crosswalk.Proofs.Preview.OpenWays
import Mathlib.Data.List.Nodup

/-!
# The paths of a schema in its markup

A schema is inferred from the value that a markup document is turned into, while a search goes
through the elements themselves.  Both agree on what a path means where its way is open: its names
lead to the first child elements of these names, and what the schema knows of the last of them is
what the search finds there.  Where the way is closed, the search goes by other elements, or by none.

* `exists_reached_of_origin` : every node stands in an element that its keys lead to.
* `isFound_of_isField` : what a search finds at the path of a field, be the way open or not.
* `agrees_of_isField` : on an open way that is what the document holds there.
* `findText?_path` : what a search finds at the path of a node.
-/

namespace Crosswalk

namespace Markup

/-- Whether a node is a comment or processing instruction. -/
def Node.isAside : Node → Bool
  | .aside => true
  | _ => false

namespace Element

/-- Whether no attribute in a document has a qualifier. -/
def HasPlainAttributes (root : Element) : Prop :=
  ∀ e ∈ root.inside, ∀ a ∈ e.attributes, a.name.space = none

/-- Whether no name in a document is divided by a dot. -/
def HasUndividedNames (root : Element) : Prop :=
  ∀ e ∈ root.inside,
    '.' ∉ e.name.base.toList ∧ ∀ a ∈ e.attributes, '.' ∉ a.name.base.toList

/-- Whether there are neither comments nor processing instructions in a document. -/
def HasNoAsides (root : Element) : Prop :=
  ∀ e ∈ root.inside, ∀ n ∈ e.children, n.isAside = false

instance (root : Element) : Decidable root.HasPlainAttributes :=
  inferInstanceAs (Decidable (∀ e ∈ root.inside, ∀ a ∈ e.attributes, a.name.space = none))

instance (root : Element) : Decidable root.HasUndividedNames :=
  inferInstanceAs (Decidable (∀ e ∈ root.inside,
    '.' ∉ e.name.base.toList ∧ ∀ a ∈ e.attributes, '.' ∉ a.name.base.toList))

instance (root : Element) : Decidable root.HasNoAsides :=
  inferInstanceAs (Decidable (∀ e ∈ root.inside, ∀ n ∈ e.children, n.isAside = false))

end Element

end Markup

namespace Schema

open Document Markup

/-- The name that is shown for an attribute is its own. -/
theorem shownName_attributeKey (base : String) : shownName (attributeKey base) = base := by
  rw [shownName, if_pos (Path.isAttributePiece_attributeKey base), toList_attributeKey]
  simp

theorem shownName_of_isName {name : String} (h : IsName name.toList) : shownName name = name := by
  rw [shownName, Path.isAttributePiece_of_isName h]
  rfl

theorem isAttribute_nodeOf_attributeKey (parent base : String) (v : Json.Value) :
    (nodeOf parent (attributeKey base) v).isAttribute = true := by
  rw [nodeOf_isAttribute, Path.isAttributePiece_attributeKey]

theorem isAttribute_nodeOf_of_isName {name : String} (h : IsName name.toList) (parent : String)
    (v : Json.Value) : (nodeOf parent name v).isAttribute = false := by
  rw [nodeOf_isAttribute, Path.isAttributePiece_of_isName h]

end Schema

namespace Preview

open Markup Document
open Schema (Origin childFields topFields)

/-! ### The way down -/

theorem isName_of_child {e : Element} (h : ∀ x ∈ e.inside, x.IsRegular) :
    ∀ c ∈ e.elements, IsName c.name.base.toList :=
  fun c hc => (h c (Element.mem_inside_of_mem_elements hc)).name

theorem isName_of_inside {root e : Element} (h : ∀ x ∈ root.inside, x.IsRegular)
    (he : e ∈ root.inside) : ∀ c ∈ e.elements, IsName c.name.base.toList :=
  isName_of_child fun x hx => h x (Element.mem_inside_trans he hx)

theorem isName_of_reached? {root c : Element} (h : ∀ x ∈ root.inside, x.IsRegular)
    {names : List String} (hreached : reached? names root = some c) :
    ∀ base ∈ names, IsName base.toList := by
  intro base hbase
  obtain ⟨x, hx, rfl⟩ := (mem_inside_of_reached? hreached).2 base hbase
  exact (h x hx).name

/-- **Every node stands in an element** that its keys but the last lead to, and its value is that of
a field of this element. -/
theorem exists_reached_of_origin {e : Element} (hregular : ∀ x ∈ e.inside, x.IsRegular)
    {parent : String} {keys : List String} {n : Schema.Node} {v : Json.Value}
    (h : Origin parent (childFields (elementValue e)) keys n v) :
    ∃ bases key above c, keys = bases ++ [key] ∧ n = Schema.nodeOf above key v ∧
      reached? bases e = some c ∧ IsField c key v := by
  generalize hfields : childFields (elementValue e) = fields at h
  induction h generalizing e with
  | @here parent key fields v hfield =>
    subst hfields
    exact ⟨[], key, parent, e, rfl, rfl, rfl, isField_of_mem (isName_of_child hregular) hfield⟩
  | @inside parent key fields keys n v w hfield hn ih =>
    subst hfields
    cases isField_of_mem (isName_of_child hregular) hfield with
    | ofAttribute ha => cases hn <;> contradiction
    | ofText =>
      rw [childFields_scalarOfText] at ih hn
      cases hn <;> contradiction
    | @ofChildren _ x others _ hnamed hgroup =>
      have hx : x ∈ e.elements := (Element.of_named_eq_cons hnamed).1
      have hbelow : childFields (elementValue x) = childFields w :=
        (childFields_of_grouped (isSingle_elementValue x) hgroup).symm
      have hinner : ∀ y ∈ x.inside, y.IsRegular :=
        fun y hy => hregular y (Element.mem_inside_of_child hx hy)
      obtain ⟨bases, last, above, c, hkeys, hnode, hreached, hc⟩ := ih hinner hbelow
      refine ⟨key :: bases, last, above, c, ?_, hnode, ?_, hc⟩
      · rw [hkeys, List.cons_append]
      · rw [reached?, hnamed]
        exact hreached

/-- The nodes of a document: the outermost element, and what stands in the elements below it. -/
theorem origin_valueOfRoot {root : Element} (hregular : ∀ x ∈ root.inside, x.IsRegular)
    {keys : List String} {n : Schema.Node} {v : Json.Value}
    (h : Origin "" (topFields (valueOfRoot root)) keys n v) :
    (keys = [root.name.base] ∧ v = elementValue root ∧ n = Schema.nodeOf "" root.name.base v) ∨
      ∃ bases key above c, keys = root.name.base :: (bases ++ [key]) ∧
        n = Schema.nodeOf above key v ∧ reached? bases root = some c ∧ IsField c key v := by
  cases h with
  | here hfield =>
    obtain ⟨rfl, rfl⟩ := Prod.mk.inj (List.mem_singleton.1 hfield)
    exact Or.inl ⟨rfl, rfl, rfl⟩
  | inside hfield hbelow =>
    obtain ⟨rfl, rfl⟩ := Prod.mk.inj (List.mem_singleton.1 hfield)
    obtain ⟨bases, key, above, c, rfl, hnode, hreached, hc⟩ :=
      exists_reached_of_origin hregular hbelow
    exact Or.inr ⟨bases, key, above, c, rfl, hnode, hreached, hc⟩

/-! ### What is found -/

theorem followMarkup?_attributeKey (root : Name) (base : String) (e : Element) :
    followMarkup? root false [Segment.ofText (attributeKey base)] e = e.attribute? base := by
  rw [Segment.ofText_attributeKey]
  rfl

/-- What a search finds at the path of a node that the given names lead to from the outermost
element.  An attribute is looked up in the element that the search comes to by the names before the
last, and for all other nodes the text at the front of an element is taken. -/
structure IsFound (root : Element) (names : List String) (n : Schema.Node)
    (found : Option String) : Prop where
  /-- The attribute of its owner. -/
  ofAttribute : n.isAttribute = true → ∃ above, names = above ++ [attributeKey n.name] ∧
    found = (seen? root.name.space above root).bind (fun c => c.attribute? n.name)
  /-- The text at the front of an element. -/
  ofElement : n.isAttribute = false →
    found = (seen? root.name.space names root).bind Element.leadingText?

/-- **What is found for a field** of an element, be the way to it open or not. -/
theorem isFound_of_isField {root c : Element} (hregular : ∀ x ∈ root.inside, x.IsRegular)
    (hinside : c ∈ root.inside) {path above key : String} {bases : List String} {v : Json.Value}
    (hpath : Path.split path = root.name.base :: (bases ++ [key]))
    (hbases : ∀ base ∈ bases, IsName base.toList) (h : IsField c key v) :
    IsFound root (bases ++ [key]) (Schema.nodeOf above key v) (findText? path root) := by
  have hroot : IsName root.name.base.toList := (hregular root root.self_mem_inside).name
  have hfound : findText? path root
      = (seen? root.name.space bases root).bind
          (followMarkup? root.name false [Segment.ofText key]) :=
    findText?_of_seen hroot hpath hbases
  have hchild (hstep : Segment.ofText key = .element key none)
      (hdigits : Segment.isDigits key.toList = false) :
      findText? path root
        = (seen? root.name.space (bases ++ [key]) root).bind Element.leadingText? := by
    rw [hfound, seen?_append, Option.bind_assoc, hstep]
    congr 1
    funext e
    rw [followMarkup?_name hdigits, seen?, Option.bind_assoc]
    rfl
  cases h with
  | @ofAttribute a ha =>
    have hattribute := Schema.isAttribute_nodeOf_attributeKey above a.name.base (.string a.value)
    refine ⟨fun _ => ⟨bases, ?_, ?_⟩, fun hnot => ?_⟩
    · rw [Schema.nodeOf_name, Schema.shownName_attributeKey]
    · rw [hfound, Schema.nodeOf_name, Schema.shownName_attributeKey]
      congr 1
      funext e
      exact followMarkup?_attributeKey root.name a.name.base e
    · rw [hattribute] at hnot
      cases hnot
  | @ofChildren _ x others _ hnamed hgroup =>
    obtain ⟨helement, rfl⟩ := Element.of_named_eq_cons hnamed
    have hx : x ∈ root.inside :=
      Element.mem_inside_trans hinside (Element.mem_inside_of_mem_elements helement)
    have hkey : IsName x.name.base.toList := (hregular x hx).name
    refine ⟨fun hattribute => ?_, fun _ => ?_⟩
    · rw [Schema.isAttribute_nodeOf_of_isName hkey] at hattribute
      cases hattribute
    · exact hchild (Segment.ofText_of_isName hkey) (Segment.isDigits_of_isName hkey)
  | ofText =>
    refine ⟨fun hattribute => ?_, fun _ => hchild (by decide) (by decide)⟩
    rw [Schema.nodeOf_isAttribute] at hattribute
    exact absurd hattribute (by decide)

/-- What is found for the base name of an attribute is an attribute of that base name. -/
theorem exists_attribute?_of_mem {e : Element} {a : Attribute} (ha : a ∈ e.attributes) :
    ∃ b ∈ e.attributes, b.name.base = a.name.base ∧ e.attribute? a.name.base = some b.value := by
  have hfound : (e.attributes.find? (fun b => b.name.base == a.name.base)).isSome = true :=
    List.find?_isSome.2 ⟨a, ha, by rw [beq_iff_eq]⟩
  obtain ⟨b, hb⟩ := Option.isSome_iff_exists.1 hfound
  refine ⟨b, List.mem_of_find?_eq_some hb, by simpa using List.find?_some hb, ?_⟩
  rw [Element.attribute?, hb]
  rfl

/-- An attribute without qualifier is found by its base name. -/
theorem attribute?_of_mem {e : Element} (hregular : e.IsRegular)
    (hplain : ∀ a ∈ e.attributes, a.name.space = none) {a : Attribute} (ha : a ∈ e.attributes) :
    e.attribute? a.name.base = some a.value := by
  obtain ⟨b, hmem, hbase, hfound⟩ := exists_attribute?_of_mem ha
  have hname : b.name = a.name := by
    have hspace : b.name.space = a.name.space := (hplain b hmem).trans (hplain a ha).symm
    cases hbn : b.name
    cases han : a.name
    simp_all
  have heq : b = a := List.inj_on_of_nodup_map hregular.distinct hmem ha hname
  rw [hfound, heq]

/-- Whether what a search finds for a node agrees with the value that the node comes from: it is
the value of an attribute, and an element that is a scalar is what it spells. -/
def Agrees (n : Schema.Node) (v : Json.Value) (found : Option String) : Prop :=
  (n.isAttribute = true → ∃ s, v = .string s ∧ found = some s) ∧
    (n.isAttribute = false → n.kind.isContainer = false → n.name ≠ textKey →
      v = scalarOfText (Text.trim (found.getD "")))

theorem agrees_of_element {above key : String} {c : Element} (hkey : IsName key.toList)
    (hregular : c.IsRegular) (haside : ∀ n ∈ c.children, n.isAside = false) :
    Agrees (Schema.nodeOf above key (elementValue c)) (elementValue c) c.leadingText? := by
  refine ⟨?_, ?_⟩
  · intro hattribute
    rw [Schema.isAttribute_nodeOf_of_isName hkey] at hattribute
    cases hattribute
  · intro _ hkind _
    rw [Schema.nodeOf_isContainer] at hkind
    have hnone : Node.aside ∉ c.children := by
      intro hmem
      cases haside _ hmem
    exact elementValue_eq_scalarOfText hregular hnone hkind

/-- **On an open way** a search finds what stands in a field of the element that is reached. -/
theorem agrees_of_isField {root c : Element} (hregular : ∀ x ∈ root.inside, x.IsRegular)
    (hplain : root.HasPlainAttributes) (hasides : root.HasNoAsides) {names : List String}
    {above key : String} {v : Json.Value} {found : Option String}
    (hreached : reached? names root = some c) (h : IsField c key v)
    (hopen : IsOpenWay root (names ++ [key]))
    (hfound : IsFound root (names ++ [key]) (Schema.nodeOf above key v) found) :
    Agrees (Schema.nodeOf above key v) v found := by
  have hinside : c ∈ root.inside := (mem_inside_of_reached? hreached).1
  cases h with
  | @ofAttribute a ha =>
    have hattribute := Schema.isAttribute_nodeOf_attributeKey above a.name.base (.string a.value)
    refine ⟨fun _ => ⟨a.value, rfl, ?_⟩, fun hnot => ?_⟩
    · obtain ⟨owner, howner, hvalue⟩ := hfound.ofAttribute hattribute
      obtain rfl : names = owner := (List.append_inj' howner rfl).1
      rw [hvalue, hopen.of_append.seen?_eq hreached, Schema.nodeOf_name,
        Schema.shownName_attributeKey, Option.bind_some]
      exact attribute?_of_mem (hregular c hinside) (hplain c hinside) ha
    · rw [hattribute] at hnot
      cases hnot
  | @ofChildren _ x others _ hnamed hgroup =>
    obtain ⟨helement, rfl⟩ := Element.of_named_eq_cons hnamed
    have hx : x ∈ root.inside :=
      Element.mem_inside_trans hinside (Element.mem_inside_of_mem_elements helement)
    have hkey : IsName x.name.base.toList := (hregular x hx).name
    have hbelow : reached? (names ++ [x.name.base]) root = some x := by
      rw [reached?_append, hreached, Option.bind_some, reached?, hnamed]
      rfl
    have hattribute := Schema.isAttribute_nodeOf_of_isName hkey above v
    have htext : found = x.leadingText? := by
      rw [hfound.ofElement hattribute, hopen.seen?_eq hbelow, Option.bind_some]
    rw [htext]
    cases others with
    | nil =>
      obtain rfl : elementValue x = v := Option.some.inj hgroup
      exact agrees_of_element hkey (hregular x hx) (hasides x hx)
    | cons y others =>
      obtain rfl := Option.some.inj hgroup
      refine ⟨fun hmarked => ?_, fun _ hkind => ?_⟩
      · rw [hattribute] at hmarked
        cases hmarked
      · rw [Schema.nodeOf_isContainer] at hkind
        cases hkind
  | ofText =>
    refine ⟨fun hattribute => ?_, fun _ _ hname => ?_⟩
    · rw [Schema.nodeOf_isAttribute] at hattribute
      exact absurd hattribute (by decide)
    · rw [Schema.nodeOf_name] at hname
      exact absurd (by decide) hname

theorem isPlainPiece_of_isField {root c : Element} (hinside : c ∈ root.inside)
    (hregular : ∀ x ∈ root.inside, x.IsRegular) (hdots : root.HasUndividedNames) {key : String}
    {v : Json.Value} (h : IsField c key v) :
    Path.IsPlainPiece key := by
  cases h with
  | ofAttribute ha =>
    exact Path.isPlainPiece_attributeKey ((hregular c hinside).attribute_names _ ha)
      ((hdots c hinside).2 _ ha)
  | @ofChildren _ x _ _ hnamed _ =>
    obtain ⟨helement, rfl⟩ := Element.of_named_eq_cons hnamed
    have hx : x ∈ root.inside :=
      Element.mem_inside_trans hinside (Element.mem_inside_of_mem_elements helement)
    exact Path.isPlainPiece_of_isName (hregular x hx).name (hdots x hx).1
  | ofText => exact ⟨by decide, by decide, by decide⟩

/-- The keys to a field can be written as the pieces of a path. -/
theorem isPlainPiece_of_reached? {root c : Element} (hregular : ∀ x ∈ root.inside, x.IsRegular)
    (hdots : root.HasUndividedNames) {bases : List String} (hreached : reached? bases root = some c)
    {key : String} {v : Json.Value} (hfield : IsField c key v) :
    ∀ k ∈ root.name.base :: bases ++ [key], Path.IsPlainPiece k := by
  obtain ⟨hinside, hbases⟩ := mem_inside_of_reached? hreached
  have hname : ∀ x ∈ root.inside, Path.IsPlainPiece x.name.base :=
    fun x hx => Path.isPlainPiece_of_isName (hregular x hx).name (hdots x hx).1
  intro k hk
  rcases List.mem_append.1 hk with habove | hlast
  · rcases List.mem_cons.1 habove with rfl | hbase
    · exact hname root root.self_mem_inside
    · obtain ⟨x, hx, rfl⟩ := hbases k hbase
      exact hname x hx
  · rw [List.mem_singleton.1 hlast]
    exact isPlainPiece_of_isField hinside hregular hdots hfield

/-- **What a search finds** at the path of a node: what `IsFound` says, in every document of one
namespace.  If the way to the node is open, it agrees with what the document holds there; an element
without text is searched in vain and counts as empty.  A way can only be closed in a document whose
elements are in no namespace, by one that declares the empty namespace. -/
theorem findText?_path {text : String} {root : Element} (h : Element.read text = .ok root)
    (hspace : root.InOneSpace) (hplain : root.HasPlainAttributes)
    (hdots : root.HasUndividedNames) (hasides : root.HasNoAsides) :
    ∀ n ∈ Schema.preorder (Schema.infer (valueOfRoot root)),
      (∃ keys v, Origin "" (topFields (valueOfRoot root)) keys n v) ∧
        ∀ keys v, Origin "" (topFields (valueOfRoot root)) keys n v →
          ∃ names, keys = root.name.base :: names ∧ IsFound root names n (findText? n.path root) ∧
            ((root.name.namespace? = none → IsOpenWay root names) →
              Agrees n v (findText? n.path root)) := by
  have hregular : ∀ x ∈ root.inside, x.IsRegular := isRegular_of_read h
  have hrootName : IsName root.name.base.toList := (hregular root root.self_mem_inside).name
  have hrootPiece := Path.isPlainPiece_of_isName hrootName (hdots root root.self_mem_inside).1
  intro n hn
  rw [Schema.infer_eq] at hn
  refine ⟨Schema.mem_preorder_nodesOf.1 hn, ?_⟩
  intro keys v horigin
  rcases origin_valueOfRoot hregular horigin with
    ⟨rfl, rfl, hnode⟩ | ⟨bases, key, above, c, rfl, rfl, hreached, hfield⟩
  · have hpieces : Path.split n.path = root.name.base :: ([] ++ []) := by
      refine horigin.split_path ?_
      intro k hk
      rw [List.mem_singleton.1 hk]
      exact hrootPiece
    have hfound : findText? n.path root = root.leadingText? :=
      findText?_of_seen hrootName hpieces (fun _ h => nomatch h)
    refine ⟨[], rfl, ⟨fun hattribute => ?_, fun _ => hfound⟩, fun _ => ?_⟩
    · rw [hnode, Schema.isAttribute_nodeOf_of_isName hrootName] at hattribute
      cases hattribute
    · rw [hfound, hnode]
      exact agrees_of_element hrootName (hregular root root.self_mem_inside)
        (hasides root root.self_mem_inside)
  · have hinside : c ∈ root.inside := (mem_inside_of_reached? hreached).1
    have hsplit := horigin.split_path (isPlainPiece_of_reached? hregular hdots hreached hfield)
    have hfound : IsFound root (bases ++ [key]) (Schema.nodeOf above key v) _ :=
      isFound_of_isField hregular hinside hsplit (isName_of_reached? hregular hreached) hfield
    refine ⟨bases ++ [key], rfl, hfound, fun hnone => ?_⟩
    exact agrees_of_isField hregular hplain hasides hreached hfield
      (isOpenWay_of_inOneSpace hspace hnone) hfound

/-! ### A child that declares the empty namespace -/

/-- A document without namespaces, with an attribute and a child that says so itself. -/
def undeclaringSample : Element :=
  ⟨⟨none, "r"⟩, [⟨⟨none, "a"⟩, "1"⟩], [.element ⟨some "", "b"⟩ [] [.text "x"]]⟩

theorem read_undeclaringSample :
    Element.read "<r a=\"1\"><b xmlns=\"\">x</b></r>" = .ok undeclaringSample := by
  with_unfolding_all rfl

theorem valueOfRoot_undeclaringSample :
    valueOfRoot undeclaringSample
      = .object [("r", .object [("@_a", .string "1"), ("b", .string "x")])] := by
  have hkey : attributeKey "a" = "@_a" := by decide
  have htrim : Text.trim "x" = "x" := by with_unfolding_all rfl
  have hscalar : scalarOfText "x" = .string "x" := by with_unfolding_all rfl
  simp [undeclaringSample, valueOfRoot, elementValue, childValues, assembled, attributeFields,
    addChild, ownText, Fields.put, Fields.get?, Node.text?, List.filterMap, String.join, hkey,
    htrim, hscalar]

/-- The node for the attribute. -/
def ownedNode : Schema.Node := ⟨"a", "r.@_a", .string, [], true⟩

/-- The node for the child. -/
def undeclaringNode : Schema.Node := ⟨"b", "r.b", .string, [], false⟩

theorem infer_undeclaringSample :
    Schema.infer (valueOfRoot undeclaringSample)
      = [⟨"r", "r", .object, [ownedNode, undeclaringNode], false⟩] := by
  rw [valueOfRoot_undeclaringSample]
  with_unfolding_all rfl

theorem origin_ownedNode :
    Origin "" (topFields (valueOfRoot undeclaringSample)) ["r", "@_a"] ownedNode (.string "1") := by
  rw [valueOfRoot_undeclaringSample]
  exact .inside List.mem_cons_self (.here (v := .string "1") List.mem_cons_self)

theorem origin_undeclaringNode :
    Origin "" (topFields (valueOfRoot undeclaringSample)) ["r", "b"] undeclaringNode
      (.string "x") := by
  rw [valueOfRoot_undeclaringSample]
  exact .inside List.mem_cons_self
    (.here (v := .string "x") (List.mem_cons_of_mem _ List.mem_cons_self))

theorem isPlain_undeclaringSample :
    undeclaringSample.InOneSpace ∧ undeclaringSample.HasPlainAttributes ∧
      undeclaringSample.HasUndividedNames ∧ undeclaringSample.HasNoAsides := by
  decide +kernel

/-- The child is in no namespace, as all other elements, but it is not found. -/
theorem undeclaring_child_lost :
    ∃ root n, Element.read "<r a=\"1\"><b xmlns=\"\">x</b></r>" = .ok root ∧
      (root.InOneSpace ∧ root.HasPlainAttributes ∧ root.HasUndividedNames ∧ root.HasNoAsides) ∧
      n ∈ Schema.preorder (Schema.infer (valueOfRoot root)) ∧ n.path = "r.b" ∧
      Origin "" (topFields (valueOfRoot root)) ["r", "b"] n (.string "x") ∧
      findText? n.path root = none ∧ ¬ Agrees n (.string "x") (findText? n.path root) := by
  have hnone : findText? undeclaringNode.path undeclaringSample = none := by decide +kernel
  refine ⟨undeclaringSample, undeclaringNode, read_undeclaringSample, isPlain_undeclaringSample, ?_,
    rfl, origin_undeclaringNode, hnone, ?_⟩
  · rw [infer_undeclaringSample]
    simp [Schema.preorder, Schema.Node.preorder_eq]
  · rintro ⟨-, hscalar⟩
    have hempty : scalarOfText (Text.trim "") = .string "" := by with_unfolding_all rfl
    have hheld := hscalar rfl rfl (by decide)
    rw [hnone, Option.getD_none, hempty, Json.Value.string.injEq] at hheld
    exact absurd hheld (by decide)

/-- The attribute beside it is found: its way is open. -/
theorem findText?_path_beside_undeclaring :
    ∃ root n, Element.read "<r a=\"1\"><b xmlns=\"\">x</b></r>" = .ok root ∧
      n ∈ Schema.preorder (Schema.infer (valueOfRoot root)) ∧ n.path = "r.@_a" ∧
      IsFound root ["@_a"] n (findText? n.path root) ∧
      Agrees n (.string "1") (findText? n.path root) := by
  obtain ⟨hspace, hplain, hdots, hasides⟩ := isPlain_undeclaringSample
  have hmem : ownedNode ∈ Schema.preorder (Schema.infer (valueOfRoot undeclaringSample)) := by
    rw [infer_undeclaringSample]
    simp [Schema.preorder, Schema.Node.preorder_eq]
  obtain ⟨names, hkeys, hfound, hagrees⟩ :=
    (findText?_path read_undeclaringSample hspace hplain hdots hasides ownedNode hmem).2 _ _
      origin_ownedNode
  obtain rfl : ["@_a"] = names := (List.cons.inj hkeys).2
  exact ⟨undeclaringSample, ownedNode, read_undeclaringSample, hmem, rfl, hfound,
    hagrees fun _ => by decide +kernel⟩

end Preview

end Crosswalk
