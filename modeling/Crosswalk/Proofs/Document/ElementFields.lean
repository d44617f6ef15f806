import Crosswalk.Proofs.Document.Grouping

/-!
# The value of an element, field by field

The value of an element is told by its attributes, its child elements and its text, and not by the
order in which groups grew.  Its fields are those of the attributes, then those of the children,
both in the order in which their names are first mentioned, and then one for the text if there is
any.  The last of several attributes of one base name counts, and children of one name make an
array.

* `names_elementFields` : the names of the fields, but for the text.
* `get?_attributeKey` : the value of an attribute.
* `HasFields` : what is said of the fields of an element.
* `elementValue_hasFields` : the elements of a document that are scalars, and the fields of others.
-/

namespace Crosswalk.Document

open Markup

/-! ### Names -/

/-- The field names of the attributes of an element, in the order of first mention. -/
def attributeKeys (e : Element) : List String :=
  (e.attributes.map fun a => attributeKey a.name.base).eraseDups

/-- The base names of the children of an element, in the order of first mention. -/
def childKeys (e : Element) : List String :=
  (e.elements.map fun c => c.name.base).eraseDups

theorem attributeKey_injective {base other : String} (h : attributeKey base = attributeKey other) :
    base = other := by
  have hchars := congrArg String.toList h
  rw [toList_attributeKey, toList_attributeKey] at hchars
  exact String.toList_injective (List.cons.inj (List.cons.inj hchars).2).2

theorem names_attributeFields (attributes : List Attribute) :
    Fields.names (attributeFields attributes)
      = (attributes.map fun a => attributeKey a.name.base).eraseDups := by
  have hempty : Fields.names ([] : Fields Json.Value) = ([] : List String).eraseDups := rfl
  exact Fields.names_foldl (fun _ _ => ⟨_, rfl⟩) hempty attributes

theorem exists_addChild_eq_put (fields : Fields Json.Value) (child : String × Json.Value) :
    ∃ entry, addChild fields child = Fields.put child.1 entry fields := by
  unfold addChild
  split
  all_goals exact ⟨_, rfl⟩

/-- **The names of the fields** of an element whose children have names, but for its text. -/
theorem names_elementFields {e : Element} (hnames : ∀ c ∈ e.elements, IsName c.name.base.toList) :
    Fields.names (elementFields e) = attributeKeys e ++ childKeys e := by
  have hchildren : (childValues e.children).map Prod.fst = e.elements.map fun c => c.name.base := by
    rw [childValues_eq, List.map_map]
    rfl
  have hapart : (e.elements.map fun c => c.name.base).removeAll
      (e.attributes.map fun a => attributeKey a.name.base)
        = e.elements.map fun c => c.name.base := by
    rw [List.removeAll, List.filter_eq_self]
    intro base hbase
    obtain ⟨c, hc, rfl⟩ := List.mem_map.1 hbase
    simpa using fun a _ => attributeKey_ne (hnames c hc)
  rw [elementFields, Fields.names_foldl exists_addChild_eq_put (names_attributeFields e.attributes),
    hchildren, List.eraseDups_append, hapart]
  rfl

/-! ### Attributes -/

/-- The last value that some attributes give to a base name. -/
def lastValue? (base : String) (attributes : List Attribute) : Option String :=
  (attributes.filter fun a => a.name.base == base).getLast?.map Attribute.value

theorem get?_attributeFields (base : String) (attributes : List Attribute) :
    Fields.get? (attributeKey base) (attributeFields attributes)
      = (lastValue? base attributes).map .string := by
  induction attributes using List.reverseRecOn with
  | nil => rfl
  | append_singleton attributes a ih =>
    rw [attributeFields, List.foldl_concat, ← attributeFields]
    by_cases hbase : a.name.base = base
    · subst hbase
      rw [Fields.get?_put_self]
      simp [lastValue?]
    · have hkey : attributeKey base ≠ attributeKey a.name.base :=
        fun heq => hbase (attributeKey_injective heq).symm
      rw [Fields.get?_put_of_ne hkey, ih]
      simp [lastValue?, hbase]

/-- **The value of an attribute** is the last one that is given to its base name. -/
theorem get?_attributeKey {e : Element} (hnames : ∀ c ∈ e.elements, IsName c.name.base.toList)
    (base : String) : Fields.get? (attributeKey base) (elementFields e)
      = (lastValue? base e.attributes).map .string := by
  have hapart : ∀ child ∈ childValues e.children, child.1 ≠ attributeKey base := by
    intro child hchild
    rw [childValues_eq] at hchild
    obtain ⟨c, hc, rfl⟩ := List.mem_map.1 hchild
    exact (attributeKey_ne (hnames c hc)).symm
  rw [elementFields, get?_foldl_addChild_of_ne hapart, get?_attributeFields]

/-! ### The text -/

theorem textKey_ne_attributeKey (base : String) : textKey ≠ attributeKey base := by
  intro heq
  have hchars := congrArg String.toList heq
  rw [toList_attributeKey] at hchars
  exact absurd (List.cons.inj hchars).1 (by decide)

theorem textKey_ne_of_isName {key : String} (h : IsName key.toList) : textKey ≠ key := by
  rintro rfl
  exact absurd h (by decide)

/-- No other field has the name of the text. -/
theorem textKey_not_mem_names {e : Element} (hnames : ∀ c ∈ e.elements, IsName c.name.base.toList) :
    textKey ∉ Fields.names (elementFields e) := by
  rw [names_elementFields hnames, List.mem_append, attributeKeys, childKeys, List.mem_eraseDups,
    List.mem_eraseDups]
  rintro (hattribute | hchild)
  · obtain ⟨a, -, heq⟩ := List.mem_map.1 hattribute
    exact textKey_ne_attributeKey _ heq.symm
  · obtain ⟨c, hc, heq⟩ := List.mem_map.1 hchild
    exact textKey_ne_of_isName (hnames c hc) heq.symm

/-! ### All fields -/

/-- Several children of one name make an array. -/
theorem grouped_of_two_le {vs : List Json.Value} (h : 1 < vs.length) :
    grouped vs = some (.array vs) := by
  match vs, h with
  | _ :: _ :: _, _ => rfl

/-- What is said of the fields of an element: their names in order, the last value of each
attribute, the children of each name, and the text. -/
structure HasFields (e : Element) (fields : Fields Json.Value) : Prop where
  names : Fields.names fields
    = attributeKeys e ++ childKeys e ++ if ownText e.children = "" then [] else [textKey]
  attributes : ∀ a ∈ e.attributes, Fields.get? (attributeKey a.name.base) fields
    = (lastValue? a.name.base e.attributes).map .string
  only_child : ∀ c ∈ e.elements, e.named c.name.base = [c] →
    Fields.get? c.name.base fields = some (elementValue c)
  children : ∀ c ∈ e.elements, 1 < (e.named c.name.base).length →
    Fields.get? c.name.base fields = some (.array ((e.named c.name.base).map elementValue))
  text : ownText e.children ≠ "" →
    Fields.get? textKey fields = some (scalarOfText (ownText e.children))

/-- Fields that agree with those of the attributes and children, but for the text. -/
theorem hasFields_of_agree {e : Element} (hnames : ∀ c ∈ e.elements, IsName c.name.base.toList)
    {fields : Fields Json.Value}
    (hfields : Fields.names fields
      = attributeKeys e ++ childKeys e ++ if ownText e.children = "" then [] else [textKey])
    (hagree : ∀ key, key ≠ textKey → Fields.get? key fields = Fields.get? key (elementFields e))
    (htext : ownText e.children ≠ "" →
      Fields.get? textKey fields = some (scalarOfText (ownText e.children))) :
    HasFields e fields where
  names := hfields
  attributes := by
    intro a _
    rw [hagree _ (textKey_ne_attributeKey _).symm, get?_attributeKey hnames]
  only_child := by
    intro c hc honly
    rw [hagree _ (textKey_ne_of_isName (hnames c hc)).symm,
      get?_elementFields_of_isName (hnames c hc), honly]
    rfl
  children := by
    intro c hc hseveral
    rw [hagree _ (textKey_ne_of_isName (hnames c hc)).symm,
      get?_elementFields_of_isName (hnames c hc)]
    exact grouped_of_two_le (by simpa using hseveral)
  text := htext

theorem isContainer_scalarOfText (text : String) : (scalarOfText text).isContainer = false := by
  unfold scalarOfText
  repeat' split
  all_goals rfl

/-- An element without attributes and child elements has no fields. -/
theorem elementFields_eq_nil {e : Element} (hattributes : e.attributes = [])
    (helements : e.elements = []) : elementFields e = [] := by
  have hchildren : childValues e.children = [] := by
    rw [childValues_eq, List.map_eq_nil_iff]
    exact helements
  rw [elementFields, hchildren, hattributes]
  rfl

/-- **The elements of a document.**  One without attributes and child elements is the scalar that
its text spells, and no other one is a scalar.  None is an array.  All others are objects with a
field for each name of an attribute, each name of a child and the text, if there is any. -/
theorem elementValue_hasFields {text : String} {root : Element} (h : Element.read text = .ok root) :
    ∀ e ∈ root.inside,
      (∀ items, elementValue e ≠ .array items) ∧
      ((elementValue e).isContainer = false ↔ e.attributes = [] ∧ e.elements = []) ∧
      ((elementValue e).isContainer = false →
        elementValue e = scalarOfText (ownText e.children)) ∧
      ((elementValue e).isContainer = true →
        ∃ fields, elementValue e = .object fields ∧ HasFields e fields) := by
  intro e he
  have hregular : ∀ x ∈ root.inside, x.IsRegular := isRegular_of_read h
  have hnames : ∀ c ∈ e.elements, IsName c.name.base.toList := by
    intro c hc
    have hinside : c ∈ root.inside :=
      Element.mem_inside_trans he (Element.mem_inside_of_mem_elements hc)
    exact (hregular c hinside).name
  have hscalar : e.attributes = [] ∧ e.elements = [] → (elementValue e).isContainer = false := by
    rintro ⟨hattributes, helements⟩
    rw [elementValue_eq, elementFields_eq_nil hattributes helements]
    exact isContainer_scalarOfText _
  refine ⟨isSingle_elementValue e, ⟨?_, hscalar⟩, fun hkind => (of_not_isContainer hkind).2.2, ?_⟩
  · intro hkind
    obtain ⟨hattributes, helements, -⟩ := of_not_isContainer hkind
    exact ⟨hattributes, helements⟩
  · intro hkind
    rw [elementValue_eq] at hkind ⊢
    split
    · rename_i hempty
      rw [if_pos hempty, isContainer_scalarOfText] at hkind
      cases hkind
    · split
      · rename_i hblank
        have hnone : ownText e.children = "" := String.isEmpty_iff.1 hblank
        refine ⟨_, rfl, hasFields_of_agree hnames ?_ (fun _ _ => rfl) (fun hne => absurd hnone hne)⟩
        rw [names_elementFields hnames, if_pos hnone, List.append_nil]
      · rename_i hblank
        have hsome : ownText e.children ≠ "" := mt String.isEmpty_iff.2 hblank
        refine ⟨_, rfl, hasFields_of_agree hnames ?_
          (fun key hkey => Fields.get?_put_of_ne hkey _ _)
          (fun _ => Fields.get?_put_self _ _ _)⟩
        rw [Fields.names_put_of_not_mem _ (textKey_not_mem_names hnames),
          names_elementFields hnames, if_neg hsome]

/-- Two attributes of one base name, two children of one name with another one between them, and
text on both sides of them. -/
theorem elementValue_hasFields_with_groups :
    ∃ root, Element.read
        "<r xmlns:p=\"u\" p:a=\"1\" a=\"2\">x<i/>y<e b=\"3\"/><i>4</i></r>" = .ok root ∧
      (attributeKeys root = ["@_a"] ∧ childKeys root = ["i", "e"] ∧ ownText root.children = "xy") ∧
      ∀ e ∈ root.inside,
        (∀ items, elementValue e ≠ .array items) ∧
        ((elementValue e).isContainer = false ↔ e.attributes = [] ∧ e.elements = []) ∧
        ((elementValue e).isContainer = false →
          elementValue e = scalarOfText (ownText e.children)) ∧
        ((elementValue e).isContainer = true →
          ∃ fields, elementValue e = .object fields ∧ HasFields e fields) := by
  have hcheck : ((Element.read
      "<r xmlns:p=\"u\" p:a=\"1\" a=\"2\">x<i/>y<e b=\"3\"/><i>4</i></r>").toOption.any fun root =>
        decide (attributeKeys root = ["@_a"] ∧ childKeys root = ["i", "e"] ∧
          ownText root.children = "xy")) = true := by
    decide +kernel
  cases hread : Element.read
      "<r xmlns:p=\"u\" p:a=\"1\" a=\"2\">x<i/>y<e b=\"3\"/><i>4</i></r>" with
  | error e =>
    rw [hread] at hcheck
    cases hcheck
  | ok root =>
    rw [hread] at hcheck
    exact ⟨root, rfl, of_decide_eq_true hcheck, elementValue_hasFields hread⟩

end Crosswalk.Document
