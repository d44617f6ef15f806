import Crosswalk.Document.Content
import Crosswalk.Proofs.Fields
import Crosswalk.Proofs.Markup.Regular
import Crosswalk.Proofs.Path.Names
import Crosswalk.Proofs.Schema.Origins

/-!
# The fields of an element

What stands in the value of an element.  Children are grouped by their names: one child of a name
stands for itself, several make an array.  That a value under a name is such an array can be told
from its kind, because no element is an array itself.

* `get?_foldl_addChild` : under a name stand the children of that name.
* `isField_of_mem` : every field is an attribute, a group of children or the text.
* `elementValue_eq_scalarOfText` : a scalar spells the text at the front of its element.
-/

namespace Crosswalk

namespace Document

open Markup

/-! ### Groups -/

/-- The value under a name whose children have the given values. -/
def grouped : List Json.Value → Option Json.Value
  | [] => none
  | [v] => some v
  | vs => some (.array vs)

/-- Whether a value is no array. -/
def IsSingle (v : Json.Value) : Prop := ∀ items, v ≠ .array items

theorem get?_addChild_of_ne {fields : Fields Json.Value} {child : String × Json.Value}
    {name : String} (h : name ≠ child.1) :
    Fields.get? name (addChild fields child) = Fields.get? name fields := by
  unfold addChild
  split
  all_goals exact Fields.get?_put_of_ne h _ fields

/-- **One more child** is added to the group of its name. -/
theorem get?_addChild_self {fields : Fields Json.Value} {child : String × Json.Value}
    {vs : List Json.Value} (hsingle : ∀ v ∈ vs, IsSingle v)
    (h : Fields.get? child.1 fields = grouped vs) :
    Fields.get? child.1 (addChild fields child) = grouped (vs ++ [child.2]) := by
  match vs with
  | [] => simp [addChild, h, grouped]
  | [v] =>
    have hv : IsSingle v := hsingle v List.mem_cons_self
    have hadd : addChild fields child = Fields.put child.1 (.array [v, child.2]) fields := by
      unfold addChild
      rw [h]
      split
      · rename_i hnone
        cases hnone
      · rename_i items hitems
        exact absurd (Option.some.inj hitems) (hv items)
      · rename_i hfirst
        cases hfirst
        rfl
    rw [hadd]
    exact Fields.get?_put_self _ _ _
  | v :: w :: rest => simp [addChild, h, grouped]

/-- **Under a name** stand the children of that name, after those that stood there before. -/
theorem get?_foldl_addChild {children : List (String × Json.Value)} {name : String}
    {fields : Fields Json.Value} {vs : List Json.Value}
    (hchildren : ∀ child ∈ children, IsSingle child.2) (hvs : ∀ v ∈ vs, IsSingle v)
    (h : Fields.get? name fields = grouped vs) :
    Fields.get? name (children.foldl addChild fields)
      = grouped (vs ++ (children.filter (·.1 == name)).map Prod.snd) := by
  induction children generalizing fields vs with
  | nil => simpa using h
  | cons child rest ih =>
    have hrest : ∀ c ∈ rest, IsSingle c.2 := fun c hc => hchildren c (List.mem_cons_of_mem _ hc)
    rw [List.foldl_cons]
    by_cases hname : child.1 = name
    · subst hname
      have hadded : ∀ v ∈ vs ++ [child.2], IsSingle v := by
        intro v hv
        rcases List.mem_append.1 hv with hold | hnew
        · exact hvs v hold
        · rw [List.mem_singleton.1 hnew]
          exact hchildren child List.mem_cons_self
      rw [ih hrest hadded (get?_addChild_self hvs h)]
      simp
    · rw [ih hrest hvs ((get?_addChild_of_ne (Ne.symm hname)).trans h)]
      simp [hname]

/-- Children leave the fields of other names as they are. -/
theorem get?_foldl_addChild_of_ne {children : List (String × Json.Value)} {name : String}
    (h : ∀ child ∈ children, child.1 ≠ name) (fields : Fields Json.Value) :
    Fields.get? name (children.foldl addChild fields) = Fields.get? name fields := by
  induction children generalizing fields with
  | nil => rfl
  | cons child rest ih =>
    have hname : name ≠ child.1 := (h child List.mem_cons_self).symm
    have hrest : ∀ c ∈ rest, c.1 ≠ name := fun c hc => h c (List.mem_cons_of_mem _ hc)
    rw [List.foldl_cons, ih hrest, get?_addChild_of_ne hname]

/-! ### Attributes -/

/-- A field for an attribute has its value. -/
theorem mem_attributeFields {attributes : List Attribute} {f : String × Json.Value}
    (h : f ∈ attributeFields attributes) :
    ∃ a ∈ attributes, f = (attributeKey a.name.base, .string a.value) := by
  revert h
  refine List.foldlRecOn (motive := fun fields => f ∈ fields →
    ∃ a ∈ attributes, f = (attributeKey a.name.base, .string a.value)) attributes _
    (fun hnil => nomatch hnil) ?_
  intro fields ih a ha h
  rcases Fields.mem_put h with hnew | hold
  · exact ⟨a, ha, hnew⟩
  · exact ih hold

/-- The mark of an attribute is no part of a name. -/
theorem attributeKey_ne {key base : String} (h : IsName key.toList) : attributeKey base ≠ key := by
  rintro rfl
  have hmark : '@' ∉ (attributeKey base).toList := not_mem_of_isName h (by decide)
  rw [toList_attributeKey] at hmark
  exact hmark List.mem_cons_self

/-! ### The value of an element -/

/-- The values of children are those of the child elements. -/
theorem childValues_eq (children : List Node) :
    childValues children
      = (children.filterMap Node.element?).map fun c => (c.name.base, elementValue c) := by
  induction children with
  | nil => simp [childValues]
  | cons n rest ih =>
    rw [List.filterMap_cons]
    cases n with
    | element name attributes children => simp [childValues, Node.element?, ih, elementValue]
    | text content => simp [childValues, Node.element?, ih]
    | aside => simp [childValues, Node.element?, ih]

theorem isSingle_elementValue (e : Element) : IsSingle (elementValue e) :=
  assembled_ne_array _ _ _

/-- The fields of an element, but for its text. -/
def elementFields (e : Element) : Fields Json.Value :=
  (childValues e.children).foldl addChild (attributeFields e.attributes)

theorem elementValue_eq (e : Element) :
    elementValue e
      = if (elementFields e).isEmpty then scalarOfText (ownText e.children)
        else if (ownText e.children).isEmpty then .object (elementFields e)
        else .object (Fields.put textKey (scalarOfText (ownText e.children)) (elementFields e)) :=
  rfl

theorem nodup_names_elementFields (e : Element) : (Fields.names (elementFields e)).Nodup := by
  have hattributes : (Fields.names (attributeFields e.attributes)).Nodup := by
    refine List.foldlRecOn (motive := fun fields => (Fields.names fields).Nodup) e.attributes _
      List.nodup_nil ?_
    exact fun fields h a _ => Fields.nodup_names_put _ _ h
  refine List.foldlRecOn (motive := fun fields => (Fields.names fields).Nodup)
    (childValues e.children) addChild hattributes ?_
  intro fields h child _
  unfold addChild
  split
  all_goals exact Fields.nodup_names_put _ _ h

/-! ### Every field -/

/-- Where a field of an element comes from. -/
inductive IsField (e : Element) : String → Json.Value → Prop
  | ofAttribute {a : Attribute} (h : a ∈ e.attributes) :
      IsField e (attributeKey a.name.base) (.string a.value)
  | ofChildren {base : String} {c : Element} {others : List Element} {v : Json.Value}
      (hnamed : e.named base = c :: others)
      (h : grouped (elementValue c :: others.map elementValue) = some v) : IsField e base v
  | ofText : IsField e textKey (scalarOfText (ownText e.children))

theorem map_filter_childValues (e : Element) (name : String) :
    ((childValues e.children).filter (·.1 == name)).map Prod.snd
      = (e.named name).map elementValue := by
  rw [childValues_eq, List.filter_map, List.map_map]
  rfl

/-- No field of an attribute has the name of an element. -/
theorem get?_attributeFields_of_isName {key : String} (h : IsName key.toList)
    (attributes : List Attribute) : Fields.get? key (attributeFields attributes) = none := by
  rw [Fields.get?_eq_none_iff]
  intro hmem
  obtain ⟨f, hf, hname⟩ := List.mem_map.1 hmem
  obtain ⟨a, -, heq⟩ := mem_attributeFields hf
  subst heq
  exact attributeKey_ne h hname

/-- **Under the name of an element** stands the group of the children of that name. -/
theorem get?_elementFields_of_isName {key : String} (h : IsName key.toList) (e : Element) :
    Fields.get? key (elementFields e) = grouped ((e.named key).map elementValue) := by
  have hsingle : ∀ child ∈ childValues e.children, IsSingle child.2 := by
    intro child hchild
    rw [childValues_eq] at hchild
    obtain ⟨x, -, rfl⟩ := List.mem_map.1 hchild
    exact isSingle_elementValue x
  have hbefore : ∀ v ∈ ([] : List Json.Value), IsSingle v := by
    intro v hv
    cases hv
  rw [elementFields, get?_foldl_addChild hsingle hbefore (get?_attributeFields_of_isName h _),
    List.nil_append, map_filter_childValues]

theorem isField_of_mem_elementFields {e : Element}
    (hnames : ∀ c ∈ e.elements, IsName c.name.base.toList) {key : String} {v : Json.Value}
    (h : (key, v) ∈ elementFields e) : IsField e key v := by
  have hget : Fields.get? key (elementFields e) = some v :=
    Fields.get?_of_mem (nodup_names_elementFields e) h
  by_cases hgroup : e.named key = []
  · have hnone : ∀ child ∈ childValues e.children, child.1 ≠ key := by
      intro child hchild heq
      have hmem : child.2 ∈ ((childValues e.children).filter (·.1 == key)).map Prod.snd :=
        List.mem_map_of_mem (List.mem_filter.2 ⟨hchild, by simpa using heq⟩)
      rw [map_filter_childValues, hgroup] at hmem
      cases hmem
    rw [elementFields, get?_foldl_addChild_of_ne hnone] at hget
    obtain ⟨a, ha, heq⟩ := mem_attributeFields (Fields.mem_of_get? hget)
    cases heq
    exact .ofAttribute ha
  · obtain ⟨c, others, hnamed⟩ := List.exists_cons_of_ne_nil hgroup
    obtain ⟨helement, hbase⟩ := Element.of_named_eq_cons hnamed
    have hkey : IsName key.toList := hbase ▸ hnames c helement
    rw [get?_elementFields_of_isName hkey, hnamed] at hget
    exact .ofChildren hnamed hget

theorem childFields_scalarOfText (text : String) :
    Schema.childFields (scalarOfText text) = [] := by
  unfold scalarOfText
  repeat' split
  all_goals rfl

/-- **Every field** of an element is an attribute, a group of children or the text. -/
theorem isField_of_mem {e : Element} (hnames : ∀ c ∈ e.elements, IsName c.name.base.toList)
    {key : String} {v : Json.Value} (h : (key, v) ∈ Schema.childFields (elementValue e)) :
    IsField e key v := by
  rw [elementValue_eq] at h
  split at h
  · rw [childFields_scalarOfText] at h
    cases h
  · split at h
    · exact isField_of_mem_elementFields hnames h
    · rcases Fields.mem_put h with heq | hmem
      · cases heq
        exact .ofText
      · exact isField_of_mem_elementFields hnames hmem

/-- The fields below a group are those of its first child. -/
theorem childFields_of_grouped {v w : Json.Value} {vs : List Json.Value} (hv : IsSingle v)
    (h : grouped (v :: vs) = some w) : Schema.childFields w = Schema.childFields v := by
  match vs with
  | [] =>
    cases h
    rfl
  | second :: rest =>
    cases h
    cases v with
    | array items => exact absurd rfl (hv items)
    | _ => rfl

/-! ### Scalars -/

/-- What is folded into something that is never empty was empty and had nothing folded into it. -/
theorem eq_nil_of_foldl {α β : Type} {f : List β → α → List β} (hf : ∀ fields x, f fields x ≠ [])
    {xs : List α} {fields : List β} (h : xs.foldl f fields = []) : xs = [] ∧ fields = [] := by
  rcases List.eq_nil_or_concat' xs with rfl | ⟨before, last, rfl⟩
  · exact ⟨rfl, h⟩
  · rw [List.foldl_concat] at h
    exact absurd h (hf _ _)

/-- An element is a scalar only if it has neither attributes nor child elements. -/
theorem of_not_isContainer {e : Element} (h : (elementValue e).isContainer = false) :
    e.attributes = [] ∧ e.elements = [] ∧ elementValue e = scalarOfText (ownText e.children) := by
  rw [elementValue_eq] at h ⊢
  split at h
  · rename_i hempty
    have hnil : elementFields e = [] := by simpa using hempty
    have hadd : ∀ fields child, addChild fields child ≠ [] := by
      intro fields child
      unfold addChild
      split
      all_goals exact Fields.put_ne_nil _ _ _
    obtain ⟨hchildren, hfields⟩ := eq_nil_of_foldl hadd hnil
    obtain ⟨hattributes, -⟩ := eq_nil_of_foldl (fun _ _ => Fields.put_ne_nil _ _ _) hfields
    rw [childValues_eq, List.map_eq_nil_iff] at hchildren
    exact ⟨hattributes, hchildren, if_pos hempty⟩
  · split at h
    all_goals cases h

/-- Without comments and child elements, all text of an element is one run at its front. -/
theorem ownText_eq {e : Element} (hregular : e.IsRegular) (haside : Node.aside ∉ e.children)
    (hnone : e.elements = []) : ownText e.children = Text.trim (e.leadingText?.getD "") := by
  have htext : ∀ n ∈ e.children, n.text? ≠ none := by
    intro n hn
    cases n with
    | element name attributes children =>
      have hmem : (⟨name, attributes, children⟩ : Element) ∈ e.elements :=
        List.mem_filterMap.2 ⟨_, hn, rfl⟩
      rw [hnone] at hmem
      cases hmem
    | text content => exact Option.some_ne_none _
    | aside => exact absurd hn haside
  have hapart := hregular.apart
  unfold Element.leadingText?
  match e.children, htext, hapart with
  | [], _, _ => decide
  | [n], htext, _ =>
    cases n with
    | text content => simp [ownText, Node.text?]
    | element name attributes children => exact absurd rfl (htext _ List.mem_cons_self)
    | aside => exact absurd rfl (htext _ List.mem_cons_self)
  | m :: n :: rest, htext, hapart =>
    have hm : m.text? ≠ none := htext m List.mem_cons_self
    have hn : n.text? ≠ none := htext n (List.mem_cons_of_mem _ List.mem_cons_self)
    rcases (List.isChain_cons_cons.1 hapart).1 with hmn | hmn
    · exact absurd hmn hm
    · exact absurd hmn hn

/-- **A scalar** spells the text at the front of its element, if there are no comments. -/
theorem elementValue_eq_scalarOfText {e : Element} (hregular : e.IsRegular)
    (haside : Node.aside ∉ e.children) (h : (elementValue e).isContainer = false) :
    elementValue e = scalarOfText (Text.trim (e.leadingText?.getD "")) := by
  obtain ⟨-, hnone, hvalue⟩ := of_not_isContainer h
  rw [hvalue, ownText_eq hregular haside hnone]

end Document

end Crosswalk
