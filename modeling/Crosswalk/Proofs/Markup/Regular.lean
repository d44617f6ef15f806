import Crosswalk.Markup.Document
import Crosswalk.Proofs.Markup.WellFormed
import Crosswalk.Proofs.Text.Ensures
import Mathlib.Data.List.Chain

/-!
# The elements of a document

What can be relied on in every element of a document that was read: its name and those of its
attributes are names, no two attributes are in conflict, and no two runs of text stand side by side.

* `Element.inside` : an element and all elements in it.
* `ensures_readStartTag` : what holds of a tag.
* `ensures_partStep` : the open elements stay regular.
* `isRegular_of_read` : all elements of a document are regular.
-/

namespace Crosswalk.Markup

open Text

/-! ### Elements in elements -/

mutual

/-- The element that a node is and all elements in it, outer ones first. -/
def Node.inside : Node → List Element
  | .element name attributes children => ⟨name, attributes, children⟩ :: insideAll children
  | .text _ => []
  | .aside => []

/-- The elements in some nodes. -/
def insideAll : List Node → List Element
  | [] => []
  | n :: rest => n.inside ++ insideAll rest

end

/-- An element and all elements in it, outer ones first. -/
def Element.inside (e : Element) : List Element := e.node.inside

theorem mem_insideAll {e : Element} {nodes : List Node} :
    e ∈ insideAll nodes ↔ ∃ n ∈ nodes, e ∈ n.inside := by
  induction nodes with
  | nil => simp [insideAll]
  | cons n rest ih => simp [insideAll, ih]

theorem Element.inside_eq (e : Element) : e.inside = e :: insideAll e.children := by
  rw [Element.inside, Element.node, Node.inside]

theorem Element.self_mem_inside (e : Element) : e ∈ e.inside := by
  rw [e.inside_eq]
  exact List.mem_cons_self

theorem Node.mem_inside_of_element? {n : Node} {c x : Element} (h : n.element? = some c)
    (hx : x ∈ c.inside) : x ∈ n.inside := by
  cases n with
  | element name attributes children =>
    cases h
    exact hx
  | text content => cases h
  | aside => cases h

/-- What is in a child element is in the element. -/
theorem Element.mem_inside_of_child {e c x : Element} (h : c ∈ e.elements) (hx : x ∈ c.inside) :
    x ∈ e.inside := by
  obtain ⟨n, hn, hc⟩ := List.mem_filterMap.1 h
  rw [e.inside_eq]
  exact List.mem_cons_of_mem _ (mem_insideAll.2 ⟨n, hn, Node.mem_inside_of_element? hc hx⟩)

mutual

theorem Node.mem_inside_trans {n : Node} {c x : Element} (hc : c ∈ n.inside)
    (hx : x ∈ c.inside) : x ∈ n.inside := by
  cases n with
  | element name attributes children =>
    rw [Node.inside] at hc ⊢
    rcases List.mem_cons.1 hc with rfl | hbelow
    · rw [Element.inside_eq] at hx
      exact hx
    · exact List.mem_cons_of_mem _ (mem_insideAll_trans hbelow hx)
  | text content => cases hc
  | aside => cases hc

theorem mem_insideAll_trans {nodes : List Node} {c x : Element} (hc : c ∈ insideAll nodes)
    (hx : x ∈ c.inside) : x ∈ insideAll nodes := by
  cases nodes with
  | nil => cases hc
  | cons n rest =>
    rw [insideAll, List.mem_append] at hc ⊢
    rcases hc with hfirst | hrest
    · exact Or.inl (Node.mem_inside_trans hfirst hx)
    · exact Or.inr (mem_insideAll_trans hrest hx)

end

/-- What is in something in an element is in the element. -/
theorem Element.mem_inside_trans {e c x : Element} (hc : c ∈ e.inside) (hx : x ∈ c.inside) :
    x ∈ e.inside :=
  Node.mem_inside_trans hc hx

theorem Element.mem_inside_of_mem_elements {e c : Element} (h : c ∈ e.elements) : c ∈ e.inside :=
  Element.mem_inside_of_child h c.self_mem_inside

/-- The child elements of a base name, in whatever namespace. -/
def Element.named (base : String) (e : Element) : List Element :=
  e.elements.filter (fun c => c.name.base == base)

/-- The first child of a name. -/
theorem Element.of_named_eq_cons {e c : Element} {base : String} {others : List Element}
    (h : e.named base = c :: others) : c ∈ e.elements ∧ c.name.base = base := by
  have hc : c ∈ e.named base := h ▸ List.mem_cons_self
  obtain ⟨hmem, hbase⟩ := List.mem_filter.1 hc
  exact ⟨hmem, by simpa using hbase⟩

/-! ### Regular elements -/

/-- Whether one of two nodes is no text, so that they can stand side by side. -/
def ApartFrom (m n : Node) : Prop := m.text? = none ∨ n.text? = none

/-- What holds of every element that was read, whatever is inside it. -/
structure Element.IsRegular (e : Element) : Prop where
  name : IsName e.name.base.toList
  attribute_names : ∀ a ∈ e.attributes, IsName a.name.base.toList
  distinct : (e.attributes.map Attribute.name).Nodup
  apart : e.children.IsChain ApartFrom

/-- Whether all elements in a node are regular. -/
def Node.IsRegular (n : Node) : Prop := ∀ e ∈ n.inside, e.IsRegular

/-! ### Names -/

/-- All characters that are read as a name may stand in one. -/
theorem isNameChar_of_mem_nameChars {c : Char} {colons : Nat} {cs : List Char}
    (h : c ∈ nameChars colons cs) : isNameChar c = true := by
  induction cs generalizing colons with
  | nil => cases h
  | cons d cs ih =>
    rw [nameChars] at h
    split at h
    · rename_i hcolon
      split at h
      · rcases List.mem_cons.1 h with rfl | hrest
        · rw [hcolon]
          decide
        · exact ih hrest
      · cases h
    · split at h
      · rename_i hd
        rcases List.mem_cons.1 h with rfl | hrest
        · exact hd
        · exact ih hrest
      · cases h

/-- The base is a part of what is read as a name. -/
theorem mem_of_mem_nameParts {c : Char} {chars : List Char} (h : c ∈ (nameParts chars).2) :
    c ∈ chars := by
  unfold nameParts at h
  split at h
  · exact (List.dropWhile_suffix _).mem (List.mem_of_mem_drop h)
  · exact h

theorem isName_of_beginsName {cs : List Char} (hfirst : beginsName cs = true)
    (hall : ∀ c ∈ cs, isNameChar c = true) : IsName cs := by
  cases cs with
  | nil => cases hfirst
  | cons c rest => exact ⟨c, rest, rfl, hfirst, fun d hd => hall d (List.mem_cons_of_mem _ hd)⟩

theorem ensures_readName (s : List Char) :
    Ensures (readName s) (fun r => IsName r.1.base.toList) := by
  unfold readName
  dsimp only
  split
  · exact ensures_error
  · split
    · rename_i hbegins
      rw [Bool.and_eq_true] at hbegins
      refine ensures_ok ?_
      rw [String.toList_ofList]
      refine isName_of_beginsName hbegins.2 ?_
      exact fun c hc => isNameChar_of_mem_nameChars (mem_of_mem_nameParts hc)
    · exact ensures_error

/-! ### Start tags -/

theorem ensures_readOpening (s : List Char) :
    Ensures (readOpening s) (fun r => IsName r.1.1.base.toList) := by
  unfold readOpening
  refine (ensures_readName s).bind ?_
  rintro ⟨written, afterName⟩ hname
  refine (ensures_trivial _).bind ?_
  rintro ⟨-, afterSign⟩ -
  dsimp only
  split
  · exact ensures_error
  · split
    · exact ensures_ok hname
    · exact ensures_error

theorem ensures_readAttribute (s : List Char) :
    Ensures (readAttribute s) (fun r => IsName r.1.written.base.toList) := by
  unfold readAttribute
  refine (ensures_readOpening s).bind ?_
  rintro ⟨⟨written, quote⟩, opened⟩ hname
  dsimp only
  split
  · exact ensures_error
  · refine (ensures_trivial _).bind ?_
    rintro ⟨value, rest⟩ -
    exact ensures_ok hname

/-- Whether the attributes of a tag have names. -/
def TagContents.IsNamed (contents : TagContents) : Prop :=
  ∀ a ∈ contents.attributes, IsName a.written.base.toList

theorem ensures_add {contents : TagContents} {raw : RawAttribute} (h : contents.IsNamed)
    (hraw : IsName raw.written.base.toList) : Ensures (contents.add raw) TagContents.IsNamed := by
  unfold TagContents.add
  refine (ensures_trivial _).bind ?_
  intro value _
  dsimp only
  repeat' split
  all_goals first
    | exact ensures_error
    | exact ensures_ok h
    | skip
  -- Only an attribute that declares nothing is added to those of the element.
  refine ensures_ok ?_
  intro a ha
  rcases List.mem_cons.1 ha with rfl | hold
  · exact hraw
  · exact h a hold

theorem ensures_tagStep (contents : TagContents) (s : List Char) (h : contents.IsNamed) :
    Ensures (tagStep contents s)
      (Step.Keeps TagContents.IsNamed (fun r => r.1.IsNamed)) := by
  unfold tagStep
  split
  · exact ensures_ok h
  · rename_i c r
    split
    · refine (ensures_trivial _).bind ?_
      rintro ⟨tagEnd, rest⟩ -
      dsimp only
      split
      · exact ensures_ok h
      · have hread : Ensures (rest.read readAttribute)
            (fun r => IsName r.1.written.base.toList) :=
          Ensures.read (P := fun raw : RawAttribute => IsName raw.written.base.toList) (ensures_readAttribute _)
        refine hread.bind ?_
        rintro ⟨raw, rest⟩ hraw
        refine (ensures_add h hraw).bind ?_
        intro next hnext
        exact ensures_ok hnext
    · refine (ensures_trivial _).bind ?_
      rintro ⟨tagEnd, rest⟩ -
      dsimp only
      split
      · exact ensures_ok h
      · exact ensures_error

/-- Whether attributes have names, and names that differ. -/
def AreRegular (attributes : List Attribute) : Prop :=
  (∀ a ∈ attributes, IsName a.name.base.toList) ∧ (attributes.map Attribute.name).Nodup

theorem ensures_resolveAttributes {scope : Scope} {known : List Attribute}
    {given : List OwnAttribute} (hknown : AreRegular known)
    (hgiven : ∀ a ∈ given, IsName a.written.base.toList) :
    Ensures (resolveAttributes scope known given) AreRegular := by
  induction given generalizing known with
  | nil => exact ensures_ok hknown
  | cons a rest ih =>
    unfold resolveAttributes
    refine (ensures_trivial _).bind ?_
    intro space _
    dsimp only
    split
    · exact ensures_error
    · rename_i hnew
      have hrest : ∀ b ∈ rest, IsName b.written.base.toList :=
        fun b hb => hgiven b (List.mem_cons_of_mem _ hb)
      refine ih ⟨?_, ?_⟩ hrest
      · intro b hb
        rcases List.mem_append.1 hb with hold | hlast
        · exact hknown.1 b hold
        · obtain rfl := List.mem_singleton.1 hlast
          exact hgiven a List.mem_cons_self
      · rw [List.map_append, List.nodup_append]
        refine ⟨hknown.2, by simp, ?_⟩
        intro name hname other hother heq
        obtain ⟨k, hk, rfl⟩ := List.mem_map.1 hname
        obtain rfl : other = ⟨space, a.written.base⟩ := by simpa using hother
        exact hnew (List.any_eq_true.2 ⟨k, hk, by simpa using heq⟩)

theorem ensures_resolveElement (scope : Scope) (written : Written) (here : List Char) :
    Ensures (resolveElement scope written here) (fun name => name.base = written.base) := by
  unfold resolveElement
  split
  · exact ensures_ok rfl
  · split
    · exact ensures_ok rfl
    · exact ensures_error

/-- Whether a tag has a name and its attributes have names that differ. -/
def StartTag.IsRegular (tag : StartTag) : Prop :=
  IsName tag.name.base.toList ∧ AreRegular tag.attributes

/-- **A start tag** that was read is regular. -/
theorem ensures_readStartTag (around : Scope) (s : List Char) :
    Ensures (readStartTag around s)
      (fun r => ∀ tag tagEnd, r.1 = some (tag, tagEnd) → tag.IsRegular) := by
  unfold readStartTag
  refine (ensures_readName s).bind ?_
  rintro ⟨written, rest⟩ hname
  dsimp only
  split
  · exact ensures_error
  · have hloop : Ensures (loop tagStep ⟨[], []⟩ rest) (fun r => r.1.1.IsNamed) :=
      ensures_loop ensures_tagStep _ rest (fun a ha => nomatch ha)
    refine hloop.bind ?_
    rintro ⟨⟨contents, tagEnd⟩, rest⟩ hnamed
    dsimp only
    split
    · refine ensures_ok ?_
      intro tag tagEnd htag
      cases htag
    · have hgiven : ∀ a ∈ contents.attributes.reverse, IsName a.written.base.toList :=
        fun a ha => hnamed a (List.mem_reverse.1 ha)
      have hnone : AreRegular [] := ⟨fun _ ha => (nomatch ha), List.nodup_nil⟩
      refine (ensures_resolveAttributes hnone hgiven).bind ?_
      intro attributes hattributes
      refine (ensures_resolveElement _ written s).bind ?_
      intro name hbase
      refine ensures_ok ?_
      intro tag tagEnd htag
      cases htag
      refine ⟨?_, hattributes⟩
      change IsName name.base.toList
      rw [hbase]
      exact hname

/-! ### Open elements -/

/-- Whether an open element is regular so far, and so are all elements in it. -/
structure Open.IsRegular (o : Open) : Prop where
  tag : o.tag.IsRegular
  apart : o.children.IsChain ApartFrom
  children : ∀ n ∈ o.children, n.IsRegular

theorem StartTag.IsRegular.opened {tag : StartTag} (h : tag.IsRegular) :
    Open.IsRegular ⟨tag, []⟩ :=
  ⟨h, .nil, fun _ hn => nomatch hn⟩

theorem Open.IsRegular.closed {o : Open} (h : o.IsRegular) : o.closed.IsRegular := by
  intro e he
  rw [Open.closed, Node.inside] at he
  rcases List.mem_cons.1 he with rfl | hinside
  · refine ⟨h.tag.1, h.tag.2.1, h.tag.2.2, ?_⟩
    rw [List.isChain_reverse]
    exact h.apart.imp (fun m n hmn => hmn.symm)
  · obtain ⟨n, hn, hen⟩ := mem_insideAll.1 hinside
    exact h.children n (List.mem_reverse.1 hn) e hen

theorem Open.IsRegular.add {o : Open} (h : o.IsRegular) {child : Node}
    (hchild : child.IsRegular) (hbeside : ∀ n ∈ o.children.head?, ApartFrom child n) :
    (o.add child).IsRegular := by
  refine ⟨h.tag, List.isChain_cons.2 ⟨hbeside, h.apart⟩, ?_⟩
  intro n hn
  rcases List.mem_cons.1 hn with rfl | hold
  · exact hchild
  · exact h.children n hold

theorem isRegular_text (run : String) : (Node.text run).IsRegular := fun _ he => nomatch he

/-- Text that touches text becomes part of its run, so runs stay apart. -/
theorem Open.IsRegular.addText {o : Open} (h : o.IsRegular) (text : List Char) :
    (o.addText text).IsRegular := by
  unfold Open.addText
  split
  · rename_i run before heq
    obtain ⟨htag, hapart, hchildren⟩ := h
    rw [heq] at hapart hchildren
    obtain ⟨hbeside, hbefore⟩ := List.isChain_cons.1 hapart
    refine ⟨htag, List.isChain_cons.2 ⟨?_, hbefore⟩, ?_⟩
    · intro n hn
      rcases hbeside n hn with hrun | hother
      · cases hrun
      · exact Or.inr hother
    · intro n hn
      rcases List.mem_cons.1 hn with rfl | hold
      · exact isRegular_text _
      · exact hchildren n (List.mem_cons_of_mem _ hold)
  · rename_i hnone
    refine h.add (isRegular_text _) ?_
    intro n hn
    cases n with
    | text run =>
      obtain ⟨before, heq⟩ := List.head?_eq_some_iff.1 hn
      exact absurd heq (hnone run before)
    | element name attributes children => exact Or.inr rfl
    | aside => exact Or.inr rfl

/-- Whether all open elements are regular so far. -/
def OpenElements.AreRegular (elements : OpenElements) : Prop :=
  elements.inner.IsRegular ∧ ∀ o ∈ elements.outer, o.IsRegular

namespace OpenElements.AreRegular

variable {elements : OpenElements}

/-- A child that is no text can stand beside every other one. -/
theorem add (h : elements.AreRegular) {child : Node} (hchild : child.IsRegular)
    (htext : child.text? = none) : (elements.add child).AreRegular :=
  ⟨h.1.add hchild (fun _ _ => Or.inl htext), h.2⟩

theorem addText (h : elements.AreRegular) (text : List Char) :
    (elements.addText text).AreRegular :=
  ⟨h.1.addText text, h.2⟩

theorem enter (h : elements.AreRegular) {tag : StartTag} (htag : tag.IsRegular) :
    (elements.enter tag).AreRegular := by
  refine ⟨htag.opened, ?_⟩
  intro o ho
  rcases List.mem_cons.1 ho with rfl | hold
  · exact h.1
  · exact h.2 o hold

theorem closeStep (h : elements.AreRegular) {s : List Char} (left : Left s) :
    (elements.closeStep left).Keeps OpenElements.AreRegular Node.IsRegular := by
  unfold OpenElements.closeStep
  split
  · exact h.1.closed
  · rename_i parent outer heq
    have hparent : parent.IsRegular := h.2 parent (heq ▸ List.mem_cons_self)
    have houter : ∀ o ∈ outer, o.IsRegular :=
      fun o ho => h.2 o (heq ▸ List.mem_cons_of_mem _ ho)
    exact ⟨hparent.add h.1.closed (fun _ _ => Or.inl rfl), houter⟩

end OpenElements.AreRegular

/-- **The open elements stay regular** : each part of the contents adds to the innermost one, opens
one more or closes it. -/
theorem ensures_partStep (elements : OpenElements) (s : List Char) (h : elements.AreRegular) :
    Ensures (partStep elements s)
      (Step.Keeps OpenElements.AreRegular Node.IsRegular) := by
  have haside : Node.aside.IsRegular := fun _ he => nomatch he
  unfold partStep
  split
  · exact ensures_error
  rename_i c r
  split
  · refine (ensures_trivial _).bind ?_
    rintro ⟨run, rest⟩ -
    exact ensures_ok (h.addText run)
  split
  · refine (ensures_trivial _).bind ?_
    rintro ⟨-, rest⟩ -
    exact ensures_ok (h.add haside rfl)
  split
  · refine (ensures_trivial _).bind ?_
    rintro ⟨data, rest⟩ -
    exact ensures_ok (h.addText _)
  split
  · refine (ensures_trivial _).bind ?_
    rintro ⟨-, rest⟩ -
    exact ensures_ok (h.add haside rfl)
  split
  · refine (ensures_trivial _).bind ?_
    rintro ⟨-, rest⟩ -
    exact ensures_ok (h.closeStep _)
  split
  · exact ensures_error
  refine (ensures_readStartTag _ r).bind ?_
  rintro ⟨opened, rest⟩ htag
  dsimp only
  split
  · exact ensures_error
  · exact ensures_ok (h.add (htag _ _ rfl).opened.closed rfl)
  · exact ensures_ok (h.enter (htag _ _ rfl))

/-! ### Documents -/

theorem ensures_readRoot (s : List Char) :
    Ensures (readRoot s) (fun r => ∀ n, r.1 = some n → n.IsRegular) := by
  unfold readRoot
  split
  · exact ensures_ok (fun n hn => nomatch hn)
  rename_i c r
  split
  · have hopened := ensures_readStartTag [] (Rest.tail c r).text
    refine (Ensures.read (P := fun opened => ∀ tag tagEnd, opened = some (tag, tagEnd) →
      tag.IsRegular) hopened).bind ?_
    rintro ⟨opened, rest⟩ htag
    dsimp only
    split
    · exact ensures_ok (fun n hn => nomatch hn)
    · rename_i tag
      have hclosed := (htag _ _ rfl).opened.closed
      refine ensures_ok ?_
      intro n hn
      cases hn
      exact hclosed
    · rename_i tag _ _
      have hstart : OpenElements.AreRegular ⟨⟨tag, []⟩, []⟩ :=
        ⟨(htag _ _ rfl).opened, fun o ho => nomatch ho⟩
      refine (ensures_loop ensures_partStep _ rest hstart).bind ?_
      rintro ⟨root, rest⟩ hroot
      refine ensures_ok ?_
      intro n hn
      cases hn
      exact hroot
  · exact ensures_ok (fun n hn => nomatch hn)

theorem ensures_readDocument (text : List Char) :
    Ensures (readDocument text) (fun root => ∀ e ∈ root.inside, e.IsRegular) := by
  unfold readDocument
  refine (ensures_trivial _).bind ?_
  rintro ⟨-, rest⟩ -
  refine (ensures_trivial _).bind ?_
  rintro ⟨-, rest⟩ -
  dsimp only
  split
  · exact ensures_error
  refine (Ensures.read (P := fun root => ∀ n, root = some n → n.IsRegular)
    (ensures_readRoot _)).bind ?_
  rintro ⟨root, rest⟩ hroot
  refine (ensures_trivial _).bind ?_
  rintro ⟨-, rest⟩ -
  dsimp only
  split
  · exact ensures_error
  split
  · rename_i e heq
    obtain ⟨n, hn, he⟩ := Option.bind_eq_some_iff.1 heq
    refine ensures_ok ?_
    intro x hx
    exact hroot n hn x (Node.mem_inside_of_element? he hx)
  · exact ensures_error

/-- **All elements of a document** that was read are regular. -/
theorem isRegular_of_read {text : String} {root : Element} (h : Element.read text = .ok root) :
    ∀ e ∈ root.inside, e.IsRegular := by
  unfold Element.read at h
  split at h
  · rename_i e hread
    cases h
    exact ensures_readDocument _ root hread
  · cases h

end Crosswalk.Markup
