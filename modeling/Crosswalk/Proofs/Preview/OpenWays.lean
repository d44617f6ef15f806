import Crosswalk.Preview.Finding
import Crosswalk.Proofs.Markup.Regular
import Crosswalk.Proofs.Path.Names
import Mathlib.Data.List.Infix

/-!
# Ways that are open to a search

Names lead down a document by way of the first child of each name.  A search asks for more: it takes
the first child of a name that has the namespace of the outermost element, or, if there is none, the
first that has no namespace.  It goes by what was read, and there an empty namespace that is declared
is not the same as none.  A way is open if all elements on it have the namespace of the outermost
one, and then the search takes that way.  In documents of one namespace all ways are open; where the
elements have none, a way is closed by an element that declares the empty namespace.

* `reached?`, `seen?` : the elements that names and searches lead to.
* `findText?_of_seen` : what is found at a path of names.
* `IsOpenWay.seen?_eq` : a search takes an open way.
* `isOpenWay_of_inOneSpace` : the ways that are open in documents of one namespace.
-/

namespace Crosswalk

namespace Markup

/-- The namespace that a name belongs to, if it belongs to one: the empty namespace, which can be
declared, is none. -/
def Name.namespace? (name : Name) : Option String :=
  if name.space = some "" then none else name.space

theorem Name.space_eq_of_namespace? {name : Name} {space : String}
    (h : name.namespace? = some space) : name.space = some space := by
  unfold Name.namespace? at h
  split at h
  · cases h
  · exact h

/-- Whether all elements in a document belong to one namespace, or all to none. -/
def Element.InOneSpace (root : Element) : Prop :=
  ∀ e ∈ root.inside, e.name.namespace? = root.name.namespace?

instance (root : Element) : Decidable root.InOneSpace :=
  inferInstanceAs (Decidable (∀ e ∈ root.inside, e.name.namespace? = root.name.namespace?))

end Markup

namespace Preview

open Markup

/-! ### By way of first children -/

/-- The element that some names lead to, by way of the first child of each name. -/
def reached? : List String → Element → Option Element
  | [], e => some e
  | base :: rest, e => (e.named base).head?.bind (reached? rest)

/-- What is reached is in the element, and so are elements of all the names. -/
theorem mem_inside_of_reached? {names : List String} {e c : Element}
    (h : reached? names e = some c) :
    c ∈ e.inside ∧ ∀ base ∈ names, ∃ x ∈ e.inside, x.name.base = base := by
  induction names generalizing e with
  | nil =>
    obtain rfl : e = c := Option.some.inj h
    exact ⟨e.self_mem_inside, fun base hbase => nomatch hbase⟩
  | cons base rest ih =>
    obtain ⟨x, hx, hrest⟩ := Option.bind_eq_some_iff.1 h
    obtain ⟨others, hnamed⟩ := List.head?_eq_some_iff.1 hx
    obtain ⟨helement, hbase⟩ := Element.of_named_eq_cons hnamed
    obtain ⟨hc, hbases⟩ := ih hrest
    refine ⟨Element.mem_inside_of_child helement hc, ?_⟩
    intro b hb
    rcases List.mem_cons.1 hb with rfl | hlater
    · exact ⟨x, Element.mem_inside_of_mem_elements helement, hbase⟩
    · obtain ⟨y, hy, hname⟩ := hbases b hlater
      exact ⟨y, Element.mem_inside_of_child helement hy, hname⟩

/-- Names lead on from where earlier names led. -/
theorem reached?_append (names later : List String) (e : Element) :
    reached? (names ++ later) e = (reached? names e).bind (reached? later) := by
  induction names generalizing e with
  | nil => rfl
  | cons base names ih =>
    rw [List.cons_append, reached?, reached?, Option.bind_assoc]
    congr 1
    funext x
    exact ih x

/-! ### By way of a search -/

/-- The element that a search comes to by some names, if the outermost element has the given
namespace. -/
def seen? (space : Option String) : List String → Element → Option Element
  | [], e => some e
  | base :: rest, e => (childrenNamed space base e).head?.bind (seen? space rest)

theorem seen?_append (space : Option String) (names later : List String) (e : Element) :
    seen? space (names ++ later) e = (seen? space names e).bind (seen? space later) := by
  induction names generalizing e with
  | nil => rfl
  | cons base names ih =>
    rw [List.cons_append, seen?, seen?, Option.bind_assoc]
    congr 1
    funext x
    exact ih x

theorem mem_childrenNamed {space : Option String} {base : String} {e c : Element}
    (h : c ∈ childrenNamed space base e) : c ∈ e.elements ∧ c.name.base = base := by
  unfold childrenNamed at h
  split at h
  · obtain ⟨hmem, hname⟩ := List.mem_filter.1 h
    exact ⟨hmem, congrArg Name.base (beq_iff_eq.1 hname)⟩
  · obtain ⟨hmem, hname⟩ := List.mem_filter.1 h
    exact ⟨hmem, congrArg Name.base (beq_iff_eq.1 hname)⟩

/-- What a search comes to is in the element. -/
theorem mem_inside_of_seen? {space : Option String} {names : List String} {e c : Element}
    (h : seen? space names e = some c) : c ∈ e.inside := by
  induction names generalizing e with
  | nil =>
    obtain rfl : e = c := Option.some.inj h
    exact e.self_mem_inside
  | cons base rest ih =>
    obtain ⟨x, hx, hrest⟩ := Option.bind_eq_some_iff.1 h
    have hchild : x ∈ e.elements := (mem_childrenNamed (List.mem_of_mem_head? hx)).1
    exact Element.mem_inside_of_child hchild (ih hrest)

theorem followMarkup?_nil (root : Name) (isFirst : Bool) :
    followMarkup? root isFirst [] = Element.leadingText? := by
  funext e
  rw [followMarkup?]

/-- A step that is no position leads to the first child that a search takes for its name. -/
theorem followMarkup?_name {root : Name} {base : String}
    (hdigits : Segment.isDigits base.toList = false) (rest : List Segment) (e : Element) :
    followMarkup? root false (.element base none :: rest) e
      = (childrenNamed root.space base e).head?.bind (followMarkup? root false rest) := by
  rw [followMarkup?, hdigits]
  cases (childrenNamed root.space base e).head? with
  | none => rfl
  | some next => rfl

/-- **A search by names** goes on from the element that it comes to. -/
theorem followMarkup?_seen {root : Name} {names : List String}
    (hnames : ∀ base ∈ names, IsName base.toList) (rest : List Segment) (e : Element) :
    followMarkup? root false (names.map Segment.ofText ++ rest) e
      = (seen? root.space names e).bind (followMarkup? root false rest) := by
  induction names generalizing e with
  | nil => rfl
  | cons base later ih =>
    obtain ⟨hbase, hlater⟩ := List.forall_mem_cons.1 hnames
    rw [List.map_cons, List.cons_append, Segment.ofText_of_isName hbase,
      followMarkup?_name (Segment.isDigits_of_isName hbase), seen?, Option.bind_assoc]
    congr 1
    funext x
    exact ih hlater x

/-- The first step of a path names the outermost element, and a search goes on from there. -/
theorem findText?_of_seen {root : Element} (hroot : IsName root.name.base.toList) {path : String}
    {names steps : List String} (hpath : Path.split path = root.name.base :: (names ++ steps))
    (hnames : ∀ base ∈ names, IsName base.toList) :
    findText? path root
      = (seen? root.name.space names root).bind
          (followMarkup? root.name false (steps.map Segment.ofText)) := by
  have hfirst : ∀ rest, followMarkup? root.name true (.element root.name.base none :: rest) root
      = followMarkup? root.name false rest root := by
    intro rest
    simp [followMarkup?, Segment.isDigits_of_isName hroot]
  rw [findText?, Path.segments_eq_map, hpath, List.map_cons, Segment.ofText_of_isName hroot, hfirst,
    List.map_append, followMarkup?_seen hnames]

/-! ### Open ways -/

/-- Whether all elements that some names pass have the namespace of the outermost one, as it was
read. -/
def IsOpenWay (root : Element) (names : List String) : Prop :=
  ∀ taken, taken <+: names → ∀ e, reached? taken root = some e → e.name.space = root.name.space

instance (root : Element) (names : List String) : Decidable (IsOpenWay root names) :=
  decidable_of_iff
    (∀ taken ∈ names.inits, ∀ e ∈ reached? taken root, e.name.space = root.name.space)
    (by simp only [List.mem_inits, Option.mem_def, IsOpenWay])

/-- A search takes the first child of a name if that has the namespace of the outermost element. -/
theorem head?_childrenNamed {space : Option String} {base : String} {e c : Element}
    (h : (e.named base).head? = some c) (hspace : c.name.space = space) :
    (childrenNamed space base e).head? = some c := by
  have hpreferred : e.elements.filter (fun x => x.name == ⟨space, base⟩)
      = (e.named base).filter (fun x => x.name.space == space) := by
    rw [Element.named, List.filter_filter]
    refine List.filter_congr ?_
    intro x _
    rw [Bool.eq_iff_iff, Bool.and_eq_true, beq_iff_eq, beq_iff_eq, beq_iff_eq]
    constructor
    · intro hname
      rw [hname]
      exact ⟨rfl, rfl⟩
    · rintro ⟨rfl, rfl⟩
      rfl
  obtain ⟨others, hnamed⟩ := List.head?_eq_some_iff.1 h
  unfold childrenNamed
  rw [hpreferred, hnamed, List.filter_cons_of_pos (by simpa using hspace)]
  rfl

/-- **A search takes an open way.** -/
theorem seen?_of_reached? {space : Option String} {names : List String} {e c : Element}
    (h : reached? names e = some c)
    (hspace : ∀ taken, taken <+: names → ∀ x, reached? taken e = some x → x.name.space = space) :
    seen? space names e = some c := by
  induction names generalizing e with
  | nil => exact h
  | cons base rest ih =>
    obtain ⟨x, hx, hrest⟩ := Option.bind_eq_some_iff.1 h
    have hbelow : ∀ taken, reached? (base :: taken) e = reached? taken x := by
      intro taken
      rw [reached?, hx, Option.bind_some]
    have hfirst : x.name.space = space :=
      hspace [base] (List.prefix_cons_inj base |>.2 (List.nil_prefix)) x (hbelow [])
    rw [seen?, head?_childrenNamed hx hfirst, Option.bind_some]
    refine ih hrest ?_
    intro taken htaken y hy
    exact hspace (base :: taken) ((List.prefix_cons_inj base).2 htaken) y ((hbelow taken).trans hy)

namespace IsOpenWay

variable {root : Element} {names : List String}

theorem seen?_eq (h : IsOpenWay root names) {c : Element} (hreached : reached? names root = some c) :
    seen? root.name.space names root = some c :=
  seen?_of_reached? hreached h

theorem of_append {later : List String} (h : IsOpenWay root (names ++ later)) :
    IsOpenWay root names :=
  fun taken htaken => h taken (htaken.trans (List.prefix_append names later))

end IsOpenWay

/-- All ways are open where no two elements were read with different namespaces. -/
theorem isOpenWay_of_same {root : Element}
    (h : ∀ e ∈ root.inside, e.name.space = root.name.space) (names : List String) :
    IsOpenWay root names :=
  fun _ _ e he => h e (mem_inside_of_reached? he).1

/-- **In a document of one namespace** all ways are open, if they are where that namespace is none. -/
theorem isOpenWay_of_inOneSpace {root : Element} (h : root.InOneSpace) {names : List String}
    (hnone : root.name.namespace? = none → IsOpenWay root names) : IsOpenWay root names := by
  cases hspace : root.name.namespace? with
  | none => exact hnone hspace
  | some space =>
    intro taken _ e he
    have hsame : e.name.namespace? = some space :=
      (h e (mem_inside_of_reached? he).1).trans hspace
    rw [Name.space_eq_of_namespace? hsame, Name.space_eq_of_namespace? hspace]

end Preview

end Crosswalk
