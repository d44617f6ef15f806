import Crosswalk.Markup.Document
import Crosswalk.Preview.Finding
import Crosswalk.Proofs.Path.Spelling

/-!
# Steps that make no difference in markup

In markup a position goes nowhere, and text in brackets that spells no filter is passed over.  So a
path may lose such positions and such brackets and leads to the same value.  Only the first piece has
to stay, even if it is a position: it alone may name the outermost element, and the piece that took
its place would be read as that name.

* `Path.SimplifiesTo` : the pieces that a path may be cut down to.
* `followMarkup?_digits`, `followMarkup?_cut` : one step that makes no difference.
* `followMarkup?_thinned` : all of them.
* `findText?_simplified` : the value that a simpler path leads to.
-/

namespace Crosswalk

namespace Path

/-! ### Simpler pieces -/

/-- Whether a piece is another one, or what is left of it without its brackets.  Brackets are cut off
if they hold no filter and stand behind a name: a text that is not empty, is not made of digits alone
and has no mark of an attribute. -/
inductive CutsTo : String → String → Prop
  | same (piece : String) : CutsTo piece piece
  | brackets {name body : String} (hne : name ≠ "") (hopen : '[' ∉ name.toList)
      (hdigits : Segment.isDigits name.toList = false) (hmark : isAttributePiece name = false)
      (hbody : Filter.read? body = none) : CutsTo (name ++ "[" ++ body ++ "]") name

/-- Whether pieces are what is left of others when some are cut and some that are made of digits alone
are left out. -/
inductive ThinsTo : List String → List String → Prop
  | nil : ThinsTo [] []
  | keep {piece kept : String} {rest left : List String} (h : CutsTo piece kept)
      (hrest : ThinsTo rest left) : ThinsTo (piece :: rest) (kept :: left)
  | drop {piece : String} {rest left : List String} (h : Segment.isDigits piece.toList = true)
      (hrest : ThinsTo rest left) : ThinsTo (piece :: rest) left

/-- Whether pieces are what is left of others when some are cut and some that are made of digits alone
are left out, but not the first one. -/
inductive SimplifiesTo : List String → List String → Prop
  | nil : SimplifiesTo [] []
  | cons {first kept : String} {rest left : List String} (h : CutsTo first kept)
      (hrest : ThinsTo rest left) : SimplifiesTo (first :: rest) (kept :: left)

theorem SimplifiesTo.thinsTo {pieces left : List String} (h : SimplifiesTo pieces left) :
    ThinsTo pieces left := by
  cases h with
  | nil => exact .nil
  | cons h hrest => exact .keep h hrest

/-! ### What is left is still divided -/

section Cut

variable {piece kept : String}

/-- A piece that is cut keeps a character. -/
theorem CutsTo.ne_nil (h : CutsTo piece kept) (hpiece : piece.toList ≠ []) : kept.toList ≠ [] := by
  cases h with
  | same => exact hpiece
  | brackets hne => simpa using hne

theorem CutsTo.isWhole (h : CutsTo piece kept) (hpiece : IsWhole 0 piece.toList) :
    IsWhole 0 kept.toList := by
  cases h with
  | same => exact hpiece
  | brackets =>
    rw [toList_bracketed, isWhole_append] at hpiece
    exact hpiece.1

theorem CutsTo.isClosed (h : CutsTo piece kept) (hpiece : IsClosed piece.toList) :
    IsClosed kept.toList := by
  cases h with
  | same => exact hpiece
  | brackets _ hopen => exact isClosed_of_no_opening hopen

end Cut

section Thin

variable {pieces left : List String}

theorem ThinsTo.ne_nil (h : ThinsTo pieces left) (hpieces : ∀ p ∈ pieces, p.toList ≠ []) :
    ∀ p ∈ left, p.toList ≠ [] := by
  induction h with
  | nil => exact hpieces
  | keep h _ ih =>
    obtain ⟨hfirst, hrest⟩ := List.forall_mem_cons.1 hpieces
    exact List.forall_mem_cons.2 ⟨h.ne_nil hfirst, ih hrest⟩
  | drop _ _ ih => exact ih (List.forall_mem_cons.1 hpieces).2

theorem ThinsTo.divided (h : ThinsTo pieces left) (hpieces : Divided (pieces.map String.toList)) :
    Divided (left.map String.toList) := by
  induction h with
  | nil => exact trivial
  | @keep piece kept rest left h hrest ih =>
    obtain ⟨hwhole, hclosed, hlater⟩ := hpieces
    refine ⟨h.isWhole hwhole, ?_, ih hlater⟩
    intro hne
    apply h.isClosed
    apply hclosed
    -- Nothing is left of no pieces.
    intro hnil
    obtain rfl := List.map_eq_nil_iff.1 hnil
    cases hrest
    exact hne rfl
  | drop _ _ ih => exact ih hpieces.2.2

/-- The pieces that a path may be cut down to are read again from their join. -/
theorem ThinsTo.split_join {path : String} (h : ThinsTo (split path) left) :
    split (join left) = left :=
  Path.split_join (h.divided (divided_split path)) (h.ne_nil fun _ hp => ne_empty_of_mem_split hp)

end Thin

end Path

namespace Preview

open Markup

variable {root : Name}

/-! ### Steps -/

/-- What follows a step matters only for where it leads. -/
theorem followMarkup?_congr {rest left : List Segment}
    (h : ∀ e, followMarkup? root false rest e = followMarkup? root false left e)
    (isFirst : Bool) (step : Segment) (e : Element) :
    followMarkup? root isFirst (step :: rest) e = followMarkup? root isFirst (step :: left) e := by
  match step with
  | .element base brackets => simp only [followMarkup?, h]
  | .attribute name => rfl
  | .index n => exact h e

/-- **A piece of digits alone** goes nowhere, whether it fits 64 bits or not. -/
theorem followMarkup?_digits {piece : String} (h : Segment.isDigits piece.toList = true)
    (isFirst : Bool) (rest : List Segment) (e : Element) :
    followMarkup? root isFirst (Segment.ofText piece :: rest) e
      = followMarkup? root false rest e := by
  rcases Segment.ofText_of_isDigits h with ⟨n, hstep⟩ | hstep
  · rw [hstep, followMarkup?]
  · rw [hstep, followMarkup?, h]
    rfl

/-- **Brackets that hold no filter** are passed over. -/
theorem followMarkup?_cut {piece kept : String} (h : Path.CutsTo piece kept) (isFirst : Bool)
    (rest : List Segment) (e : Element) :
    followMarkup? root isFirst (Segment.ofText piece :: rest) e
      = followMarkup? root isFirst (Segment.ofText kept :: rest) e := by
  cases h with
  | same => rfl
  | @brackets _ body _ hopen hdigits hmark hbody =>
    rw [Segment.ofText_bracketed hopen hmark, Segment.ofText_of_plain hopen hdigits hmark,
      followMarkup?, followMarkup?, hdigits, Option.bind_some, hbody]
    rfl

/-! ### All of them -/

/-- **A search** finds the same after all steps that make no difference. -/
theorem followMarkup?_thinned {pieces left : List String} (h : Path.ThinsTo pieces left)
    (e : Element) :
    followMarkup? root false (pieces.map Segment.ofText) e
      = followMarkup? root false (left.map Segment.ofText) e := by
  induction h generalizing e with
  | nil => rfl
  | keep h _ ih =>
    rw [List.map_cons, List.map_cons, followMarkup?_cut h]
    exact followMarkup?_congr ih false _ e
  | drop h _ ih =>
    rw [List.map_cons, followMarkup?_digits h]
    exact ih e

/-- **A simpler path** leads to the same value in every document: the join of what is left of the
pieces of a path when pieces of digits alone are left out behind the first one and brackets that hold
no filter are cut off from names. -/
theorem findText?_simplified {path : String} {pieces : List String}
    (h : Path.SimplifiesTo (Path.split path) pieces) (root : Element) :
    findText? (Path.join pieces) root = findText? path root := by
  have hpieces : Path.split (Path.join pieces) = pieces := h.thinsTo.split_join
  rw [findText?, findText?, Path.segments_eq_map, Path.segments_eq_map, hpieces]
  generalize Path.split path = whole at h
  cases h with
  | nil => rfl
  | cons h hrest =>
    rw [List.map_cons, List.map_cons, followMarkup?_cut h]
    exact followMarkup?_congr (fun e => (followMarkup?_thinned hrest e).symm) true _ root

/-- A first piece of digits that has to stay, a position of more than 64 bits that may go, and two
pairs of brackets without a filter, one of them with a dot and further brackets in it. -/
theorem findText?_simplified_behind_digits :
    let path := "0.r[a.[b]].99999999999999999999.i[]"
    ∃ root, Element.read "<r><r><i>x</i></r></r>" = .ok root ∧
      Path.SimplifiesTo (Path.split path) ["0", "r", "i"] ∧
      findText? (Path.join ["0", "r", "i"]) root = findText? path root ∧
      findText? path root = some "x" := by
  intro path
  have hsimple : Path.SimplifiesTo (Path.split path) ["0", "r", "i"] := by
    have hsplit : Path.split path
        = ["0", "r" ++ "[" ++ "a.[b]" ++ "]", "99999999999999999999", "i" ++ "[" ++ "" ++ "]"] := by
      decide
    rw [hsplit]
    refine .cons (.same "0") (.keep ?_ (.drop (by decide) (.keep ?_ .nil)))
    · exact .brackets (by decide) (by decide) (by decide) (by decide) (by decide +kernel)
    · exact .brackets (by decide) (by decide) (by decide) (by decide) (by decide +kernel)
  have hfound : ((Element.read "<r><r><i>x</i></r></r>").toOption.bind (findText? path))
      = some "x" := by
    decide +kernel
  cases hread : Element.read "<r><r><i>x</i></r></r>" with
  | error e =>
    rw [hread] at hfound
    cases hfound
  | ok root =>
    rw [hread] at hfound
    exact ⟨root, rfl, hsimple, findText?_simplified hsimple root, hfound⟩

end Preview

end Crosswalk
