import Crosswalk.Proofs.Path.Filtering
import Crosswalk.Proofs.Path.Readable

/-!
# The step that a filter goes on

A filter goes on the last piece of a path, or on the piece before it if the last one is an
attribute.  There it is read back as it was given, all other pieces stay as they are, and no second
filter is added to it.  Where there is no such piece, or it has brackets already, nothing is added.

* `target?_eq_some_iff` : the piece that a filter goes on.
* `Filter.isBalanced_of_value`, `Filter.isEnclosable_of_value` : a filter whose value has matching
  brackets can be carried and enclosed.
* `HasTarget.splice` : the filter is on the target of the path that it was added to.
* `splice_at_target` : what adding a filter does to a path.
-/

namespace Crosswalk

/-! ### Values with matching brackets -/

namespace Filter

variable {f : Filter}

theorem isBalanced_of_value (h : Path.isBalanced f.value = true) : f.IsBalanced :=
  Path.isWhole_of_balancedFrom h

theorem isEnclosable_of_value (h : Path.isBalanced f.value = true) : f.IsEnclosable := by
  have hchars : ("[" ++ f.value ++ "]").toList = '[' :: (f.value.toList ++ [']']) := by
    simp [String.toList_append]
  have hopened : Path.balancedFrom 0 ('[' :: (f.value.toList ++ [']']))
      = Path.balancedFrom (0 + 1) (f.value.toList ++ [']']) := by
    simp [Path.balancedFrom]
  rw [IsEnclosable, Path.isBalanced, hchars, hopened, Path.balancedFrom_append h]
  rfl

/-- A text that spells a filter is not blank. -/
theorem isBlankText_of_read {text : String} (h : read text = .ok f) :
    Text.isBlankText text = false := by
  cases hblank : Text.isBlankText text with
  | false => rfl
  | true =>
    have htrim : Text.trimChars text.toList = [] := (Text.trimChars_eq_nil_iff _).2 hblank
    rw [read, htrim] at h
    cases h

end Filter

namespace Path

/-! ### Targets -/

/-- Whether a piece of a path is the one that a filter goes on: it is the last one and no attribute,
or the only one after it is an attribute. -/
structure HasTarget (path : String) (before : List String) (piece : String)
    (after : List String) : Prop where
  pieces : split path = before ++ piece :: after
  place : (after = [] ∧ isAttributePiece piece = false) ∨
    ∃ last, after = [last] ∧ isAttributePiece last = true

variable {path filterText piece : String} {before after : List String} {f : Filter}

/-- **The piece that a filter goes on.** -/
theorem target?_eq_some_iff :
    target? (split path) = some (before, piece, after) ↔ HasTarget path before piece after := by
  constructor
  · intro h
    refine ⟨(target?_append h).symm, ?_⟩
    unfold target? at h
    split at h
    · cases h
    · split at h
      · rename_i last _ _ hlast
        split at h
        · cases h
        · cases h
          exact Or.inr ⟨last, rfl, hlast⟩
      · rename_i hlast
        cases h
        exact Or.inl ⟨rfl, by simpa using hlast⟩
  · rintro ⟨hpieces, ⟨rfl, hlast⟩ | ⟨last, rfl, hlast⟩⟩
    · rw [hpieces, target?_element hlast]
    · rw [hpieces, target?_attribute hlast]

/-- Where no piece is the one that a filter goes on, nothing is added. -/
theorem splice_of_no_target (h : ∀ before piece after, ¬ HasTarget path before piece after)
    (filterText : String) : (splice path filterText).1 = path := by
  have hnone : target? (split path) = none := by
    cases htarget : target? (split path) with
    | none => rfl
    | some parts => exact absurd (target?_eq_some_iff.1 htarget) (h _ _ _)
  unfold splice
  split
  · rfl
  · cases readFilter filterText with
    | error fault => rfl
    | ok filter => simp [hnone]

/-- Nothing is added to a piece with brackets. -/
theorem HasTarget.splice_of_bracket (h : HasTarget path before piece after)
    (hopen : '[' ∈ piece.toList) (filterText : String) : (splice path filterText).1 = path := by
  unfold Path.splice
  split
  · rfl
  · cases readFilter filterText with
    | error fault => rfl
    | ok filter => simp [target?_eq_some_iff.2 h, hopen]

/-- **The filter is on the target** of the path that it was added to. -/
theorem HasTarget.splice (h : HasTarget path before piece after)
    (hread : Filter.read filterText = .ok f) (hvalue : f.IsBalanced) (hopen : '[' ∉ piece.toList) :
    HasTarget (splice path filterText).1 before (filtered piece f) after where
  pieces := by
    have htarget := target?_eq_some_iff.2 h
    rw [splice_of_target (Filter.isBlankText_of_read hread) hread htarget hopen]
    exact split_join_filtered htarget hopen (Filter.spellable_of_read hread) hvalue
  place := by
    rw [isAttributePiece_filtered]
    exact h.place

/-- **Adding a filter to a path.**  A filter whose value has matching brackets goes on the target
and on nothing else, if the target has no brackets and is no attribute: there it is read back with
the name of the target, the path can be read if it could be before, and no further filter is added.
A text that is blank or no filter, a path without a target and a target with brackets leave the path
as it is. -/
theorem splice_at_target (path filterText : String) :
    (∀ f before piece after, Filter.read filterText = .ok f → isBalanced f.value = true →
      HasTarget path before piece after → '[' ∉ piece.toList → isAttributePiece piece = false →
        split (splice path filterText).1 = before ++ filtered piece f :: after ∧
        Segment.ofText (filtered piece f) = .element piece (some f.text) ∧
        (Segment.ofText (filtered piece f)).filter? = some f ∧
        (IsReadable path → IsReadable (splice path filterText).1) ∧
        ∀ further, (splice (splice path filterText).1 further).1 = (splice path filterText).1) ∧
    (Text.isBlankText filterText = true ∨ (∃ fault, Filter.read filterText = .error fault) ∨
      (∀ before piece after, ¬ HasTarget path before piece after) ∨
      (∃ before piece after, HasTarget path before piece after ∧ '[' ∈ piece.toList) →
        (splice path filterText).1 = path) := by
  constructor
  · intro f before piece after hread hvalue htarget hopen hmark
    have hnew := htarget.splice hread (Filter.isBalanced_of_value hvalue) hopen
    have hstep : Segment.ofText (filtered piece f) = .element piece (some f.text) :=
      Segment.ofText_filtered_of_plain hopen hmark f
    have hfilter : Filter.read? f.text = some f := by
      rw [Filter.read?, Filter.read_text (Filter.spellable_of_read hread)]
      rfl
    refine ⟨hnew.pieces, hstep, ?_, ?_, ?_⟩
    · rw [hstep, Segment.filter?, Segment.brackets?, Option.bind_some, hfilter]
    · intro hreadable
      rw [isReadable_splice_iff hreadable]
      intro other hother
      obtain rfl : f = other := Except.ok.inj (hread.symm.trans hother.spelled)
      exact Filter.isEnclosable_of_value hvalue
    · refine hnew.splice_of_bracket ?_
      rw [toList_filtered]
      simp
  · rintro (hblank | ⟨fault, hfault⟩ | hnone | ⟨before, piece, after, htarget, hopen⟩)
    · rw [splice_blank path hblank]
    · exact splice_of_fault path hfault
    · exact splice_of_no_target hnone filterText
    · exact htarget.splice_of_bracket hopen filterText

/-- A filter with a dot and brackets in its value goes on the owner of an attribute, and then no
second one does. -/
theorem splice_at_target_of_owner :
    let path : String := "r.i..@_c"
    let filterText : String := " [@k = 'a.[b]'] "
    let f : Filter := ⟨"k", "a.[b]"⟩
    let spliced : String := "r.i[@k='a.[b]'].@_c"
    (Filter.read filterText = .ok f ∧ isBalanced f.value = true ∧
      HasTarget path ["r"] "i" ["@_c"] ∧ '[' ∉ "i".toList ∧ isAttributePiece "i" = false) ∧
      (splice path filterText).1 = spliced ∧
      (split (splice path filterText).1 = ["r", "i[@k='a.[b]']", "@_c"] ∧
        Segment.ofText "i[@k='a.[b]']" = .element "i" (some "@k='a.[b]'") ∧
        (Segment.ofText "i[@k='a.[b]']").filter? = some f ∧
        (IsReadable path → IsReadable (splice path filterText).1) ∧
        ∀ further, (splice (splice path filterText).1 further).1 = (splice path filterText).1) ∧
      (HasTarget spliced ["r"] "i[@k='a.[b]']" ["@_c"] ∧
        (splice spliced "@k='1'").1 = spliced) := by
  intro path filterText f spliced
  have hread : Filter.read filterText = .ok f := by decide +kernel
  have hvalue : isBalanced f.value = true := by decide
  have htarget : HasTarget path ["r"] "i" ["@_c"] := ⟨by decide, Or.inr ⟨"@_c", rfl, by decide⟩⟩
  have hagain : HasTarget spliced ["r"] "i[@k='a.[b]']" ["@_c"] :=
    ⟨by decide, Or.inr ⟨"@_c", rfl, by decide⟩⟩
  refine ⟨⟨hread, hvalue, htarget, by decide, by decide⟩, by decide +kernel, ?_, hagain, ?_⟩
  · exact (splice_at_target path filterText).1 f ["r"] "i" ["@_c"] hread hvalue htarget (by decide)
      (by decide)
  · exact (splice_at_target spliced "@k='1'").2 (Or.inr (Or.inr (Or.inr
      ⟨["r"], "i[@k='a.[b]']", ["@_c"], hagain, by decide⟩)))

end Path

end Crosswalk
