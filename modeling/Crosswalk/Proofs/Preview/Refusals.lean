import Crosswalk.Proofs.Fields
import Crosswalk.Proofs.Preview.Outputs
import Mathlib.Logic.Basic

/-!
# What is written is found, or refused as a whole

A write gives up only where a step by name meets an array, or in a value that is no container.  It
never gives up behind a place that it has changed, because every container that it makes can take
the step it was made for.  So a value that is written is found again at its path, or nothing has
changed at all.

* `entersByName` : the paths that come to an array by name.
* `isFree_of_not_entersByName` : nothing else is in the way of a path.
* `write_of_entersByName` : writing to such a path changes nothing.
* `findValue?_writeAt` : what is written is found, exactly where it is not refused.
-/

namespace Crosswalk.Preview

/-- Whether a value is an array. -/
def isArray : Json.Value → Bool
  | .array _ => true
  | _ => false

/-- Whether some steps, followed through the containers of a value, come to an array that the next
of them would enter by name. -/
def entersByName : List String → Json.Value → Bool
  | [], _ => false
  | key :: rest, v => (isArray v && !isPosition key) || (slot? key v).any (entersByName rest)

/-- Whether a value takes nothing at the end of some steps: it is no container, or the steps enter
an array by name. -/
def Refuses (v : Json.Value) (steps : List String) : Prop :=
  v.isContainer = false ∨ entersByName steps v = true

instance (v : Json.Value) (steps : List String) : Decidable (Refuses v steps) :=
  inferInstanceAs (Decidable (_ ∨ _))

variable {key : String} {steps rest : List String} {value v x : Json.Value}

theorem isArray_eq_true_iff : isArray v = true ↔ ∃ items, v = .array items := by
  cases v <;> simp [isArray]

/-- An array is entered by name right away or further on. -/
theorem entersByName_cons : entersByName (key :: rest) v = true ↔
    ((∃ items, v = .array items) ∧ isPosition key = false) ∨
      ∃ next, slot? key v = some next ∧ entersByName rest next = true := by
  rw [entersByName, Bool.or_eq_true, Bool.and_eq_true, isArray_eq_true_iff, Bool.not_eq_true',
    Option.any_eq_true]

/-! ### Writes that are carried out -/

theorem accepts_of_not_entersByName (hkey : IsSized key) (hv : v.isContainer = true)
    (h : entersByName (key :: rest) v ≠ true) : Accepts key v := by
  cases v with
  | object fields => trivial
  | array items =>
    apply hkey.isSome_indexOf?
    cases hposition : isPosition key with
    | true => rfl
    | false => exact absurd (entersByName_cons.2 (Or.inl ⟨⟨items, rfl⟩, hposition⟩)) h
  | _ => cases hv

/-- **Nothing is in the way** of steps that enter no array by name. -/
theorem isFree_of_not_entersByName (hsteps : ∀ key ∈ steps, IsSized key)
    (h : entersByName steps v ≠ true) : IsFree steps v := by
  induction steps generalizing v with
  | nil => trivial
  | cons key rest ih =>
    intro hv
    refine ⟨accepts_of_not_entersByName (hsteps key List.mem_cons_self) hv h, ?_⟩
    intro next hnext
    refine ih (fun k hk => hsteps k (List.mem_cons_of_mem _ hk)) ?_
    intro henters
    exact h (entersByName_cons.2 (Or.inr ⟨next, hnext, henters⟩))

/-! ### Writes that are refused -/

/-- A change that leaves what stands in a slot changes nothing. -/
theorem modifyAt_of_slot? {change : Json.Value → Json.Value} (h : slot? key v = some x)
    (hsame : change x = x) : modifyAt key change v = v := by
  cases v with
  | object fields =>
    have hget : Fields.get? key fields = some x := h
    simp [modifyAt, hget, hsame, Fields.put_of_get? hget]
  | array items =>
    obtain ⟨n, hn, hx⟩ := Option.bind_eq_some_iff.1 h
    obtain ⟨hlt, hitem⟩ := List.getElem?_eq_some_iff.1 hx
    have hpadded : padded items n = items := by
      rw [padded, Nat.sub_eq_zero_of_le hlt, List.replicate_zero, List.append_nil]
    have hmodify : items.modify n change = items := by
      apply List.ext_getElem?
      intro i
      by_cases heq : n = i
      · subst heq
        simp [hx, hsame]
      · simp [heq]
    simp [modifyAt, hn, hpadded, hmodify]
  | _ => simp [slot?] at h

/-- A container in which steps enter an array by name needs no preparation. -/
theorem prepared_of_entersByName (h : entersByName steps v = true) (key : String) :
    prepared key v = v := by
  cases steps with
  | nil => cases h
  | cons first rest =>
    rcases entersByName_cons.1 h with ⟨⟨items, rfl⟩, -⟩ | ⟨next, hnext, -⟩
    · rfl
    · exact prepared_of_slot? hnext key

/-- **Steps that enter an array by name** write nothing. -/
theorem write_of_entersByName (value : Json.Value) (h : entersByName steps v = true) :
    write value steps v = v := by
  induction steps generalizing v with
  | nil => cases h
  | cons key rest ih =>
    rw [write_cons]
    rcases entersByName_cons.1 h with ⟨⟨items, rfl⟩, hname⟩ | ⟨next, hnext, hrest⟩
    · have hdigits : Segment.isDigits key.toList = false := hname
      simp [modifyAt, Segment.indexOf?, hdigits]
    · apply modifyAt_of_slot? hnext
      cases rest with
      | nil => cases hrest
      | cons second rest => rw [filled, prepared_of_entersByName hrest, ih hrest]

/-- A value that is no container takes nothing. -/
theorem write_of_not_isContainer (value : Json.Value) (hne : steps ≠ [])
    (hv : v.isContainer = false) : write value steps v = v := by
  obtain ⟨key, rest, rfl⟩ := List.exists_cons_of_ne_nil hne
  rw [write_cons]
  cases v with
  | array items => cases hv
  | object fields => cases hv
  | _ => rfl

theorem write_of_refuses (value : Json.Value) (hne : steps ≠ []) (h : Refuses v steps) :
    write value steps v = v :=
  h.elim (write_of_not_isContainer value hne) (write_of_entersByName value)

/-- What is not refused arrives at the end of its steps. -/
theorem reach?_write_of_not_refuses (hne : steps ≠ []) (hsteps : ∀ key ∈ steps, IsSized key)
    (h : ¬ Refuses v steps) : reach? steps (write value steps v) = some value := by
  obtain ⟨hv, henters⟩ := not_or.1 h
  have hfree : IsFree steps v := isFree_of_not_entersByName hsteps henters
  exact reach?_write_self hne hsteps (by simpa using hv) hfree

/-- **What is written is found**, or nothing is changed at all.  It stands at the end of its path
unless the value is no container or the path enters an array of it by name; and then nothing is
changed. -/
theorem findValue?_writeAt {path : String} {value t : Json.Value} (hne : Path.split path ≠ [])
    (hsteps : ∀ key ∈ Path.split path, IsSized key) (hvalue : value ≠ .null) :
    (findValue? path (writeAt path value t) = some value ∨ writeAt path value t = t) ∧
      (reach? (Path.split path) (writeAt path value t) = some value ∨
        Refuses t (Path.split path)) ∧
      (Refuses t (Path.split path) → writeAt path value t = t) := by
  have hpresent : present value = some value := by
    cases value with
    | null => exact absurd rfl hvalue
    | _ => rfl
  have hrefused : Refuses t (Path.split path) → writeAt path value t = t :=
    write_of_refuses value hne
  by_cases h : Refuses t (Path.split path)
  · exact ⟨Or.inr (hrefused h), Or.inr h, hrefused⟩
  · have hreach : reach? (Path.split path) (writeAt path value t) = some value :=
      reach?_write_of_not_refuses hne hsteps h
    have hfound : findValue? path (writeAt path value t) = some value := by
      rw [findValue?, followValue?_of_reach? hne hreach, hpresent]
    exact ⟨Or.inl hfound, Or.inl hreach, hrefused⟩

/-- An array that grows, a null that gives way to an object, and a name for an array. -/
theorem findValue?_writeAt_beside_items :
    let t : Json.Value := .object [("a", .array [.object []]), ("n", .null)]
    (¬ Refuses t ["a", "2", "b"] ∧ ¬ Refuses t ["n", "x"] ∧ Refuses t ["a", "b"]) ∧
      ∀ path ∈ ["a.2.b", "n..x", "a.b"],
        (Path.split path ≠ [] ∧ (∀ key ∈ Path.split path, IsSized key) ∧
          Json.Value.bool true ≠ .null) ∧
        (findValue? path (writeAt path (.bool true) t) = some (.bool true) ∨
          writeAt path (.bool true) t = t) ∧
        (reach? (Path.split path) (writeAt path (.bool true) t) = some (.bool true) ∨
          Refuses t (Path.split path)) ∧
        (Refuses t (Path.split path) → writeAt path (.bool true) t = t) := by
  intro t
  refine ⟨by decide, ?_⟩
  intro path hpath
  have hvalid : Path.split path ≠ [] ∧ ∀ key ∈ Path.split path, IsSized key := by
    revert path
    decide +kernel
  have hvalue : Json.Value.bool true ≠ .null := by simp
  exact ⟨⟨hvalid.1, hvalid.2, hvalue⟩, findValue?_writeAt hvalid.1 hvalid.2 hvalue⟩

end Crosswalk.Preview
