import Crosswalk.Preview.Finding
import Crosswalk.Preview.Writing
import Crosswalk.Proofs.Path.Positions

/-!
# Slots

The slots of a container are the fields of an object and the items of an array.  A change at a step
changes the slot of that step and no other; it may also bring in new slots, which hold an empty
object.  A search passes through slots as long as none of them holds null.

* `slot?_modifyAt_self` and `slot?_modifyAt_of_ne` : what stands in the slots after a change.
* `slot?_modifyAt_inv` : what stands in a slot after a change elsewhere stood there before or is new.
* `followValue?_of_reach?` : what stands at the end of a path is found, unless it is null.
-/

namespace Crosswalk.Preview

/-- What stands in the slot of a step. -/
def slot? (key : String) : Json.Value → Option Json.Value
  | .object fields => Fields.get? key fields
  | .array items => (Segment.indexOf? key.toList).bind fun n => items[n]?
  | _ => none

/-- What stands at the end of some steps, each of which goes to a slot. -/
def reach? : List String → Json.Value → Option Json.Value
  | [], v => some v
  | key :: rest, v => (slot? key v).bind (reach? rest)

/-- Whether a value is a container that has, or can be given, a slot for a step. -/
def Accepts (key : String) : Json.Value → Prop
  | .object _ => True
  | .array _ => (Segment.indexOf? key.toList).isSome = true
  | _ => False

/-- What a change at a step starts from: what stands in the slot, or what an empty slot counts as. -/
def standing (key : String) (v : Json.Value) : Json.Value :=
  (slot? key v).getD (match v with | .array _ => .object [] | _ => .null)

/-- Whether a step is a name or the usual spelling of a position. -/
def IsCanonical (key : String) : Prop :=
  isPosition key = true → ∃ n, n < Segment.positionCount ∧ key = toString n

/-- A canonical position spells the number that it is read as. -/
theorem IsCanonical.eq_toString {key : String} (h : IsCanonical key) {n : Nat}
    (hn : Segment.indexOf? key.toList = some n) : key = toString n := by
  obtain ⟨m, hm, rfl⟩ := h (Segment.isDigits_of_indexOf? hn)
  rw [Segment.indexOf?_toString hm] at hn
  exact congrArg toString (Option.some.inj hn)

/-- Whether a step is a name or a position that 64 bits can hold. -/
def IsSized (key : String) : Prop :=
  isPosition key = true → Nat.ofDigitChars 10 key.toList 0 < Segment.positionCount

instance (key : String) : Decidable (IsSized key) :=
  inferInstanceAs (Decidable (_ → _))

theorem IsCanonical.isSized {key : String} (h : IsCanonical key) : IsSized key := by
  intro hposition
  obtain ⟨n, hn, rfl⟩ := h hposition
  rwa [Segment.ofDigitChars_toString]

/-- A position that 64 bits can hold is read as a number. -/
theorem IsSized.isSome_indexOf? {key : String} (h : IsSized key)
    (hposition : isPosition key = true) : (Segment.indexOf? key.toList).isSome = true := by
  have hdigits : Segment.isDigits key.toList = true := hposition
  simp [Segment.indexOf?, hdigits, h hposition]

/-! ### Slots after a change -/

section Change

variable {key other : String} {v x : Json.Value} {change : Json.Value → Json.Value}

theorem accepts_of_slot? (h : slot? key v = some x) : Accepts key v := by
  cases v with
  | object fields => trivial
  | array items =>
    obtain ⟨n, hn, -⟩ := Option.bind_eq_some_iff.1 h
    simp [Accepts, hn]
  | _ => simp [slot?] at h

theorem standing_of_slot? (h : slot? key v = some x) : standing key v = x := by
  simp [standing, h]

/-- An empty slot counts as null in an object and as an empty object in an array. -/
theorem standing_of_no_slot (h : slot? key v = none) :
    standing key v = .null ∨ standing key v = .object [] := by
  unfold standing
  rw [h, Option.getD_none]
  split
  · exact .inr rfl
  · exact .inl rfl

theorem getElem?_padded {items : List Json.Value} {i : Nat} (h : items[i]? = some x)
    (position : Nat) : (padded items position)[i]? = some x := by
  obtain ⟨hi, -⟩ := List.getElem?_eq_some_iff.1 h
  rw [padded, List.getElem?_append_left hi, h]

/-- Padding brings in nothing but empty objects. -/
theorem getElem?_padded_inv {items : List Json.Value} {i position : Nat}
    (h : (padded items position)[i]? = some x) : items[i]? = some x ∨ x = .object [] := by
  rw [padded, List.getElem?_append] at h
  split at h
  · exact .inl h
  · exact .inr (List.eq_of_mem_replicate (List.mem_of_getElem? h))

theorem getElem?_padded_self (items : List Json.Value) (position : Nat) :
    (padded items position)[position]? = some (items[position]?.getD (.object [])) := by
  cases h : items[position]? with
  | some x => exact getElem?_padded h position
  | none =>
    have hlt := lt_length_padded items position
    have hx : (padded items position)[position]? = some (padded items position)[position] :=
      List.getElem?_eq_getElem hlt
    rcases getElem?_padded_inv hx with hold | hnew
    · rw [h] at hold
      cases hold
    · rw [hx, hnew]
      rfl

/-- **The slot of a change** holds what was changed. -/
theorem slot?_modifyAt_self (h : Accepts key v) (change : Json.Value → Json.Value) :
    slot? key (modifyAt key change v) = some (change (standing key v)) := by
  cases v with
  | object fields => simp [modifyAt, slot?, standing]
  | array items =>
    obtain ⟨n, hn⟩ := Option.isSome_iff_exists.1 h
    simp [modifyAt, slot?, standing, hn, List.getElem?_modify, getElem?_padded_self]
  | _ => exact h.elim

/-- Different canonical steps are not read as the same position. -/
theorem index_ne (hkey : IsCanonical key) (hother : IsCanonical other) (hne : other ≠ key)
    {m n : Nat} (hm : Segment.indexOf? other.toList = some m)
    (hn : Segment.indexOf? key.toList = some n) : n ≠ m := by
  rintro rfl
  exact hne ((hother.eq_toString hm).trans (hkey.eq_toString hn).symm)

/-- **The other slots** hold what they held. -/
theorem slot?_modifyAt_of_ne (hkey : IsCanonical key) (hother : IsCanonical other)
    (hne : other ≠ key) (h : slot? other v = some x) :
    slot? other (modifyAt key change v) = some x := by
  cases v with
  | object fields => exact (Fields.get?_put_of_ne hne _ fields).trans h
  | array items =>
    obtain ⟨m, hm, hx⟩ := Option.bind_eq_some_iff.1 h
    cases hn : Segment.indexOf? key.toList with
    | none => simpa [modifyAt, hn] using h
    | some n =>
      have hnm := index_ne hkey hother hne hm hn
      simp [modifyAt, hn, slot?, hm, List.getElem?_modify, getElem?_padded hx, hnm]
  | _ => simp [slot?] at h

/-- What stands in another slot after a change stood there before or is an empty object. -/
theorem slot?_modifyAt_inv (hkey : IsCanonical key) (hother : IsCanonical other)
    (hne : other ≠ key) (h : slot? other (modifyAt key change v) = some x) :
    slot? other v = some x ∨ x = .object [] := by
  cases v with
  | object fields => exact .inl ((Fields.get?_put_of_ne hne _ fields).symm.trans h)
  | array items =>
    cases hn : Segment.indexOf? key.toList with
    | none => exact .inl (by simpa [modifyAt, hn] using h)
    | some n =>
      simp only [modifyAt, hn] at h
      obtain ⟨m, hm, hx⟩ := Option.bind_eq_some_iff.1 h
      have hnm := index_ne hkey hother hne hm hn
      have hpadded : (padded items n)[m]? = some x := by
        simpa [List.getElem?_modify, hnm] using hx
      rcases getElem?_padded_inv hpadded with hold | hnew
      · exact .inl (by simp [slot?, hm, hold])
      · exact .inr hnew
  | _ => exact .inl h

theorem accepts_modifyAt : Accepts other (modifyAt key change v) ↔ Accepts other v := by
  cases v with
  | array items => cases hn : Segment.indexOf? key.toList <;> simp [modifyAt, hn, Accepts]
  | _ => simp [modifyAt, Accepts]

theorem isContainer_modifyAt : (modifyAt key change v).isContainer = v.isContainer := by
  cases v with
  | array items =>
    cases hn : Segment.indexOf? key.toList <;> simp [modifyAt, hn, Json.Value.isContainer]
  | _ => rfl

end Change

/-! ### Searching -/

/-- A value as a search gives it: null is no value. -/
def present : Json.Value → Option Json.Value
  | .null => none
  | v => some v

/-- A search goes on from what a step leads to, unless that is null. -/
theorem followValue?_cons (key : String) (rest : List String) (v : Json.Value) :
    followValue? (key :: rest) v
      = ((stepValue? key v).bind present).bind (followValue? rest) := by
  rw [followValue?]
  cases stepValue? key v with
  | none => rfl
  | some next => cases next <;> rfl

theorem stepValue?_of_slot? {key : String} {v x : Json.Value} (h : slot? key v = some x) :
    stepValue? key v = some x := by
  cases v with
  | array items =>
    obtain ⟨n, hn, hx⟩ := Option.bind_eq_some_iff.1 h
    simp [stepValue?, hn, hx]
  | _ => exact h

/-- **What stands at the end of a path is found**, unless it is null. -/
theorem followValue?_of_reach? {steps : List String} (hne : steps ≠ []) {v x : Json.Value}
    (h : reach? steps v = some x) : followValue? steps v = present x := by
  induction steps generalizing v with
  | nil => exact absurd rfl hne
  | cons key rest ih =>
    obtain ⟨next, hnext, hrest⟩ := Option.bind_eq_some_iff.1 h
    rw [followValue?_cons, stepValue?_of_slot? hnext, Option.bind_some]
    cases rest with
    | nil =>
      obtain rfl : next = x := Option.some.inj hrest
      cases next <;> rfl
    | cons second rest =>
      have hfollow := ih (by simp) hrest
      cases next with
      | null => simp [reach?, slot?] at hrest
      | _ => exact hfollow

end Crosswalk.Preview
