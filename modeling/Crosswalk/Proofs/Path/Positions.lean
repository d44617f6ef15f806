import Crosswalk.Path.Segment

/-!
# Positions and their spellings

A number of 64 bits has one usual spelling, and a step that is spelled so is read as that number.
Zeros in front are what another spelling of the number has besides.

* `indexOf?_toString` : the usual spelling of a position is read as it.
* `toString_ofDigitChars` : the usual spelling of what some digits spell.
-/

namespace Crosswalk.Segment

theorem toList_toString (n : Nat) : (toString n).toList = Nat.toDigits 10 n := Nat.toList_repr

/-- The usual spelling of a number is made of digits alone. -/
theorem isDigits_toString (n : Nat) : isDigits (toString n).toList = true := by
  have hdigits : ∀ c ∈ Nat.toDigits 10 n, c.isDigit = true :=
    fun c hc => Nat.isDigit_of_mem_toDigits (by decide) (by decide) hc
  rw [toList_toString, isDigits, Bool.and_eq_true, List.all_eq_true]
  exact ⟨by simp, hdigits⟩

/-- The usual spelling of a number tells the number. -/
theorem ofDigitChars_toString (n : Nat) : Nat.ofDigitChars 10 (toString n).toList 0 = n := by
  rw [toList_toString]
  exact Nat.ofDigitChars_toDigits (by decide) (by decide)

/-- Different numbers have different usual spellings. -/
theorem eq_of_toString {m n : Nat} (h : toString m = toString n) : m = n := by
  rw [← ofDigitChars_toString m, ← ofDigitChars_toString n, h]

/-- What is read as a position: digits alone, if what they spell is less than the number of
positions. -/
theorem indexOf?_eq_some_iff {piece : List Char} {n : Nat} :
    indexOf? piece = some n ↔
      isDigits piece = true ∧ Nat.ofDigitChars 10 piece 0 = n ∧ n < positionCount := by
  simp only [indexOf?, Option.ite_none_right_eq_some, Option.some.injEq]
  constructor
  · rintro ⟨hdigits, hfits, rfl⟩
    exact ⟨hdigits, rfl, hfits⟩
  · rintro ⟨hdigits, rfl, hfits⟩
    exact ⟨hdigits, hfits, rfl⟩

/-- **The usual spelling** of a position is read as that position. -/
theorem indexOf?_toString {n : Nat} (h : n < positionCount) :
    indexOf? (toString n).toList = some n :=
  indexOf?_eq_some_iff.2 ⟨isDigits_toString n, ofDigitChars_toString n, h⟩

/-- What is read as a position is made of digits alone. -/
theorem isDigits_of_indexOf? {piece : List Char} {n : Nat} (h : indexOf? piece = some n) :
    isDigits piece = true :=
  (indexOf?_eq_some_iff.1 h).1

theorem isDigit_of_isDigits {piece : List Char} (h : isDigits piece = true) :
    ∀ c ∈ piece, c.isDigit = true := by
  rw [isDigits, Bool.and_eq_true] at h
  exact List.all_eq_true.1 h.2

/-! ### Zeros in front -/

/-- The digits of a number without the zeros in front that it does not need. -/
def withoutZeros (digits : List Char) : List Char :=
  match digits.dropWhile (· = '0') with
  | [] => ['0']
  | digit :: rest => digit :: rest

theorem exists_digitChar {c : Char} (h : c.isDigit = true) : ∃ d < 10, c = Nat.digitChar d := by
  have hrange := Char.isDigit_iff_toNat.1 h
  have hlow : 48 ≤ c.toNat := hrange.1
  have hhigh : c.toNat ≤ 57 := hrange.2
  have hd : c.toNat - 48 < 10 := by omega
  refine ⟨c.toNat - 48, hd, Char.toNat_inj.1 ?_⟩
  rw [Nat.toNat_digitChar_of_lt_ten hd]
  omega

/-- Digits that follow those of a number other than zero are the further digits of a number. -/
theorem toDigits_append {digits : List Char} (h : ∀ c ∈ digits, c.isDigit = true) {n : Nat}
    (hn : 0 < n) :
    Nat.toDigits 10 n ++ digits = Nat.toDigits 10 (Nat.ofDigitChars 10 digits n) := by
  induction digits generalizing n with
  | nil => simp
  | cons c digits ih =>
    obtain ⟨hc, hdigits⟩ := List.forall_mem_cons.1 h
    obtain ⟨d, hd, rfl⟩ := exists_digitChar hc
    have hlast : Nat.toDigits 10 n ++ [d.digitChar] = Nat.toDigits 10 (10 * n + d) := by
      rw [← Nat.toDigits_append_toDigits (by decide) hn hd, Nat.toDigits_of_lt_base hd]
    rw [Nat.ofDigitChars_cons_digitChar_of_lt_ten hd, ← ih hdigits (by omega), ← hlast,
      List.append_assoc, List.singleton_append]

/-- **The usual spelling** of the number that some digits spell are these digits, without the zeros
in front that it does not need. -/
theorem toString_ofDigitChars {digits : List Char} (h : ∀ c ∈ digits, c.isDigit = true) :
    (toString (Nat.ofDigitChars 10 digits 0)).toList = withoutZeros digits := by
  rw [toList_toString]
  induction digits with
  | nil => simp [withoutZeros]
  | cons c digits ih =>
    obtain ⟨hc, hdigits⟩ := List.forall_mem_cons.1 h
    obtain ⟨d, hd, rfl⟩ := exists_digitChar hc
    rw [Nat.ofDigitChars_cons_digitChar_of_lt_ten hd, Nat.mul_zero, Nat.zero_add]
    rcases Nat.eq_zero_or_pos d with rfl | hpos
    · rw [ih hdigits]
      simp [withoutZeros]
    · rw [← toDigits_append hdigits hpos, Nat.toDigits_of_lt_base hd]
      simp [withoutZeros, Nat.ne_of_gt hpos]

end Crosswalk.Segment
