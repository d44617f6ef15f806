import Crosswalk.Document.Scalar
import Crosswalk.Proofs.Path.Positions
import Mathlib.Tactic.NormNum

/-!
# What plain text spells

A text becomes an integer only if it is the usual spelling of one that fits 64 bits: a hyphen in
front of a number below zero, no zeros that the number does not need and no plus sign.  One more
spelling is taken, the zero with a hyphen.  A number that does not fit is none, whatever else it is
taken for, and so is one with zeros in front.

* `looksUnsigned_spells_iff` : which digits look like a number, and which number they spell.
* `looksNumeric_spells_iff` : the same with a hyphen in front.
* `eq_toString_or_iff` : the spellings of an integer.
* `scalarOfText_spelled` : which texts become integers, booleans and strings.
-/

namespace Crosswalk.Document

open Segment (isDigits withoutZeros)

/-! ### Digits -/

/-- Without the zeros that it does not need, a number is a zero or begins with another digit. -/
theorem withoutZeros_cases (digits : List Char) :
    withoutZeros digits = ['0'] ∨ ∃ d rest, withoutZeros digits = d :: rest ∧ d ≠ '0' := by
  have hhead := List.head?_dropWhile_not (· = '0') digits
  unfold withoutZeros
  cases hdrop : digits.dropWhile (· = '0') with
  | nil => exact Or.inl rfl
  | cons d rest =>
    rw [hdrop] at hhead
    exact Or.inr ⟨d, rest, rfl, by simpa using hhead⟩

/-- Digits look like a number exactly if there are no zeros in front that it does not need. -/
theorem looksUnsigned_iff {cs : List Char} (h : isDigits cs = true) :
    looksUnsigned cs = true ↔ withoutZeros cs = cs := by
  have hdigit := Segment.isDigit_of_isDigits h
  cases cs with
  | nil => cases h
  | cons c rest =>
    have hall : rest.all isNumberChar = true := by
      rw [List.all_eq_true]
      intro d hd
      simp [isNumberChar, hdigit d (List.mem_cons_of_mem _ hd)]
    by_cases hzero : c = '0'
    · subst hzero
      cases rest with
      | nil => simp [looksUnsigned, withoutZeros]
      | cons d more =>
        -- A second digit is no point, and then the zero in front is one too many.
        have hpoint : d ≠ '.' := by
          rintro rfl
          cases hdigit '.' (by simp)
        have hzeros : withoutZeros ('0' :: d :: more) ≠ '0' :: d :: more := by
          intro heq
          rcases withoutZeros_cases ('0' :: d :: more) with hnone | ⟨e, others, hother, he⟩
          · rw [heq] at hnone
            cases hnone
          · rw [heq, List.cons.injEq] at hother
            exact he hother.1.symm
        simp [looksUnsigned, hpoint, hzeros]
    · simp [looksUnsigned, withoutZeros, hzero, hall, hdigit c List.mem_cons_self]

/-- **The digits that look like a number** are the usual spelling of the number that they spell. -/
theorem looksUnsigned_spells_iff {cs : List Char} {n : Nat} :
    looksUnsigned cs = true ∧ isDigits cs = true ∧ Nat.ofDigitChars 10 cs 0 = n ↔
      cs = (toString n).toList := by
  constructor
  · intro ⟨hlooks, hdigits, hn⟩
    rw [← hn, Segment.toString_ofDigitChars (Segment.isDigit_of_isDigits hdigits)]
    exact ((looksUnsigned_iff hdigits).1 hlooks).symm
  · intro heq
    have hdigits : isDigits cs = true := heq ▸ Segment.isDigits_toString n
    have hn : Nat.ofDigitChars 10 cs 0 = n := heq ▸ Segment.ofDigitChars_toString n
    refine ⟨(looksUnsigned_iff hdigits).2 ?_, hdigits, hn⟩
    rw [← Segment.toString_ofDigitChars (Segment.isDigit_of_isDigits hdigits), hn, heq]

/-! ### Numbers with a hyphen -/

/-- What is left of a text without the hyphen in front, if it has one. -/
def withoutHyphen : List Char → List Char
  | '-' :: cs => cs
  | cs => cs

theorem looksNumeric_eq (cs : List Char) : looksNumeric cs = looksUnsigned (withoutHyphen cs) := by
  unfold looksNumeric
  split
  · rfl
  · rename_i hno
    rw [withoutHyphen]
    exact hno

theorem integerOf?_hyphen {cs : List Char} {i : Int} :
    Decimal.integerOf? ('-' :: cs) = some i ↔
      isDigits cs = true ∧ -(Nat.ofDigitChars 10 cs 0 : Int) = i := by
  rw [Decimal.integerOf?, isDigits]
  cases cs.isEmpty <;> cases cs.all Char.isDigit <;> simp

theorem integerOf?_of_no_hyphen {cs : List Char} (h : ∀ rest, cs ≠ '-' :: rest) {i : Int} :
    Decimal.integerOf? cs = some i ↔ isDigits cs = true ∧ (Nat.ofDigitChars 10 cs 0 : Int) = i := by
  unfold Decimal.integerOf?
  split
  · exact absurd rfl (h _)
  · rw [isDigits]
    cases cs.isEmpty <;> cases cs.all Char.isDigit <;> simp

/-- The usual spelling of a number without a sign has no hyphen in front. -/
theorem toString_ne_hyphen (n : Nat) (rest : List Char) : (toString n).toList ≠ '-' :: rest := by
  intro heq
  have hmem : '-' ∈ (toString n).toList := heq ▸ List.mem_cons_self
  cases Segment.isDigit_of_isDigits (Segment.isDigits_toString n) '-' hmem

/-- **The texts that look like a number and spell an integer** are the usual spelling of a number
without a sign and that spelling with a hyphen in front. -/
theorem looksNumeric_spells_iff {cs : List Char} {i : Int} :
    looksNumeric cs = true ∧ Decimal.integerOf? cs = some i ↔
      ∃ n : Nat, (cs = (toString n).toList ∧ i = n) ∨ (cs = '-' :: (toString n).toList ∧ i = -n) := by
  rw [looksNumeric_eq]
  by_cases hhyphen : ∃ rest, cs = '-' :: rest
  · obtain ⟨rest, rfl⟩ := hhyphen
    rw [integerOf?_hyphen, withoutHyphen]
    constructor
    · intro ⟨hlooks, hdigits, hi⟩
      have hspelled := looksUnsigned_spells_iff.1 ⟨hlooks, hdigits, rfl⟩
      exact ⟨_, Or.inr ⟨congrArg ('-' :: ·) hspelled, hi.symm⟩⟩
    · intro ⟨n, h⟩
      rcases h with ⟨hcs, -⟩ | ⟨hcs, rfl⟩
      · exact absurd hcs.symm (toString_ne_hyphen n rest)
      · obtain ⟨hlooks, hdigits, hn⟩ := looksUnsigned_spells_iff.2 (List.cons.inj hcs).2
        exact ⟨hlooks, hdigits, by rw [hn]⟩
  · have hno : ∀ rest, cs ≠ '-' :: rest := fun rest heq => hhyphen ⟨rest, heq⟩
    have hsame : withoutHyphen cs = cs := by
      rw [withoutHyphen]
      exact hno
    rw [integerOf?_of_no_hyphen hno, hsame]
    constructor
    · intro ⟨hlooks, hdigits, hi⟩
      have hspelled := looksUnsigned_spells_iff.1 ⟨hlooks, hdigits, rfl⟩
      exact ⟨_, Or.inl ⟨hspelled, hi.symm⟩⟩
    · intro ⟨n, h⟩
      rcases h with ⟨hcs, rfl⟩ | ⟨hcs, -⟩
      · obtain ⟨hlooks, hdigits, hn⟩ := looksUnsigned_spells_iff.2 hcs
        exact ⟨hlooks, hdigits, by rw [hn]⟩
      · exact absurd hcs (hno _)

/-- **The spellings of an integer**: its usual one, and for zero also the one with a hyphen. -/
theorem eq_toString_or_iff {text : String} {i : Int} :
    text = toString i ∨ (i = 0 ∧ text = "-0") ↔
      ∃ n : Nat, (text.toList = (toString n).toList ∧ i = n) ∨
        (text.toList = '-' :: (toString n).toList ∧ i = -n) := by
  have hminus : ∀ n : Nat, text.toList = '-' :: (toString n).toList ↔ text = "-" ++ toString n := by
    intro n
    rw [← String.toList_inj, String.toList_append]
    rfl
  simp only [String.toList_inj, hminus]
  constructor
  · intro h
    rcases h with htext | ⟨rfl, htext⟩
    · match i, htext with
      | .ofNat n, htext => exact ⟨n, Or.inl ⟨htext, rfl⟩⟩
      | .negSucc n, htext => exact ⟨n + 1, Or.inr ⟨htext, Int.negSucc_eq n⟩⟩
    · exact ⟨0, Or.inr ⟨htext, rfl⟩⟩
  · intro ⟨n, h⟩
    rcases h with ⟨htext, rfl⟩ | ⟨htext, rfl⟩
    · exact Or.inl htext
    · match n with
      | 0 => exact Or.inr ⟨rfl, htext⟩
      | n + 1 => exact Or.inl htext

/-! ### Scalars -/

theorem fitsInteger_iff {i : Int} : fitsInteger i = true ↔ -2 ^ 63 ≤ i ∧ i < 2 ^ 63 := by
  rw [fitsInteger, Bool.and_eq_true, decide_eq_true_eq, decide_eq_true_eq]
  norm_num

theorem numberOf?_eq_integer_iff {cs : List Char} {i : Int} :
    numberOf? cs = some (.integer i) ↔
      Decimal.integerOf? cs = some i ∧ fitsInteger i = true := by
  unfold numberOf?
  rw [← Option.filter_eq_some_iff]
  cases (Decimal.integerOf? cs).filter fitsInteger with
  | some j => simp
  | none => simp

section Kinds

variable {text : String}

/-- A text becomes a number exactly if it looks like one and spells it. -/
theorem scalarOfText_eq_number_iff {n : Json.Number} :
    scalarOfText text = .number n ↔
      looksNumeric text.toList = true ∧ numberOf? text.toList = some n := by
  unfold scalarOfText
  by_cases htrue : text = "true"
  · subst htrue
    simp [looksNumeric, looksUnsigned]
  · by_cases hfalse : text = "false"
    · subst hfalse
      simp [looksNumeric, looksUnsigned]
    · by_cases hlooks : looksNumeric text.toList = true
      · cases hnumber : numberOf? text.toList with
        | some m => simp [htrue, hfalse, hlooks]
        | none => simp [htrue, hfalse, hlooks]
      · simp [htrue, hfalse, hlooks]

/-- A text becomes a boolean exactly if it is one of the two words. -/
theorem scalarOfText_eq_bool_iff {b : Bool} :
    scalarOfText text = .bool b ↔ text = if b then "true" else "false" := by
  constructor
  · intro h
    unfold scalarOfText at h
    split at h
    · cases h
      assumption
    · split at h
      · cases h
        assumption
      · split at h
        · split at h <;> cases h
        · cases h
  · intro h
    subst h
    cases b <;> rfl

/-- A text that becomes a string becomes itself. -/
theorem eq_of_scalarOfText {s : String} (h : scalarOfText text = .string s) : s = text := by
  unfold scalarOfText at h
  split at h
  · cases h
  · split at h
    · cases h
    · split at h
      · split at h
        · cases h
        · exact (Json.Value.string.inj h).symm
      · exact (Json.Value.string.inj h).symm

end Kinds

/-- Whether no number begins with a text: it is empty, it does not begin with a digit, or a zero at
its front is followed by anything but a point. -/
inductive BeginsNoNumber : List Char → Prop
  | empty : BeginsNoNumber []
  | other {c : Char} {rest : List Char} (h : c.isDigit = false) : BeginsNoNumber (c :: rest)
  | zero {c : Char} {rest : List Char} (h : c ≠ '.') : BeginsNoNumber ('0' :: c :: rest)

theorem BeginsNoNumber.looksUnsigned {cs : List Char} (h : BeginsNoNumber cs) :
    looksUnsigned cs = false := by
  cases h with
  | empty => rfl
  | @other c rest h =>
    have hzero : c ≠ '0' := by
      rintro rfl
      cases h
    simp [Document.looksUnsigned, hzero, h]
  | zero h => simp [Document.looksUnsigned, h]

/-- **What a text becomes.**  It becomes an integer exactly if that fits 64 bits and the text is its
usual spelling, or the zero with a hyphen, and a boolean exactly if it is one of the two words.  A
text that becomes a string is kept as it is, and so is every text but these two words with which,
after one hyphen at the most, no number begins. -/
theorem scalarOfText_spelled (text : String) :
    (∀ i : Int, scalarOfText text = .number (.integer i) ↔
      (-2 ^ 63 ≤ i ∧ i < 2 ^ 63 ∧ text = toString i) ∨ (i = 0 ∧ text = "-0")) ∧
    (∀ b : Bool, scalarOfText text = .bool b ↔ text = if b then "true" else "false") ∧
    (∀ s, scalarOfText text = .string s → s = text) ∧
    (text ≠ "true" → text ≠ "false" → BeginsNoNumber (withoutHyphen text.toList) →
      scalarOfText text = .string text) := by
  refine ⟨?_, fun b => scalarOfText_eq_bool_iff, fun s => eq_of_scalarOfText, ?_⟩
  · intro i
    have hzero : i = 0 → fitsInteger i = true := by
      rintro rfl
      rfl
    calc scalarOfText text = .number (.integer i)
        ↔ looksNumeric text.toList = true ∧ numberOf? text.toList = some (.integer i) :=
          scalarOfText_eq_number_iff
      _ ↔ (looksNumeric text.toList = true ∧ Decimal.integerOf? text.toList = some i) ∧
            fitsInteger i = true := by rw [numberOf?_eq_integer_iff, and_assoc]
      _ ↔ (text = toString i ∨ (i = 0 ∧ text = "-0")) ∧ fitsInteger i = true := by
          rw [looksNumeric_spells_iff, eq_toString_or_iff]
      _ ↔ (fitsInteger i = true ∧ text = toString i) ∨ (i = 0 ∧ text = "-0") := by
          constructor
          · intro ⟨hspelled, hfits⟩
            exact hspelled.imp_left fun htext => ⟨hfits, htext⟩
          · intro h
            rcases h with ⟨hfits, htext⟩ | ⟨hi, htext⟩
            · exact ⟨Or.inl htext, hfits⟩
            · exact ⟨Or.inr ⟨hi, htext⟩, hzero hi⟩
      _ ↔ _ := by rw [fitsInteger_iff, and_assoc]
  · intro htrue hfalse hbegins
    apply scalarOfText_of_not_numeric htrue hfalse
    rw [looksNumeric_eq]
    exact hbegins.looksUnsigned

/-- The least integer of 64 bits, one more than the greatest, the zero with a hyphen, and an
identifier with zeros behind a hyphen. -/
theorem scalarOfText_spelled_at_bounds :
    scalarOfText "-9223372036854775808" = .number (.integer (-9223372036854775808)) ∧
      scalarOfText "9223372036854775808" ≠ .number (.integer 9223372036854775808) ∧
      scalarOfText "-0" = .number (.integer 0) ∧
      ("-007" ≠ "true" ∧ "-007" ≠ "false" ∧ BeginsNoNumber (withoutHyphen "-007".toList) ∧
        scalarOfText "-007" = .string "-007") := by
  have hbegins : BeginsNoNumber (withoutHyphen "-007".toList) := .zero (by decide)
  refine ⟨?_, ?_, ?_, by decide, by decide, hbegins, ?_⟩
  · exact ((scalarOfText_spelled _).1 _).2 (Or.inl ⟨by norm_num, by norm_num, by decide +kernel⟩)
  · intro h
    rcases ((scalarOfText_spelled _).1 _).1 h with ⟨-, hbound, -⟩ | ⟨hzero, -⟩
    · norm_num at hbound
    · cases hzero
  · exact ((scalarOfText_spelled _).1 0).2 (Or.inr ⟨rfl, rfl⟩)
  · exact (scalarOfText_spelled _).2.2.2 (by decide) (by decide) hbegins

end Crosswalk.Document
