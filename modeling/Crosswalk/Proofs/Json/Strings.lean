import Crosswalk.Json.Forms
import Crosswalk.Proofs.Text.Reading

/-!
# Reading written strings

Whatever characters a string has, its written form, followed by anything, is read as that string and
exactly what follows is left.  The reader goes by runs of plain characters and the writer by
single ones, so the law is first stated for a string of which a plain run has already been passed.

* `readEscape_encodeChar` : the escape of a character is read as that character.
* `readString_encode` : the characters of a written string are read.
* `readText_encodeString`, `readValue_encodeString` : so is the string, as a text and as a value.
-/

namespace Crosswalk.Json

open Text

/-! ### Escapes -/

theorem four_le_byteCount (a b c d : Char) : 4 ≤ byteCount [a, b, c, d] := by
  have ha := a.utf8Size_pos
  have hb := b.utf8Size_pos
  have hc := c.utf8Size_pos
  have hd := d.utf8Size_pos
  simp only [byteCount, List.foldl_cons, List.foldl_nil]
  omega

/-- Four digits are read as the number that they spell. -/
theorem readHexQuad_append {a b c d : Char} {x y z w : Nat}
    (h : [a, b, c, d].mapM hexDigit? = some [x, y, z, w]) (rest : List Char) :
    Reads readHexQuad ([a, b, c, d] ++ rest) (((x * 16 + y) * 16 + z) * 16 + w) rest := by
  have hlong : ¬ byteCount [a, b, c, d] < 4 := Nat.not_lt.2 (four_le_byteCount a b c d)
  refine ⟨.drop 4 _, ?_, by simp⟩
  simp [readHexQuad, hlong, h]

/-- The number of a control character is read from its four digits. -/
theorem readHexQuad_hexQuad {n : Nat} (hn : n < 0x20) (rest : List Char) :
    Reads readHexQuad (hexQuad n ++ rest) n rest := by
  have hall : ∀ n < 0x20,
      hexQuad n = ['0', '0', Nat.digitChar (n / 16), Nat.digitChar (n % 16)] ∧
        ['0', '0', Nat.digitChar (n / 16), Nat.digitChar (n % 16)].mapM hexDigit?
          = some [0, 0, n / 16, n % 16] := by decide
  obtain ⟨hquad, hdigits⟩ := hall n hn
  have hread := readHexQuad_append hdigits rest
  have hvalue : ((0 * 16 + 0) * 16 + n / 16) * 16 + n % 16 = n := by omega
  rw [hvalue, ← hquad] at hread
  exact hread

/-- A character that is spelled by the letter after the backslash. -/
theorem readEscape_letter {letter c : Char} (hu : letter ≠ 'u') (h : escaped? letter = some c)
    (rest : List Char) : Reads readEscape (letter :: rest) c rest := by
  refine ⟨.tail letter rest, ?_, rfl⟩
  simp [readEscape, h]

/-- A control character that is spelled by its number. -/
theorem readEscape_number {c : Char} (hc : c.toNat < 0x20) (rest : List Char) :
    Reads readEscape ('u' :: (hexQuad c.toNat ++ rest)) c rest := by
  obtain ⟨t, hread, htext⟩ := readHexQuad_hexQuad hc rest
  refine ⟨t.past.rest, ?_, htext⟩
  have hlow : ¬ (0xDC00 ≤ c.toNat ∧ c.toNat ≤ 0xDFFF) := by omega
  have hhigh : ¬ (0xD800 ≤ c.toNat ∧ c.toNat ≤ 0xDBFF) := by omega
  simp [readEscape, hread, hlow, hhigh, bind, Except.bind, pure, Except.pure]

/-- **Escapes.**  A character that is not plain is written as an escape, which is read as it. -/
theorem readEscape_encodeChar {c : Char} (h : isPlain c = false) :
    ∃ escape, encodeChar c = '\\' :: escape ∧
      ∀ rest, Reads readEscape (escape ++ rest) c rest := by
  have hletter : ∀ letter, letter ≠ 'u' → escaped? letter = some c →
      ∀ rest, Reads readEscape ([letter] ++ rest) c rest :=
    fun letter hu hescaped rest => readEscape_letter hu hescaped rest
  unfold encodeChar
  split
  · rename_i hc
    exact ⟨['"'], rfl, hletter _ (by decide) (by rw [hc]; rfl)⟩
  split
  · rename_i hc
    exact ⟨['\\'], rfl, hletter _ (by decide) (by rw [hc]; rfl)⟩
  split
  · rename_i hc
    exact ⟨['b'], rfl, hletter _ (by decide) (by rw [hc]; rfl)⟩
  split
  · rename_i hc
    exact ⟨['f'], rfl, hletter _ (by decide) (by rw [hc]; rfl)⟩
  split
  · rename_i hc
    exact ⟨['n'], rfl, hletter _ (by decide) (by rw [hc]; rfl)⟩
  split
  · rename_i hc
    exact ⟨['r'], rfl, hletter _ (by decide) (by rw [hc]; rfl)⟩
  split
  · rename_i hc
    exact ⟨['t'], rfl, hletter _ (by decide) (by rw [hc]; rfl)⟩
  split
  · rename_i hc
    exact ⟨'u' :: hexQuad c.toNat, rfl, fun rest => readEscape_number hc rest⟩
  · rename_i hquote hbackslash _ _ _ _ _ hc
    simp [isPlain, hquote, hbackslash, Nat.not_lt.1 hc] at h

/-! ### Strings -/

theorem encodeChar_of_isPlain {c : Char} (h : isPlain c = true) : encodeChar c = [c] := by
  simp only [isPlain, Bool.and_eq_true, bne_iff_ne, ne_eq, decide_eq_true_eq] at h
  exact encodeChar_of_plain h.1.1 h.1.2 h.2

/-- The closing quote ends a string. -/
theorem stringStep_quote {run : List Char} (hrun : ∀ c ∈ run, isPlain c = true)
    (before rest : List Char) :
    Ends stringStep before (run ++ '"' :: rest) (before.reverse ++ run) rest := by
  have hstops : Stops isPlain ('"' :: rest) := stops_cons (by decide) rest
  refine ⟨(Left.mk rest (by simp; omega)).rest, ?_, rfl⟩
  unfold stringStep skip
  rw [takeWhile_run hrun hstops]
  simp only [dropWhile_run hrun hstops]
  simp

/-- An escape adds the character that it spells. -/
theorem stringStep_escape {run : List Char} (hrun : ∀ c ∈ run, isPlain c = true)
    (before : List Char) {escape rest : List Char} {c : Char}
    (h : Reads readEscape escape c rest) :
    Continues stringStep before (run ++ '\\' :: escape) (c :: (run.reverse ++ before)) rest := by
  obtain ⟨t, hread, htext⟩ := h
  have hstops : Stops isPlain ('\\' :: escape) := stops_cons (by decide) escape
  have hlt : escape.length < (run ++ '\\' :: escape).length := by simp; omega
  refine ⟨(Left.mk escape hlt).andThen t, ?_, htext⟩
  unfold stringStep skip
  rw [takeWhile_run hrun hstops]
  simp only [dropWhile_run hrun hstops, hread, bind, Except.bind, pure, Except.pure]

/-- What is read of a written string after some characters and a plain run. -/
theorem stringStep_loop (cs rest : List Char) {run : List Char}
    (hrun : ∀ c ∈ run, isPlain c = true) (before : List Char) :
    LoopReads stringStep before (run ++ (cs.flatMap encodeChar ++ '"' :: rest))
      (before.reverse ++ run ++ cs) rest := by
  induction cs generalizing run before with
  | nil =>
    rw [List.flatMap_nil, List.nil_append, List.append_nil]
    exact .done (stringStep_quote hrun before rest)
  | cons c cs ih =>
    rw [List.flatMap_cons, List.append_assoc]
    by_cases hc : isPlain c = true
    · -- A plain character makes the run longer.
      have hlonger : ∀ d ∈ run ++ [c], isPlain d = true := by
        intro d hd
        rcases List.mem_append.1 hd with hd | hd
        · exact hrun d hd
        · exact List.mem_singleton.1 hd ▸ hc
      have hread := ih hlonger before
      rw [encodeChar_of_isPlain hc]
      simpa using hread
    · obtain ⟨escape, hencode, hescape⟩ := readEscape_encodeChar (Bool.eq_false_iff.2 hc)
      rw [hencode]
      have hnone : ∀ d ∈ ([] : List Char), isPlain d = true := by simp
      have hnext := ih hnone (c :: (run.reverse ++ before))
      have hstep := stringStep_escape hrun before (hescape (cs.flatMap encodeChar ++ '"' :: rest))
      simp only [List.reverse_cons, List.reverse_append, List.reverse_reverse, List.append_nil,
        List.nil_append, List.append_assoc, List.singleton_append] at hnext
      simp only [List.cons_append, List.append_assoc]
      exact .more hstep hnext

/-- The characters of a written string are read. -/
theorem readString_encode (cs rest : List Char) :
    Reads readString (cs.flatMap encodeChar ++ '"' :: rest) cs rest := by
  have hnone : ∀ c ∈ ([] : List Char), isPlain c = true := by simp
  have hloop := stringStep_loop cs rest hnone []
  exact hloop _ (.all _) rfl

/-! ### Strings as texts and as values -/

theorem encodeString_append (s : String) (rest : List Char) :
    encodeString s ++ rest = '"' :: (s.toList.flatMap encodeChar ++ '"' :: rest) := by
  simp [encodeString]

/-- A string that has been opened is read as a value. -/
theorem readStringValue_encode (s : String) (rest : List Char) :
    Reads readStringValue (s.toList.flatMap encodeChar ++ '"' :: rest) (.string s) rest := by
  have hread := (readString_encode s.toList rest).map fun cs => Value.string (String.ofList cs)
  simp only [String.ofList_toList] at hread
  exact hread

theorem readScalar_encodeString (s : String) (rest : List Char) :
    Reads readScalar (encodeString s ++ rest) (.string s) rest := by
  rw [encodeString_append]
  obtain ⟨t, hread, htext⟩ := (readStringValue_encode s rest).andThen
    (Rest.tail '"' (s.toList.flatMap encodeChar ++ '"' :: rest)) rfl
  exact ⟨t, hread, htext⟩

/-- **A written string is read as that string.** -/
theorem readText_encodeString {blanks : List Char}
    (hblanks : ∀ c ∈ blanks, c.isWhitespace = true) (s : String) (rest : List Char) :
    Reads readText (blanks ++ (encodeString s ++ rest)) s rest := by
  rw [encodeString_append]
  obtain ⟨hle, hskip⟩ := skipBlank_append hblanks (c := '"') (by decide)
    (s.toList.flatMap encodeChar ++ '"' :: rest)
  obtain ⟨t, hread, htext⟩ := (readString_encode s.toList rest).andThen
    (Left.mk (s.toList.flatMap encodeChar ++ '"' :: rest) hle).rest rfl
  refine ⟨t, ?_, htext⟩
  unfold readText
  rw [hskip]
  simp [hread, bind, Except.bind, pure, Except.pure, String.ofList_toList]

/-- **A written string is read as a value**, whether or not arrays and objects may be opened. -/
theorem readValue_encodeString (depth : Nat) {blanks : List Char}
    (hblanks : ∀ c ∈ blanks, c.isWhitespace = true) (s : String) (rest : List Char) :
    Reads (readValue depth) (blanks ++ (encodeString s ++ rest)) (.string s) rest := by
  obtain ⟨inner, hinner⟩ : ∃ inner, readValue depth = readValueWith inner := by
    cases depth with
    | zero => exact ⟨none, rfl⟩
    | succ depth => exact ⟨some (readValue depth), rfl⟩
  have hscalar := readScalar_encodeString s rest
  rw [encodeString_append] at hscalar ⊢
  obtain ⟨hle, hskip⟩ := skipBlank_append hblanks (c := '"') (by decide)
    (s.toList.flatMap encodeChar ++ '"' :: rest)
  obtain ⟨t, hread, htext⟩ := hscalar.andThen
    (Rest.mk ('"' :: (s.toList.flatMap encodeChar ++ '"' :: rest)) hle) rfl
  refine ⟨t, ?_, htext⟩
  rw [hinner, readValueWith, hskip]
  simp [hread]

end Crosswalk.Json
