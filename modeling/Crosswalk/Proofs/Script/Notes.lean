import Crosswalk.Proofs.Script.Assignments

/-!
# Reading the notes of a script

The notes stand at the front of a script as a literal text between triple quotes.  Whoever reads such
a text passes over a backslash together with the character behind it; the first three quotes in a row
that are met otherwise are its end.  Notes may have runs of quotes of any length, backslashes in front
of quotes, and either of them at their end, and none of these ends the text or changes what it
says.

* `protectNotes_eq` : notes are protected by two replacements, one after the other.
* `untilQuotes_protectNotes` : protected notes are passed over as a whole.
* `undoEscapes_protectNotes` : the escapes in them stand for the characters of the notes.
* `notesBlock_readable` : so the notes can be read, and nothing but the block's own quotes ends them.
-/

namespace Crosswalk.Script

/-! ### Reading a literal text -/

/-- The quotes around a literal text. -/
def tripleQuotes : List Char := "\"\"\"".toList

/-- What stands up to the first three quotes in a row, and what follows them.  A backslash protects
the character behind it. -/
def untilQuotes : List Char → Option (List Char × List Char)
  | [] => none
  | '"' :: '"' :: '"' :: rest => some ([], rest)
  | '\\' :: c :: rest => (untilQuotes rest).map (Prod.map ('\\' :: c :: ·) id)
  | c :: rest => (untilQuotes rest).map (Prod.map (c :: ·) id)

/-- The literal text at the front of a text, with its escapes, and what follows it. -/
def readQuotes (cs : List Char) : Option (List Char × List Char) := do
  let body ← cs.dropPrefix? tripleQuotes
  untilQuotes body

/-- The characters that a literal text stands for.  A backslash in front of a quote or of a backslash
stands for that character; no other escape is accepted. -/
def undoEscapes : List Char → Option (List Char)
  | [] => some []
  | ['\\'] => none
  | '\\' :: c :: rest => if c = '\\' ∨ c = '"' then (undoEscapes rest).map (c :: ·) else none
  | c :: rest => (undoEscapes rest).map (c :: ·)

section Reading

variable {c : Char} {rest body left : List Char}

/-- Any character but a backslash is passed over alone, unless three quotes begin there. -/
theorem untilQuotes_cons (hslash : c ≠ '\\')
    (hquotes : c = '"' → ∀ more, rest ≠ '"' :: '"' :: more)
    (h : untilQuotes rest = some (body, left)) :
    untilQuotes (c :: rest) = some (c :: body, left) := by
  rw [untilQuotes, h]
  · rfl
  · intro more hc hrest
    exact hquotes hc more hrest
  · intro d more hc
    exact absurd hc hslash

/-- A backslash is passed over together with the character behind it. -/
theorem untilQuotes_escape (h : untilQuotes rest = some (body, left)) :
    untilQuotes ('\\' :: c :: rest) = some ('\\' :: c :: body, left) := by
  rw [untilQuotes, h]
  rfl

/-- Any character but a backslash stands for itself. -/
theorem undoEscapes_cons (hslash : c ≠ '\\') (h : undoEscapes rest = some body) :
    undoEscapes (c :: rest) = some (c :: body) := by
  rw [undoEscapes, h]
  · rfl
  · intro hc
    exact absurd hc hslash
  · intro d more hc
    exact absurd hc hslash

/-- A backslash in front of a quote or a backslash stands for that character. -/
theorem undoEscapes_escape (hc : c = '\\' ∨ c = '"') (h : undoEscapes rest = some body) :
    undoEscapes ('\\' :: c :: rest) = some (c :: body) := by
  rw [undoEscapes, if_pos hc, h]
  rfl

end Reading

/-! ### Protecting notes -/

/-- A text with every backslash doubled. -/
def doubleBackslashes (cs : List Char) : List Char :=
  cs.flatMap fun c => if c = '\\' then ['\\', '\\'] else [c]

/-- A text with a backslash in front of each of three quotes in a row. -/
def guardQuotes : List Char → List Char
  | [] => []
  | '"' :: '"' :: '"' :: rest => '\\' :: '"' :: '\\' :: '"' :: '\\' :: '"' :: guardQuotes rest
  | c :: rest => c :: guardQuotes rest

/-- A quote at the front of a text whose backslashes are doubled stood there before. -/
theorem eq_cons_of_doubleBackslashes {cs more : List Char}
    (h : doubleBackslashes cs = '"' :: more) :
    ∃ rest, cs = '"' :: rest ∧ doubleBackslashes rest = more := by
  cases cs with
  | nil => cases h
  | cons c rest =>
    by_cases hc : c = '\\'
    · simp [doubleBackslashes, hc] at h
    · simp only [doubleBackslashes, List.flatMap_cons, hc, if_false, List.singleton_append] at h
      obtain ⟨hquote, hrest⟩ := List.cons.inj h
      exact ⟨rest, by rw [hquote], hrest⟩

/-- **Two replacements.**  Notes are protected by doubling the backslashes and escaping three quotes in
a row after that: the first replacement leaves the quotes where they are. -/
theorem protectNotes_eq (notes : List Char) :
    protectNotes notes = guardQuotes (doubleBackslashes notes) := by
  fun_induction protectNotes notes with
  | case1 => rfl
  | case2 rest ih =>
    rw [ih]
    rfl
  | case3 rest ih =>
    rw [ih]
    rfl
  | case4 c rest hslash hquotes ih =>
    have hc : c ≠ '\\' := fun heq => hslash heq
    have hdoubled : doubleBackslashes (c :: rest) = c :: doubleBackslashes rest := by
      simp [doubleBackslashes, hc]
    rw [ih, hdoubled, guardQuotes]
    intro more hquote hmore
    obtain ⟨second, rfl, hsecond⟩ := eq_cons_of_doubleBackslashes hmore
    obtain ⟨third, rfl, -⟩ := eq_cons_of_doubleBackslashes hsecond
    exact hquotes third hquote rfl

/-! ### Reading protected notes -/

/-- A quote at the front of protected notes, with a line break behind them, stood in front of the notes
themselves. -/
theorem eq_cons_of_protectNotes {notes rest more : List Char}
    (h : protectNotes notes ++ '\n' :: rest = '"' :: more) :
    ∃ later, notes = '"' :: later ∧ protectNotes later ++ '\n' :: rest = more := by
  fun_cases protectNotes notes with
  | case1 => simp [protectNotes] at h
  | case2 later => simp [protectNotes] at h
  | case3 later => simp [protectNotes] at h
  | case4 c later hslash hquotes =>
    rw [protectNotes] at h
    · obtain ⟨hc, hmore⟩ := List.cons.inj h
      exact ⟨later, by rw [hc], hmore⟩
    · exact hslash
    · exact hquotes

/-- **Protected notes are passed over as a whole**, when a line break follows them. -/
theorem untilQuotes_protectNotes {rest body left : List Char} (notes : List Char)
    (h : untilQuotes ('\n' :: rest) = some (body, left)) :
    untilQuotes (protectNotes notes ++ '\n' :: rest)
      = some (protectNotes notes ++ body, left) := by
  fun_induction protectNotes notes with
  | case1 => exact h
  | case2 later ih => exact untilQuotes_escape ih
  | case3 later ih =>
    exact untilQuotes_escape (untilQuotes_escape (untilQuotes_escape ih))
  | case4 c later hslash hquotes ih =>
    refine untilQuotes_cons (fun hc => hslash hc) ?_ ih
    -- Two more quotes behind a quote would have been protected with it.
    intro hquote more heq
    obtain ⟨second, rfl, hsecond⟩ := eq_cons_of_protectNotes heq
    obtain ⟨third, rfl, -⟩ := eq_cons_of_protectNotes hsecond
    exact hquotes third hquote rfl

/-- **The escapes in protected notes** stand for the characters of the notes. -/
theorem undoEscapes_protectNotes {rest body : List Char} (notes : List Char)
    (h : undoEscapes rest = some body) :
    undoEscapes (protectNotes notes ++ rest) = some (notes ++ body) := by
  have hslash : '\\' = '\\' ∨ '\\' = '"' := by decide
  have hquote : '"' = '\\' ∨ '"' = '"' := by decide
  fun_induction protectNotes notes with
  | case1 => exact h
  | case2 later ih => exact undoEscapes_escape hslash ih
  | case3 later ih =>
    exact undoEscapes_escape hquote (undoEscapes_escape hquote (undoEscapes_escape hquote ih))
  | case4 c later hnone hquotes ih => exact undoEscapes_cons (fun hc => hnone hc) ih

/-! ### The block of the notes -/

/-- What stands above the notes. -/
def notesHead : List Char := "\nMapping Notes:\n".toList

/-- What stands between the quotes of the block. -/
def notesBody (notes : String) : List Char :=
  notesHead ++ guardQuotes (doubleBackslashes notes.toList) ++ ['\n']

/-- A text without quotes and backslashes is not changed when it stands in front of notes. -/
theorem protectNotes_append {front : List Char} (hquote : '"' ∉ front) (hslash : '\\' ∉ front)
    (notes : List Char) : protectNotes (front ++ notes) = front ++ protectNotes notes := by
  induction front with
  | nil => rfl
  | cons c front ih =>
    simp only [List.mem_cons, not_or] at hquote hslash
    rw [List.cons_append, protectNotes, ih hquote.2 hslash.2]
    · rfl
    · intro hc
      exact hslash.1 hc.symm
    · intro rest hc
      exact absurd hc.symm hquote.1

/-- The head and the notes may be protected together. -/
theorem notesBody_eq (notes : String) :
    notesBody notes = protectNotes (notesHead ++ notes.toList) ++ ['\n'] := by
  rw [notesBody, ← protectNotes_eq, protectNotes_append (by decide) (by decide)]

/-- The block is a literal text with two line breaks behind it. -/
theorem toList_notesBlock {notes : String} (h : Text.isBlankText notes = false) :
    (notesBlock notes).toList
      = tripleQuotes ++ notesBody notes ++ tripleQuotes ++ ['\n', '\n'] := by
  have hfront : "\"\"\"\nMapping Notes:\n".toList = tripleQuotes ++ notesHead := by decide
  have hback : "\n\"\"\"\n\n".toList = ['\n'] ++ tripleQuotes ++ ['\n', '\n'] := by decide
  rw [notesBlock, h, if_neg Bool.false_ne_true, String.toList_append, String.toList_append,
    hfront, hback, String.toList_ofList, notesBody, protectNotes_eq]
  simp only [List.append_assoc]

/-- **Notes cannot end their literal text.**  The block of notes that are not blank is a literal text
with two line breaks behind it.  Read from its start, it ends at the quotes that the block itself writes
at its end, and its escapes stand for the notes as they were given, below their head and with a line
break behind them. -/
theorem notesBlock_readable {notes : String} (h : Text.isBlankText notes = false) :
    (notesBlock notes).toList
        = tripleQuotes ++ notesBody notes ++ tripleQuotes ++ ['\n', '\n'] ∧
      readQuotes (notesBlock notes).toList = some (notesBody notes, ['\n', '\n']) ∧
      undoEscapes (notesBody notes) = some (notesHead ++ notes.toList ++ ['\n']) := by
  refine ⟨toList_notesBlock h, ?_, ?_⟩
  · have hend : untilQuotes ('\n' :: (tripleQuotes ++ ['\n', '\n']))
        = some (['\n'], ['\n', '\n']) := rfl
    have hbody := untilQuotes_protectNotes (notesHead ++ notes.toList) hend
    rw [toList_notesBlock h, readQuotes, List.append_assoc, List.append_assoc,
      dropPrefix?_append, notesBody_eq, List.append_assoc]
    exact hbody
  · have hend : undoEscapes ['\n'] = some ['\n'] := rfl
    rw [notesBody_eq]
    exact undoEscapes_protectNotes _ hend

/-- Notes with five quotes in a row, backslashes in front of quotes, and both at their end. -/
theorem notesBlock_readable_with_quotes :
    let notes := "\"\"\"\"\" \\\"\"\" \"\"\\\\\"\"\\"
    Text.isBlankText notes = false ∧
      readQuotes (notesBlock notes).toList = some (notesBody notes, ['\n', '\n']) ∧
      undoEscapes (notesBody notes) = some (notesHead ++ notes.toList ++ ['\n']) := by
  intro notes
  have hsome : Text.isBlankText notes = false := by decide
  exact ⟨hsome, (notesBlock_readable hsome).2⟩

end Crosswalk.Script
