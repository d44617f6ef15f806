import Crosswalk.Proofs.Stylesheet.SoundParts
import Crosswalk.Stylesheet.Text
import Mathlib.Data.List.Infix
import Mathlib.Logic.Function.Iterate

/-!
# Notes in the comment

Pairs of hyphens are parted round by round.  A round can leave a pair behind, but never three
hyphens in a row, and where no three of them stand in a row a round leaves no pair.  So two rounds
are always enough.  Every round inserts spaces only where they belong, so in the end there is one
space between any two hyphens that were beside each other, and everything else is as it was.

* `not_triple_partOnce`, `not_pair_partOnce` : what one round leaves, and what a second one does.
* `separated_partOnce` : a round does not change where spaces belong.
* `part_eq_iterate`, `part_eq_separated` : how the rounds end, and with what.
* `notes_parted` : the notes, and the comment that has them.
-/

namespace Crosswalk.Stylesheet

namespace Hyphens

/-- A text with one space between any two hyphens that stand beside each other. -/
def separated : List Char → List Char
  | [] => []
  | c :: rest =>
    if c = '-' ∧ rest.head? = some '-' then '-' :: ' ' :: separated rest
    else c :: separated rest

/-! ### Pairs -/

/-- Two hyphens in front of a text are a pair. -/
theorem pair_prefix_cons {c : Char} {cs : List Char} :
    ['-', '-'] <+: c :: cs ↔ c = '-' ∧ cs.head? = some '-' := by
  cases cs with
  | nil => simp [List.cons_prefix_cons]
  | cons d cs => simp [List.cons_prefix_cons, eq_comm]

theorem pair_infix_cons {c : Char} {cs : List Char} :
    ['-', '-'] <:+: c :: cs ↔ (c = '-' ∧ cs.head? = some '-') ∨ ['-', '-'] <:+: cs := by
  rw [List.infix_cons_iff, pair_prefix_cons]

/-- **Pairs** are counted exactly if there are some. -/
theorem pairs_eq_zero_iff {cs : List Char} : pairs cs = 0 ↔ ¬ ['-', '-'] <:+: cs := by
  induction cs with
  | nil => simp [pairs]
  | cons c cs ih =>
    rw [pairs_cons, pair_infix_cons, not_or, ← ih, Nat.add_eq_zero_iff]
    simp

/-! ### What rounds leave -/

/-- What is left by a round begins with no pair. -/
theorem not_pair_prefix_partOnce (cs : List Char) : ¬ ['-', '-'] <+: partOnce cs := by
  unfold partOnce
  split
  · simp
  · simp
  · rename_i c d rest
    split
    · simp [List.cons_prefix_cons]
    · rename_i hpair
      rw [pair_prefix_cons, head?_partOnce]
      simpa using hpair

/-- **A round leaves no three hyphens** in a row. -/
theorem not_triple_partOnce (cs : List Char) : ¬ ['-', '-', '-'] <:+: partOnce cs := by
  have hshorter : ['-', '-'] <+: ['-', '-', '-'] := by simp
  fun_induction partOnce cs with
  | case1 => simp
  | case2 c => simp [List.infix_cons_iff, List.cons_prefix_cons]
  | case3 c d rest _ ih =>
    -- The second hyphen of the pair may stand in front of another one, but not of two.
    have hnext := not_pair_prefix_partOnce rest
    simpa [List.infix_cons_iff, List.cons_prefix_cons] using ⟨hnext, ih⟩
  | case4 c d rest hpair ih =>
    have hfirst := not_pair_prefix_partOnce (c :: d :: rest)
    rw [partOnce, if_neg hpair] at hfirst
    rw [List.infix_cons_iff, not_or]
    exact ⟨fun htriple => hfirst (hshorter.trans htriple), ih⟩

/-- **Where no three hyphens** stand in a row, a round leaves no pair. -/
theorem not_pair_partOnce {cs : List Char} (h : ¬ ['-', '-', '-'] <:+: cs) :
    ¬ ['-', '-'] <:+: partOnce cs := by
  fun_induction partOnce cs with
  | case1 => simp
  | case2 c => simp [pair_infix_cons]
  | case3 c d rest hpair ih =>
    obtain ⟨rfl, rfl⟩ := hpair
    have hrest : rest.head? ≠ some '-' := by
      intro hhead
      obtain ⟨more, rfl⟩ := List.head?_eq_some_iff.1 hhead
      exact h ⟨[], more, rfl⟩
    have hbelow : ¬ ['-', '-', '-'] <:+: rest :=
      fun htriple => h (htriple.trans (List.suffix_append ['-', '-'] rest).isInfix)
    simpa [pair_infix_cons, head?_partOnce, hrest] using ih hbelow
  | case4 c d rest hpair ih =>
    have hbelow : ¬ ['-', '-', '-'] <:+: d :: rest :=
      fun htriple => h (htriple.trans (List.suffix_cons c (d :: rest)).isInfix)
    rw [pair_infix_cons, head?_partOnce, not_or]
    exact ⟨by simpa using hpair, ih hbelow⟩

/-- **The rounds end** after two at the latest, as soon as no pair is left. -/
theorem part_eq_iterate (cs : List Char) :
    ∃ n ≤ 2, part cs = partOnce^[n] cs ∧ (∀ m < n, ['-', '-'] <:+: partOnce^[m] cs) ∧
      ¬ ['-', '-'] <:+: partOnce^[n] cs := by
  have hgoes : ∀ ds : List Char, ['-', '-'] <:+: ds → part ds = part (partOnce ds) := by
    intro ds hpair
    have hsome := pairs_ne_zero_of_infix hpair
    rw [part, if_neg hsome]
  have hstops : ∀ ds : List Char, ¬ ['-', '-'] <:+: ds → part ds = ds :=
    fun ds hnone => part_of_no_pairs (pairs_eq_zero_iff.2 hnone)
  by_cases hzero : ['-', '-'] <:+: cs
  · by_cases hone : ['-', '-'] <:+: partOnce cs
    · have htwo : ¬ ['-', '-'] <:+: partOnce (partOnce cs) :=
        not_pair_partOnce (not_triple_partOnce cs)
      refine ⟨2, Nat.le_refl 2, ?_, ?_, htwo⟩
      · rw [hgoes cs hzero, hgoes _ hone, hstops _ htwo]
        rfl
      · intro m hm
        obtain rfl | rfl : m = 0 ∨ m = 1 := by omega
        · exact hzero
        · exact hone
    · refine ⟨1, by decide, ?_, ?_, hone⟩
      · rw [hgoes cs hzero, hstops _ hone]
        rfl
      · intro m hm
        obtain rfl : m = 0 := Nat.lt_one_iff.1 hm
        exact hzero
  · exact ⟨0, by decide, hstops cs hzero, fun m hm => absurd hm (Nat.not_lt_zero m), hzero⟩

/-! ### Where spaces belong -/

/-- Where there is no pair, no space is missing. -/
theorem separated_of_not_pair {cs : List Char} (h : ¬ ['-', '-'] <:+: cs) : separated cs = cs := by
  induction cs with
  | nil => rfl
  | cons c cs ih =>
    rw [pair_infix_cons, not_or] at h
    rw [separated, if_neg h.1, ih h.2]

/-- **A round does not change** where spaces belong. -/
theorem separated_partOnce (cs : List Char) : separated (partOnce cs) = separated cs := by
  fun_induction partOnce cs with
  | case1 => rfl
  | case2 c => rfl
  | case3 c d rest hpair ih =>
    obtain ⟨rfl, rfl⟩ := hpair
    simp [separated, head?_partOnce, ih]
  | case4 c d rest hpair ih =>
    rw [separated, separated, head?_partOnce, ih]

/-- **What the rounds end with** is the text with the spaces where they belong. -/
theorem part_eq_separated (cs : List Char) : part cs = separated cs := by
  fun_induction part cs with
  | case1 cs hnone => exact (separated_of_not_pair (pairs_eq_zero_iff.1 hnone)).symm
  | case2 cs _ ih => rw [ih, separated_partOnce]

end Hyphens

/-! ### The comment -/

/-- What stands between the two ends of the comment with the notes. -/
def commentContent (notes : String) : String :=
  " Mapping Notes:\n" ++ String.ofList (Hyphens.separated notes.toList) ++ "\n"

theorem commentContent_eq_part (notes : String) :
    commentContent notes
      = " Mapping Notes:\n" ++ String.ofList (Hyphens.part notes.toList) ++ "\n" := by
  rw [Hyphens.part_eq_separated]
  rfl

/-- There are no two hyphens in a row in the comment. -/
theorem not_pair_commentContent (notes : String) :
    ¬ ['-', '-'] <:+: (commentContent notes).toList := by
  rw [commentContent_eq_part]
  exact Hyphens.pairs_eq_zero_iff.1 (pairs_notes notes)

/-- The comment ends with a line break. -/
theorem getLast?_commentContent (notes : String) :
    (commentContent notes).toList.getLast? ≠ some '-' := by
  rw [commentContent_eq_part, toList_notes, ← List.cons_append, ← List.append_assoc,
    List.getLast?_concat]
  decide

/-- The comment with the notes, if they are not blank. -/
theorem notesComment_eq {notes : String} (h : Text.isBlankText notes = false) :
    notesComment notes = [.comment (commentContent notes), .text "\n"] := by
  rw [notesComment, h, commentContent_eq_part]
  rfl

/-- A comment with a line break behind it, as they are written. -/
theorem charsOf_comment_line (content : String) (parts : List Markup.Part) :
    String.ofList (Markup.Part.charsOf (.comment content :: .text "\n" :: parts))
      = "<!--" ++ content ++ "-->\n" ++ String.ofList (Markup.Part.charsOf parts) := by
  have hbreak : Markup.escapeText "\n" = ['\n'] := by decide
  apply String.toList_injective
  simp [Markup.Part.charsOf, Markup.Part.chars, hbreak, String.toList_append]

/-- The comment stands right behind the declaration of the document. -/
theorem text_eq_of_notes (s : Stylesheet) (h : Text.isBlankText s.notes = false) :
    ∃ rest, s.text = "<?xml version=\"1.0\" encoding=\"UTF-8\"?>\n"
      ++ ("<!--" ++ commentContent s.notes ++ "-->\n" ++ rest) := by
  have hparts : ∃ parts, document s (templates s)
      = .comment (commentContent s.notes) :: .text "\n" :: parts := by
    rw [document, notesComment_eq h]
    exact ⟨_, rfl⟩
  obtain ⟨parts, hparts⟩ := hparts
  have hchars := charsOf_comment_line (commentContent s.notes) parts
  rw [← hparts] at hchars
  refine ⟨String.ofList (Markup.Part.charsOf parts), ?_⟩
  rw [← hchars]
  rfl

/-- **The notes of a stylesheet.**  Pairs of hyphens are parted in at most two rounds, until none is
left.  Then there is one space between any two hyphens that stood beside each other, and nothing
else is changed.  Unless the notes are blank, they stand so in a comment in front of the stylesheet,
in which there are no two hyphens in a row and no hyphen at the end. -/
theorem notes_parted (s : Stylesheet) :
    (∃ n ≤ 2, Hyphens.part s.notes.toList = Hyphens.partOnce^[n] s.notes.toList ∧
      (∀ m < n, ['-', '-'] <:+: Hyphens.partOnce^[m] s.notes.toList) ∧
      ¬ ['-', '-'] <:+: Hyphens.partOnce^[n] s.notes.toList) ∧
    Hyphens.part s.notes.toList = Hyphens.separated s.notes.toList ∧
    (Text.isBlankText s.notes = false →
      (∃ rest, s.text = "<?xml version=\"1.0\" encoding=\"UTF-8\"?>\n"
        ++ ("<!--" ++ commentContent s.notes ++ "-->\n" ++ rest)) ∧
      ¬ ['-', '-'] <:+: (commentContent s.notes).toList ∧
      (commentContent s.notes).toList.getLast? ≠ some '-') := by
  exact ⟨Hyphens.part_eq_iterate _, Hyphens.part_eq_separated _, fun hnotes =>
    ⟨text_eq_of_notes s hnotes, not_pair_commentContent _, getLast?_commentContent _⟩⟩

/-- Runs of three and four hyphens, and one at the end. -/
theorem notes_parted_at_end :
    let s : Stylesheet := ⟨"a---b ----", false, defaultNamespace, defaultQualifier, []⟩
    Text.isBlankText s.notes = false ∧
      Hyphens.part s.notes.toList = "a- - -b - - - -".toList ∧
      Hyphens.partOnce s.notes.toList = "a- --b - -- -".toList ∧
      (∃ rest, s.text = "<?xml version=\"1.0\" encoding=\"UTF-8\"?>\n"
        ++ ("<!--" ++ commentContent s.notes ++ "-->\n" ++ rest)) ∧
      ¬ ['-', '-'] <:+: (commentContent s.notes).toList ∧
      (commentContent s.notes).toList.getLast? ≠ some '-' := by
  intro s
  have hnotes : Text.isBlankText s.notes = false := by decide
  obtain ⟨-, hparted, hcomment⟩ := notes_parted s
  exact ⟨hnotes, hparted.trans (by decide), by decide, hcomment hnotes⟩

end Crosswalk.Stylesheet
