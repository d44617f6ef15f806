import Crosswalk.Proofs.Markup.WellFormed

/-!
# The tokens of written markup

Whoever reads a document from left to right parts it into tags, comments and the text between them.
Inside a tag a quote begins a value, which reaches to the same quote again, and only outside of values
does an angle bracket end the tag.  A token is a tag with its values left out, or a whole comment.  Of
a value or a text nothing is seen in the tokens, unless a character in it ends it early.

* `scans_tag`, `scans_comment` : how a tag and a comment are read.
* `SameTokens` : parts that are read as the same tokens.
* `SameTokens.text`, `SameTokens.element` : whatever their texts and values are.
-/

namespace Crosswalk.Markup

/-- Where a reader stands.  In a tag it keeps what it has read of it, apart from the values. -/
inductive Scanner where
  | outside
  | tag (read : List Char)
  | value (quote : Char) (read : List Char)
  | comment (inside : List Char)

namespace Scanner

/-- The reader past one more character, with the token that ends there. -/
def step : Scanner → Char → Scanner × List (List Char)
  | outside, c => if c = '<' then (tag ['<'], []) else (outside, [])
  | tag read, c =>
    if c = '>' then (outside, [read ++ ['>']])
    else if c = '"' ∨ c = '\'' then (value c (read ++ [c]), [])
    else if read ++ [c] = ['<', '!', '-', '-'] then (comment [], [])
    else (tag (read ++ [c]), [])
  | value quote read, c => if c = quote then (tag (read ++ [c]), []) else (value quote read, [])
  | comment inside, c =>
    if c = '>' ∧ ['-', '-'] <:+ inside then
      (outside, [['<', '!', '-', '-'] ++ inside ++ ['>']])
    else (comment (inside ++ [c]), [])

/-- The reader past a text, with the tokens that end in it. -/
def run : Scanner → List Char → Scanner × List (List Char)
  | s, [] => (s, [])
  | s, c :: cs =>
    let (next, ended) := s.step c
    let (last, later) := run next cs
    (last, ended ++ later)

theorem run_append (s : Scanner) (cs ds : List Char) :
    s.run (cs ++ ds) = (((s.run cs).1.run ds).1, (s.run cs).2 ++ ((s.run cs).1.run ds).2) := by
  induction cs generalizing s with
  | nil => simp [run]
  | cons c cs ih => simp [run, ih]

end Scanner

open Scanner

/-- The tokens of a document. -/
def tokens (cs : List Char) : List (List Char) :=
  (outside.run cs).2

/-- Quotes of both sorts in values, brackets in a value, and in a comment a tag and a quote. -/
example : tokens "<?x a=\"1\"?><!-- <b> ' --><a b='\">' c=\"d>'\">a > \" b<e/></a>".toList
    = ["<?x a=\"\"?>", "<!-- <b> ' -->", "<a b='' c=\"\">", "<e/>", "</a>"].map String.toList := by
  decide

/-- Whether a text takes a reader from one place to another, past some tokens. -/
def Scans (s : Scanner) (cs : List Char) (found : List (List Char)) (t : Scanner) : Prop :=
  s.run cs = (t, found)

namespace Scans

variable {s t u : Scanner} {cs ds : List Char} {found more : List (List Char)}

theorem nil (s : Scanner) : Scans s [] [] s := rfl

theorem append (h : Scans s cs found t) (hrest : Scans t ds more u) :
    Scans s (cs ++ ds) (found ++ more) u := by
  unfold Scans at h hrest ⊢
  rw [run_append, h, hrest]

/-- A character that ends no token. -/
theorem pass {c : Char} (h : s.step c = (t, [])) (hrest : Scans t cs found u) :
    Scans s (c :: cs) found u := by
  unfold Scans at hrest ⊢
  simp [run, h, hrest]

/-- A character that ends a token. -/
theorem finish {c : Char} {token : List Char} (h : s.step c = (t, [token])) :
    Scans s [c] [token] t := by
  unfold Scans
  rw [run, h]
  rfl

end Scans

/-- The tokens that a reader comes past are those of the text. -/
theorem Scans.tokens_eq {cs : List Char} {found : List (List Char)} {t : Scanner}
    (h : Scans outside cs found t) : tokens cs = found := by
  unfold Scans at h
  rw [tokens, h]

/-! ### Tags -/

/-- Whether a character stands for itself in a tag: it neither ends it nor begins a value. -/
def IsTagChar (c : Char) : Prop :=
  c ≠ '>' ∧ c ≠ '"' ∧ c ≠ '\''

instance (c : Char) : Decidable (IsTagChar c) :=
  inferInstanceAs (Decidable (_ ∧ _ ∧ _))

/-- Whether all characters of a text stand for themselves in a tag. -/
def IsTagText (cs : List Char) : Prop := ∀ c ∈ cs, IsTagChar c

instance (cs : List Char) : Decidable (IsTagText cs) :=
  decidable_of_iff (cs.all (fun c => decide (IsTagChar c)) = true)
    (by simp only [IsTagText, List.all_eq_true, decide_eq_true_eq])

theorem IsTagText.append {cs ds : List Char} (h : IsTagText cs) (hds : IsTagText ds) :
    IsTagText (cs ++ ds) :=
  List.forall_mem_append.2 ⟨h, hds⟩

/-- Text without an opening bracket has no tokens. -/
theorem scans_text {cs : List Char} (h : '<' ∉ cs) : Scans outside cs [] outside := by
  induction cs with
  | nil => exact .nil _
  | cons c cs ih =>
    obtain ⟨hc, hrest⟩ := not_or.1 (mt List.mem_cons.2 h)
    exact .pass (by simp [step, Ne.symm hc]) (ih hrest)

/-- Characters of a tag are kept.  It is no comment if its second character is not the sign for
one. -/
theorem scans_tagChars {first : Char} (hfirst : first ≠ '!') (read : List Char) {cs : List Char}
    (h : IsTagText cs) :
    Scans (tag ('<' :: first :: read)) cs [] (tag ('<' :: first :: (read ++ cs))) := by
  induction cs generalizing read with
  | nil =>
    rw [List.append_nil]
    exact .nil _
  | cons c cs ih =>
    obtain ⟨⟨hend, hdouble, hsingle⟩, hrest⟩ := List.forall_mem_cons.1 h
    have hlater := ih (read ++ [c]) hrest
    rw [List.append_assoc, List.singleton_append] at hlater
    exact .pass (by simp [step, hend, hdouble, hsingle, hfirst]) hlater

/-- A value is left out, whatever it is, up to the quote that ends it. -/
theorem scans_value (read : List Char) {cs : List Char} (h : '"' ∉ cs) :
    Scans (value '"' read) (cs ++ ['"']) [] (tag (read ++ ['"'])) := by
  induction cs with
  | nil => exact .pass (by simp [step]) (.nil _)
  | cons c cs ih =>
    obtain ⟨hc, hrest⟩ := not_or.1 (mt List.mem_cons.2 h)
    exact .pass (by simp [step, Ne.symm hc]) (ih hrest)

/-- An attribute without its value. -/
def Given.blanked (a : Given) : List Char :=
  a.gap.toList ++ a.name.toList ++ ['=', '"', '"']

/-- Whether an attribute is read as it is meant: its value, where it is not escaped, has no quote. -/
structure Given.Readable (a : Given) : Prop where
  gap : IsTagText a.gap.toList
  name : IsTagText a.name.toList
  plain : a.quoting = .plain → '"' ∉ a.value.toList

/-- No quote is left in a value that is escaped. -/
theorem quote_not_mem_quotedChar (c : Char) : '"' ∉ quotedChar c := by
  unfold quotedChar
  by_cases hquote : c = '"'
  · rw [if_pos hquote]
    decide
  · rw [if_neg hquote, textChar]
    split
    · decide
    split
    · decide
    split
    · decide
    · simpa using Ne.symm hquote

theorem quote_not_mem_namespaceChar (c : Char) : '"' ∉ namespaceChar c := by
  unfold namespaceChar
  split
  · decide
  · exact quote_not_mem_quotedChar c

theorem Given.Readable.quote_not_mem {a : Given} (h : a.Readable) :
    '"' ∉ a.quoting.escape a.value := by
  cases hquoting : a.quoting with
  | plain => exact h.plain hquoting
  | quoted =>
    intro hmem
    obtain ⟨c, -, hc⟩ := List.mem_flatMap.1 hmem
    exact quote_not_mem_quotedChar c hc
  | namespaceUri =>
    intro hmem
    obtain ⟨c, -, hc⟩ := List.mem_flatMap.1 hmem
    exact quote_not_mem_namespaceChar c hc

theorem Given.Readable.scans {a : Given} (h : a.Readable) {first : Char} (hfirst : first ≠ '!')
    (read : List Char) :
    Scans (tag ('<' :: first :: read)) a.chars [] (tag ('<' :: first :: (read ++ a.blanked))) := by
  have hlead : IsTagText (a.gap.toList ++ a.name.toList ++ ['=']) := by
    have hsign : IsTagText ['='] := by decide
    exact (h.gap.append h.name).append hsign
  have hopening := scans_tagChars hfirst read hlead
  have hquote : (tag ('<' :: first :: (read ++ (a.gap.toList ++ a.name.toList ++ ['='])))).step '"'
      = (Scanner.value '"' ('<' :: first :: (read ++ (a.gap.toList ++ a.name.toList ++ ['=', '"']))), []) := by
    simp [step]
  have hall := hopening.append (Scans.pass hquote (scans_value _ h.quote_not_mem))
  rw [Given.chars, Given.blanked]
  simpa using hall

/-- Attributes are read one after the other. -/
theorem scans_attributes {first : Char} (hfirst : first ≠ '!') (read : List Char)
    {attributes : List Given} (h : ∀ a ∈ attributes, a.Readable) :
    Scans (tag ('<' :: first :: read)) (attributes.flatMap Given.chars) []
      (tag ('<' :: first :: (read ++ attributes.flatMap Given.blanked))) := by
  induction attributes generalizing read with
  | nil =>
    rw [List.flatMap_nil, List.flatMap_nil, List.append_nil]
    exact .nil _
  | cons a rest ih =>
    obtain ⟨ha, hrest⟩ := List.forall_mem_cons.1 h
    have hlater := ih (read ++ a.blanked) hrest
    rw [List.append_assoc] at hlater
    rw [List.flatMap_cons, List.flatMap_cons]
    exact (ha.scans hfirst read).append hlater

/-- Whether a name is read as the name of a tag. -/
def IsTagName (cs : List Char) : Prop :=
  ∃ first rest, cs = first :: rest ∧ first ≠ '!' ∧ IsTagText cs

/-- A character of a name stands for itself in a tag. -/
theorem isTagChar_of_isNameChar {c : Char} (h : isNameChar c = true) : IsTagChar c := by
  refine ⟨?_, ?_, ?_⟩
  all_goals
    intro heq
    subst heq
    exact absurd h (by decide)

theorem IsName.isTagName {cs : List Char} (h : IsName cs) : IsTagName cs := by
  obtain ⟨first, rest, rfl, hfirst, hrest⟩ := h
  refine ⟨first, rest, rfl, ?_, ?_⟩
  · intro heq
    subst heq
    exact absurd hfirst (by decide)
  · exact List.forall_mem_cons.2 ⟨isTagChar_of_isNameChar (isNameChar_of_isNameStart hfirst),
      fun c hc => isTagChar_of_isNameChar (hrest c hc)⟩

theorem IsTagName.isTagText {cs : List Char} (h : IsTagName cs) : IsTagText cs := by
  obtain ⟨_, _, _, _, hchars⟩ := h
  exact hchars

theorem quote_not_mem {cs : List Char} (h : IsTagText cs) : '"' ∉ cs :=
  fun hmem => (h _ hmem).2.1 rfl

/-- **A tag is read as one token**, in which its values are left out. -/
theorem scans_tag {name : String} (hname : IsTagName name.toList) {attributes : List Given}
    (hattributes : ∀ a ∈ attributes, a.Readable) {closing : List Char}
    (hclosing : IsTagText closing) :
    Scans outside ('<' :: (Part.tagChars name attributes ++ closing ++ ['>']))
      ['<' :: (name.toList ++ attributes.flatMap Given.blanked ++ closing ++ ['>'])] outside := by
  obtain ⟨first, rest, heq, hfirst, hchars⟩ := hname
  rw [heq] at hchars
  obtain ⟨⟨hend, hdouble, hsingle⟩, hrest⟩ := List.forall_mem_cons.1 hchars
  have hopened : (tag ['<']).step first = (tag ['<', first], []) := by
    simp [step, hend, hdouble, hsingle]
  have hnamed := Scans.pass hopened (scans_tagChars hfirst [] hrest)
  have hfilled := hnamed.append (scans_attributes hfirst _ hattributes)
  have hclosed := hfilled.append (scans_tagChars hfirst _ hclosing)
  have hall := hclosed.append (Scans.finish (c := '>') rfl)
  refine Scans.pass (t := tag ['<']) rfl ?_
  rw [Part.tagChars, heq]
  simpa using hall

/-- An end tag is read as one token. -/
theorem scans_endTag {name : String} (hname : IsTagText name.toList) :
    Scans outside ('<' :: '/' :: (name.toList ++ ['>'])) ['<' :: '/' :: (name.toList ++ ['>'])]
      outside := by
  have hnamed := scans_tagChars (show '/' ≠ '!' by decide) [] hname
  have hall := hnamed.append (Scans.finish (c := '>') rfl)
  exact .pass (t := tag ['<']) rfl (.pass (t := tag ['<', '/']) rfl hall)

/-- A comment goes on as long as there are not two hyphens in a row. -/
theorem scans_inside (inside : List Char) {cs : List Char} (h : ¬ ['-', '-'] <:+: inside ++ cs) :
    Scans (comment inside) cs [] (comment (inside ++ cs)) := by
  induction cs generalizing inside with
  | nil =>
    rw [List.append_nil]
    exact .nil _
  | cons c cs ih =>
    have hbefore : ¬ ['-', '-'] <:+ inside := by
      intro hsuffix
      exact h (hsuffix.isInfix.trans (List.prefix_append _ _).isInfix)
    have hlater := ih (inside ++ [c]) (by simpa using h)
    rw [List.append_assoc, List.singleton_append] at hlater
    exact .pass (by simp [step, hbefore]) hlater

/-- **A comment is read as one token** if no two hyphens stand in it. -/
theorem scans_comment {content : String} (h : ¬ ['-', '-'] <:+: content.toList) :
    Scans outside (Part.comment content).chars [(Part.comment content).chars] outside := by
  have hinside : Scans (comment []) content.toList [] (comment content.toList) :=
    scans_inside [] h
  have hhyphens : Scans (comment content.toList) ['-', '-'] []
      (comment (content.toList ++ ['-', '-'])) :=
    .pass (t := comment (content.toList ++ ['-'])) (by simp [step])
      (.pass (by simp [step]) (.nil _))
  have hend : (comment (content.toList ++ ['-', '-'])).step '>'
      = (outside, [(Part.comment content).chars]) := by
    simp [step, Part.chars]
  have hall := (hinside.append hhyphens).append (Scans.finish hend)
  rw [Part.chars] at hall ⊢
  refine .pass (t := tag ['<']) rfl (.pass (t := tag ['<', '!']) rfl ?_)
  refine .pass (t := tag ['<', '!', '-']) rfl (.pass (t := comment []) rfl ?_)
  simpa using hall

/-! ### Parts with the same tokens -/

/-- Whether parts are read as the same tokens, and the reader is outside of all tags in the end. -/
def SameTokens (ps qs : List Part) : Prop :=
  ∃ found, Scans outside (Part.charsOf ps) found outside ∧
    Scans outside (Part.charsOf qs) found outside

namespace SameTokens

theorem nil : SameTokens [] [] := ⟨[], .nil _, .nil _⟩

theorem append {ps qs rs us : List Part} (h : SameTokens ps qs) (hrest : SameTokens rs us) :
    SameTokens (ps ++ rs) (qs ++ us) := by
  obtain ⟨found, hps, hqs⟩ := h
  obtain ⟨more, hrs, hus⟩ := hrest
  refine ⟨found ++ more, ?_, ?_⟩
  · rw [Part.charsOf_append]
    exact hps.append hrs
  · rw [Part.charsOf_append]
    exact hqs.append hus

theorem cons {p q : Part} {ps qs : List Part} (h : SameTokens [p] [q]) (hrest : SameTokens ps qs) :
    SameTokens (p :: ps) (q :: qs) :=
  h.append hrest

theorem flatMap {α : Type} {xs : List α} {f g : α → List Part}
    (h : ∀ x ∈ xs, SameTokens (f x) (g x)) : SameTokens (xs.flatMap f) (xs.flatMap g) := by
  induction xs with
  | nil => exact nil
  | cons x xs ih =>
    obtain ⟨hx, hxs⟩ := List.forall_mem_cons.1 h
    exact hx.append (ih hxs)

/-- **Texts have no tokens**, whatever their characters are. -/
theorem text (first second : String) : SameTokens [.text first] [.text second] := by
  have hscans : ∀ content, Scans outside (Part.charsOf [.text content]) [] outside := by
    intro content
    have hchars : Part.charsOf [.text content] = escapeText content := by
      simp [Part.charsOf, Part.chars]
    rw [hchars]
    exact scans_text (escapeText_no_bracket content).1
  exact ⟨[], hscans first, hscans second⟩

theorem comment {content : String} (h : ¬ ['-', '-'] <:+: content.toList) :
    SameTokens [.comment content] [.comment content] := by
  have hscans : Scans outside (Part.charsOf [.comment content]) [(Part.comment content).chars]
      outside := by
    simpa [Part.charsOf] using scans_comment h
  exact ⟨_, hscans, hscans⟩

section Tags

variable {name : String} (hname : IsTagName name.toList) {first second : List Given}
  (hfirst : ∀ a ∈ first, a.Readable) (hsecond : ∀ a ∈ second, a.Readable)
  (hsame : first.map Given.blanked = second.map Given.blanked)

include hname hfirst hsecond hsame

/-- **Tags are the same token** if their attributes are the same apart from the values. -/
theorem single : SameTokens [.single name first] [.single name second] := by
  have hblanked : first.flatMap Given.blanked = second.flatMap Given.blanked := by
    rw [List.flatMap_def, List.flatMap_def, hsame]
  have hscans : ∀ attributes : List Given, (∀ a ∈ attributes, a.Readable) →
      Scans outside (Part.charsOf [.single name attributes])
        ['<' :: (name.toList ++ attributes.flatMap Given.blanked ++ ['/'] ++ ['>'])] outside := by
    intro attributes hattributes
    have hslash : IsTagText ['/'] := by decide
    simpa [Part.charsOf, Part.chars] using scans_tag hname hattributes hslash
  refine ⟨_, hscans first hfirst, ?_⟩
  rw [hblanked]
  exact hscans second hsecond

/-- **Elements have the same tokens** if what is in them has. -/
theorem element {ps qs : List Part} (hcontent : SameTokens ps qs) :
    SameTokens [.element name first ps] [.element name second qs] := by
  have hblanked : first.flatMap Given.blanked = second.flatMap Given.blanked := by
    rw [List.flatMap_def, List.flatMap_def, hsame]
  obtain ⟨found, hps, hqs⟩ := hcontent
  have hscans : ∀ (attributes : List Given) (content : List Part),
      (∀ a ∈ attributes, a.Readable) → Scans outside (Part.charsOf content) found outside →
      Scans outside (Part.charsOf [.element name attributes content])
        (('<' :: (name.toList ++ attributes.flatMap Given.blanked ++ [] ++ ['>']))
          :: (found ++ ['<' :: '/' :: (name.toList ++ ['>'])])) outside := by
    intro attributes content hattributes hinside
    have hnothing : IsTagText ([] : List Char) := fun _ hc => nomatch hc
    have hstart := scans_tag hname hattributes hnothing
    have hall := (hstart.append hinside).append (scans_endTag hname.isTagText)
    simpa [Part.charsOf, Part.chars] using hall
  refine ⟨_, hscans first ps hfirst hps, ?_⟩
  rw [hblanked]
  exact hscans second qs hsecond hqs

end Tags

end SameTokens

end Crosswalk.Markup
