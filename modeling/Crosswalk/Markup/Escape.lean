/-!
# Escaping

In running text the two angle brackets and the ampersand are written as references.  Between double
quotes the quote is written so too, and in a namespace also the single quote.

* `escapeText_no_bracket` : no angle bracket is left in escaped text.
-/

namespace Crosswalk.Markup

/-- A character of running text. -/
def textChar (c : Char) : List Char :=
  if c = '<' then ['&', 'l', 't', ';']
  else if c = '>' then ['&', 'g', 't', ';']
  else if c = '&' then ['&', 'a', 'm', 'p', ';']
  else [c]

/-- A character of a value between double quotes. -/
def quotedChar (c : Char) : List Char :=
  if c = '"' then ['&', 'q', 'u', 'o', 't', ';'] else textChar c

/-- A character of a namespace between double quotes. -/
def namespaceChar (c : Char) : List Char :=
  if c = '\'' then ['&', 'a', 'p', 'o', 's', ';'] else quotedChar c

/-- Running text, escaped. -/
def escapeText (s : String) : List Char :=
  s.toList.flatMap textChar

/-- No angle bracket is left in escaped text. -/
theorem escapeText_no_bracket (s : String) : '<' ∉ escapeText s ∧ '>' ∉ escapeText s := by
  have apart : ∀ c, '<' ∉ textChar c ∧ '>' ∉ textChar c := by
    intro c
    unfold textChar
    split
    · decide
    · split
      · decide
      · split
        · decide
        · rename_i hl hg _
          simp [Ne.symm hl, Ne.symm hg]
  constructor
  · intro h
    obtain ⟨c, _, hc⟩ := List.mem_flatMap.1 h
    exact (apart c).1 hc
  · intro h
    obtain ⟨c, _, hc⟩ := List.mem_flatMap.1 h
    exact (apart c).2 hc

end Crosswalk.Markup
