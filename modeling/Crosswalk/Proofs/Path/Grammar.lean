import Crosswalk.Path.Filter
import Crosswalk.Proofs.Text.Ensures
import Crosswalk.Proofs.Text.Trimming

/-!
# The grammar of filters

A filter is written in parts: its name, the blanks around the equals sign, and its value.  Every part
ends where a character is refused, so a text has these parts in one way only, and the reader takes
them as they are.  Blanks at both ends of the text and one pair of brackets around it do not count.

* `Parts` and `Spells` : a filter taken apart, and the texts that spell it.
* `readStart_eq_ok_iff` : what is read at the start of a text.
* `Parts.eq_of_chars` : a text has its parts in one way only.
* `spellable_of_read`, `read_text` : what is read can be spelled, and its written form is read as it.
* `read_grammar` : which texts are filters, and which filters they are.
-/

namespace Crosswalk.Filter

/-! ### Parts of a filter -/

/-- A filter taken apart: its name, the blanks before and after the equals sign, and its value. -/
structure Parts where
  name : List Char
  before : List Char
  after : List Char
  value : List Char

namespace Parts

/-- The text that some parts make up. -/
def chars (p : Parts) : List Char :=
  '@' :: (p.name ++ (p.before ++ '=' :: (p.after ++ '\'' :: (p.value ++ ['\'']))))

/-- The filter that some parts give. -/
def filter (p : Parts) : Filter :=
  ⟨String.ofList p.name, String.ofList p.value⟩

/-- Whether parts are what they have to be. -/
structure IsSound (p : Parts) : Prop where
  name_ne : p.name ≠ []
  name_chars : ∀ c ∈ p.name, Text.isAlphanumeric c = true ∨ c = '_' ∨ c = '-' ∨ c = ':'
  before_blank : ∀ c ∈ p.before, c = ' ' ∨ c = '\t' ∨ c = '\r' ∨ c = '\n'
  after_blank : ∀ c ∈ p.after, c = ' ' ∨ c = '\t' ∨ c = '\r' ∨ c = '\n'
  value_ne : p.value ≠ []
  value_chars : '\'' ∉ p.value

end Parts

/-- Whether `inner` is left of a text without the pair of brackets around it, if it has one. -/
def IsUnwrapped (cs inner : List Char) : Prop :=
  cs = '[' :: (inner ++ [']']) ∨ inner = cs ∧ ∀ ds, cs ≠ '[' :: (ds ++ [']'])

/-- Whether a text spells a filter in the given parts: they are what is left of it when it is
trimmed, freed of one pair of brackets around it and trimmed again. -/
structure Spells (text : String) (p : Parts) : Prop where
  sound : p.IsSound
  whole : ∃ outer inner, Text.IsTrimmed text.toList outer ∧ IsUnwrapped outer inner ∧
    Text.IsTrimmed inner p.chars

/-! ### Characters -/

theorem isNameChar_iff {c : Char} :
    isNameChar c = true ↔ Text.isAlphanumeric c = true ∨ c = '_' ∨ c = '-' ∨ c = ':' := by
  simp [isNameChar, or_assoc]

theorem isWhitespace_iff {c : Char} :
    c.isWhitespace = true ↔ c = ' ' ∨ c = '\t' ∨ c = '\r' ∨ c = '\n' := by
  simp [Char.isWhitespace, or_assoc]

/-- No name goes on with a blank. -/
theorem isNameChar_of_isWhitespace {c : Char} (h : c.isWhitespace = true) :
    isNameChar c = false := by
  rcases isWhitespace_iff.1 h with rfl | rfl | rfl | rfl <;> decide +kernel

/-! ### Steps of the reader -/

theorem afterSign_eq_ok_iff {sign : Char} {cs rest : List Char} :
    afterSign sign cs = .ok rest ↔ cs = sign :: rest := by
  cases cs with
  | nil => simp [afterSign]
  | cons c cs =>
    by_cases hc : c = sign
    · simp [afterSign, hc]
    · simp [afterSign, hc]

/-- A run is taken whole, if there is one. -/
theorem run_eq_ok_iff {accepts : Char → Bool} {fault : String → Fault} {cs rest : List Char}
    {taken : String} :
    run accepts fault cs = .ok (taken, rest) ↔
      cs = taken.toList ++ rest ∧ taken.toList ≠ [] ∧ (∀ c ∈ taken.toList, accepts c = true) ∧
        Text.Stops accepts rest := by
  constructor
  · intro h
    unfold run at h
    split at h
    · cases h
    · rename_i hempty
      cases h
      rw [String.toList_ofList]
      exact ⟨List.takeWhile_append_dropWhile.symm, hempty, List.all_eq_true.1 List.all_takeWhile,
        Text.stops_dropWhile accepts cs⟩
  · rintro ⟨rfl, hne, hall, hstops⟩
    rw [run, Text.takeWhile_run hall hstops, Text.dropWhile_run hall hstops]
    split
    · rename_i hempty
      exact absurd hempty hne
    · rw [String.ofList_toList]

/-- After blanks that are skipped comes what stops them. -/
theorem exists_blanks {cs rest : List Char} {c : Char}
    (h : cs.dropWhile Char.isWhitespace = c :: rest) :
    ∃ blanks, cs = blanks ++ c :: rest ∧
      ∀ d ∈ blanks, d = ' ' ∨ d = '\t' ∨ d = '\r' ∨ d = '\n' := by
  refine ⟨cs.takeWhile Char.isWhitespace, ?_, ?_⟩
  · rw [← h, List.takeWhile_append_dropWhile]
  · intro d hd
    exact isWhitespace_iff.1 (List.all_eq_true.1 List.all_takeWhile d hd)

theorem dropWhile_blanks {blanks : List Char} {c : Char} (hc : c.isWhitespace = false)
    (h : ∀ d ∈ blanks, d = ' ' ∨ d = '\t' ∨ d = '\r' ∨ d = '\n') (rest : List Char) :
    (blanks ++ c :: rest).dropWhile Char.isWhitespace = c :: rest :=
  Text.dropWhile_run (fun d hd => isWhitespace_iff.2 (h d hd)) (Text.stops_cons hc rest)

/-- What comes after a name stops it. -/
theorem stops_name {blanks : List Char}
    (h : ∀ d ∈ blanks, d = ' ' ∨ d = '\t' ∨ d = '\r' ∨ d = '\n') (rest : List Char) :
    Text.Stops isNameChar (blanks ++ '=' :: rest) := by
  cases blanks with
  | nil => exact Text.stops_cons (by decide +kernel) rest
  | cons d blanks =>
    have hd : d.isWhitespace = true := isWhitespace_iff.2 (h d List.mem_cons_self)
    exact Text.stops_cons (isNameChar_of_isWhitespace hd) _

/-- **What is read at the start of a text** are the parts of a filter. -/
theorem readStart_eq_ok_iff {body rest : List Char} {f : Filter} :
    readStart body = .ok (f, rest) ↔
      ∃ p : Parts, p.IsSound ∧ body = p.chars ++ rest ∧ f = p.filter := by
  simp only [readStart, Text.bind_eq_ok_iff, Prod.exists, afterSign_eq_ok_iff, run_eq_ok_iff]
  constructor
  · rintro ⟨_, rfl, name, _, ⟨rfl, hname, hnameChars, -⟩, equated, hequated, opened, hopened, value,
      _, ⟨rfl, hvalue, hvalueChars, -⟩, _, rfl, hdone⟩
    obtain ⟨before, rfl, hbefore⟩ := exists_blanks hequated
    obtain ⟨after, rfl, hafter⟩ := exists_blanks hopened
    cases hdone
    refine ⟨⟨name.toList, before, after, value.toList⟩, ⟨hname, ?_, hbefore, hafter, hvalue, ?_⟩, ?_,
      ?_⟩
    · exact fun c hc => isNameChar_iff.1 (hnameChars c hc)
    · intro hquote
      exact absurd (hvalueChars _ hquote) (by decide)
    · simp [Parts.chars]
    · rw [Parts.filter, String.ofList_toList, String.ofList_toList]
  · rintro ⟨p, hp, rfl, rfl⟩
    have hvalueChars : ∀ c ∈ p.value, isValueChar c = true := by
      intro c hc
      rw [isValueChar, bne_iff_ne]
      exact fun hquote => hp.value_chars (hquote ▸ hc)
    refine ⟨p.name ++ (p.before ++ '=' :: (p.after ++ '\'' :: (p.value ++ '\'' :: rest))), ?_,
      String.ofList p.name, p.before ++ '=' :: (p.after ++ '\'' :: (p.value ++ '\'' :: rest)), ?_,
      p.after ++ '\'' :: (p.value ++ '\'' :: rest), dropWhile_blanks (by decide) hp.before_blank _,
      p.value ++ '\'' :: rest, dropWhile_blanks (by decide) hp.after_blank _,
      String.ofList p.value, '\'' :: rest, ?_, rest, rfl, rfl⟩
    · simp [Parts.chars]
    · rw [String.toList_ofList]
      exact ⟨rfl, hp.name_ne, fun c hc => isNameChar_iff.2 (hp.name_chars c hc),
        stops_name hp.before_blank _⟩
    · rw [String.toList_ofList]
      exact ⟨rfl, hp.value_ne, hvalueChars, Text.stops_cons (by decide) rest⟩

/-! ### One way to take a text apart -/

/-- **A text has its parts in one way only.** -/
theorem Parts.eq_of_chars {p q : Parts} (hp : p.IsSound) (hq : q.IsSound) (h : p.chars = q.chars) :
    p = q := by
  have hnames := Text.run_unique (fun c hc => isNameChar_iff.2 (hp.name_chars c hc))
    (stops_name hp.before_blank _) (fun c hc => isNameChar_iff.2 (hq.name_chars c hc))
    (stops_name hq.before_blank _) (List.cons.inj h).2
  have hbefore := Text.run_unique (fun c hc => isWhitespace_iff.2 (hp.before_blank c hc))
    (Text.stops_cons (by decide) _) (fun c hc => isWhitespace_iff.2 (hq.before_blank c hc))
    (Text.stops_cons (by decide) _) hnames.2
  have hafter := Text.run_unique (fun c hc => isWhitespace_iff.2 (hp.after_blank c hc))
    (Text.stops_cons (by decide) _) (fun c hc => isWhitespace_iff.2 (hq.after_blank c hc))
    (Text.stops_cons (by decide) _) (List.cons.inj hbefore.2).2
  have hvalue : p.value = q.value := List.append_cancel_right (List.cons.inj hafter.2).2
  cases p
  cases q
  rw [Parts.mk.injEq]
  exact ⟨hnames.1, hbefore.1, hafter.1, hvalue⟩

/-! ### Whole texts -/

/-- What is left without the brackets around a text. -/
theorem unwrap_eq_iff {cs inner : List Char} : unwrap cs = inner ↔ IsUnwrapped cs inner := by
  have hwrapped : ∀ ds, unwrap ('[' :: (ds ++ [']'])) = ds := by
    intro ds
    simp [unwrap]
  by_cases hbrackets : ∃ ds, cs = '[' :: (ds ++ [']'])
  · obtain ⟨ds, rfl⟩ := hbrackets
    rw [hwrapped, IsUnwrapped]
    constructor
    · rintro rfl
      exact Or.inl rfl
    · rintro (hsame | ⟨-, hnone⟩)
      · exact List.append_cancel_right (List.cons.inj hsame).2
      · exact absurd rfl (hnone ds)
  · have hkept : unwrap cs = cs := by
      unfold unwrap
      split
      · rename_i inner
        split
        · rename_i hlast
          obtain ⟨ds, rfl⟩ := List.getLast?_eq_some_iff.1 hlast
          exact absurd ⟨ds, rfl⟩ hbrackets
        · rfl
      · rfl
    rw [hkept, IsUnwrapped]
    constructor
    · rintro rfl
      exact Or.inr ⟨rfl, fun ds heq => hbrackets ⟨ds, heq⟩⟩
    · rintro (heq | ⟨rfl, -⟩)
      · exact absurd ⟨inner, heq⟩ hbrackets
      · rfl

/-- What counts of a text that spells a filter are the parts of the filter. -/
theorem trimmed_eq_chars_iff {text : String} {p : Parts} :
    Text.trimChars (unwrap (Text.trimChars text.toList)) = p.chars ↔
      ∃ outer inner, Text.IsTrimmed text.toList outer ∧ IsUnwrapped outer inner ∧
        Text.IsTrimmed inner p.chars := by
  simp only [← Text.trimChars_eq_iff, ← unwrap_eq_iff]
  simp

/-- **What a text is read as** is what it spells. -/
theorem read_eq_ok_iff {text : String} {f : Filter} :
    read text = .ok f ↔ ∃ p, Spells text p ∧ f = p.filter := by
  have hread : read text = .ok f ↔
      readStart (Text.trimChars (unwrap (Text.trimChars text.toList))) = .ok (f, []) := by
    simp only [read, Text.bind_eq_ok_iff, Prod.exists]
    constructor
    · rintro ⟨g, rest, hstart, hdone⟩
      split at hdone
      · rename_i hrest
        cases hdone
        rw [hstart, List.isEmpty_iff.1 hrest]
      · cases hdone
    · intro hstart
      exact ⟨f, [], hstart, rfl⟩
  rw [hread, readStart_eq_ok_iff]
  constructor
  · rintro ⟨p, hp, hchars, rfl⟩
    rw [List.append_nil] at hchars
    exact ⟨p, ⟨hp, trimmed_eq_chars_iff.1 hchars⟩, rfl⟩
  · rintro ⟨p, hp, rfl⟩
    exact ⟨p, hp.sound, by rw [List.append_nil, trimmed_eq_chars_iff.2 hp.whole], rfl⟩

/-- A text spells a filter in one way only. -/
theorem Spells.unique {text : String} {p q : Parts} (hp : Spells text p) (hq : Spells text q) :
    q = p := by
  refine Parts.eq_of_chars hq.sound hp.sound ?_
  rw [← trimmed_eq_chars_iff.2 hq.whole, trimmed_eq_chars_iff.2 hp.whole]

/-! ### Written forms -/

section Written

variable {f : Filter}

theorem Parts.IsSound.spellable {p : Parts} (h : p.IsSound) : p.filter.Spellable where
  name_ne := by
    rw [Parts.filter, String.toList_ofList]
    exact h.name_ne
  name_chars c hc := by
    rw [Parts.filter, String.toList_ofList] at hc
    exact isNameChar_iff.2 (h.name_chars c hc)
  value_ne := by
    rw [Parts.filter, String.toList_ofList]
    exact h.value_ne
  value_chars c hc := by
    rw [Parts.filter, String.toList_ofList] at hc
    rw [isValueChar, bne_iff_ne]
    exact fun hquote => h.value_chars (hquote ▸ hc)

/-- **What is read as a filter can be spelled.** -/
theorem spellable_of_read {text : String} (h : read text = .ok f) : f.Spellable := by
  obtain ⟨p, hp, rfl⟩ := read_eq_ok_iff.1 h
  exact hp.sound.spellable

theorem toList_text (f : Filter) :
    f.text.toList = '@' :: (f.name.toList ++ '=' :: '\'' :: (f.value.toList ++ ['\''])) := by
  simp [text, String.toList_append]

/-- There is nothing to be trimmed or unwrapped at the written form of a filter. -/
theorem trim_text (f : Filter) :
    Text.trimChars (unwrap (Text.trimChars f.text.toList)) = f.text.toList := by
  have htrim : Text.trimChars f.text.toList = f.text.toList := by
    apply Text.trimChars_of_ends
    · intro c hc
      rw [toList_text] at hc
      obtain rfl : '@' = c := by simpa using hc
      decide
    · intro c hc
      rw [toList_text] at hc
      obtain rfl : '\'' = c := by simpa [List.getLast?_cons] using hc
      decide
  have hunwrap : unwrap f.text.toList = f.text.toList := by
    rw [toList_text]
    rfl
  rw [htrim, hunwrap, htrim]

/-- **The written form** of a filter is read as it. -/
theorem read_text (h : f.Spellable) : read f.text = .ok f := by
  have hstart := readStart_text h []
  rw [List.append_nil] at hstart
  rw [read, trim_text, hstart]
  rfl

end Written

/-! ### The grammar -/

/-- **The grammar of filters.**  A text is read as a filter exactly if it spells one: trimmed, freed
of one pair of brackets around it and trimmed again, it is the sign `@`, a name, an equals sign with
blanks around it and a value in quotes, and nothing else.  It spells a filter in one way only, and it
is read as that filter, whose written form is read as it again. -/
theorem read_grammar (text : String) :
    ((∃ f, read text = .ok f) ↔ ∃ p, Spells text p) ∧
      (∀ p, Spells text p → read text = .ok p.filter ∧ ∀ q, Spells text q → q = p) ∧
      ∀ f, read text = .ok f → read f.text = .ok f := by
  refine ⟨⟨?_, ?_⟩, ?_, ?_⟩
  · rintro ⟨f, hf⟩
    obtain ⟨p, hp, -⟩ := read_eq_ok_iff.1 hf
    exact ⟨p, hp⟩
  · rintro ⟨p, hp⟩
    exact ⟨p.filter, read_eq_ok_iff.2 ⟨p, hp, rfl⟩⟩
  · intro p hp
    exact ⟨read_eq_ok_iff.2 ⟨p, hp, rfl⟩, fun q hq => hp.unique hq⟩
  · intro f hf
    exact read_text (spellable_of_read hf)

/-- Blanks of both kinds around brackets and the equals sign, and a value with a bracket at its
end. -/
theorem read_grammar_in_brackets :
    let text : String := "\u3000[ @a:b \t=\n'x]' ]\u00a0"
    let p : Parts := ⟨"a:b".toList, " \t".toList, "\n".toList, "x]".toList⟩
    Spells text p ∧ (read text = .ok p.filter ∧ ∀ q, Spells text q → q = p) ∧
      read p.filter.text = .ok p.filter := by
  intro text p
  have hname : p.name.all isNameChar = true := by decide +kernel
  have hbefore : p.before.all Char.isWhitespace = true := by decide
  have hafter : p.after.all Char.isWhitespace = true := by decide
  have hsound : p.IsSound :=
    ⟨by decide, fun c hc => isNameChar_iff.1 (List.all_eq_true.1 hname c hc),
      fun c hc => isWhitespace_iff.1 (List.all_eq_true.1 hbefore c hc),
      fun c hc => isWhitespace_iff.1 (List.all_eq_true.1 hafter c hc), by decide, by decide⟩
  have hspells : Spells text p := ⟨hsound, trimmed_eq_chars_iff.1 (by decide +kernel)⟩
  have hread := (read_grammar text).2.1 p hspells
  exact ⟨hspells, hread, (read_grammar text).2.2 _ hread.1⟩

end Crosswalk.Filter
