import Crosswalk.Markup.Name
import Crosswalk.Markup.Part

/-!
# Well-formed markup

What a well-formed document is, said of its text alone: references and characters that stand for
themselves, attributes with different names, elements whose end tag repeats the name of their start
tag, comments, and one outermost element with nothing but blanks and comments around it.  A tree of
parts with proper names and characters is written as such a text.

* `IsContent`, `IsElement`, `IsDocument` : the grammar.
* `Part.Sound` : the parts that may be written.
* `Part.Sound.isContent`, `isElement_element` : they are written well-formed.
-/

namespace Crosswalk.Markup

/-! ### The grammar -/

/-- Whether all characters of a text may stand in markup. -/
def IsLegal (cs : List Char) : Prop := ∀ c ∈ cs, isMarkupChar c = true

/-- Whether a text is a name. -/
def IsName (cs : List Char) : Prop :=
  ∃ c rest, cs = c :: rest ∧ isNameStart c = true ∧ ∀ d ∈ rest, isNameChar d = true

/-- Whether a text is a name without a colon. -/
def IsPlainName (cs : List Char) : Prop := IsName cs ∧ ':' ∉ cs

/-- The references that need no declaration. -/
def references : List (List Char) :=
  [['&', 'l', 't', ';'], ['&', 'g', 't', ';'], ['&', 'a', 'm', 'p', ';'],
   ['&', 'q', 'u', 'o', 't', ';'], ['&', 'a', 'p', 'o', 's', ';']]

/-- Whether a character may stand for itself in running text. -/
def IsTextChar (c : Char) : Prop := isMarkupChar c = true ∧ c ≠ '<' ∧ c ≠ '&' ∧ c ≠ '>'

/-- Whether a character may stand for itself between double quotes. -/
def IsValueChar (c : Char) : Prop := isMarkupChar c = true ∧ c ≠ '<' ∧ c ≠ '&' ∧ c ≠ '"'

/-- Whether a text may stand for itself between double quotes. -/
def IsPlainValue (cs : List Char) : Prop := ∀ c ∈ cs, IsValueChar c

/-- The values that may stand between double quotes. -/
inductive IsValue : List Char → Prop
  | nil : IsValue []
  | char {c : Char} {rest : List Char} (hc : IsValueChar c) (hrest : IsValue rest) :
      IsValue (c :: rest)
  | reference {r rest : List Char} (hr : r ∈ references) (hrest : IsValue rest) :
      IsValue (r ++ rest)

/-- The attributes of a tag, by the list of their names, which differ. -/
inductive IsAttributes : List (List Char) → List Char → Prop
  | nil : IsAttributes [] []
  | cons {gap name value rest : List Char} {names : List (List Char)}
      (hgap : gap ≠ []) (hblank : ∀ c ∈ gap, c.isWhitespace = true) (hname : IsName name)
      (hnew : name ∉ names) (hvalue : IsValue value) (hrest : IsAttributes names rest) :
      IsAttributes (name :: names) (gap ++ name ++ '=' :: '"' :: (value ++ '"' :: rest))

/-- Whether a text is a comment: no two hyphens stand inside, and no hyphen at the end. -/
def IsComment (cs : List Char) : Prop :=
  ∃ inside, cs = '<' :: '!' :: '-' :: '-' :: (inside ++ ['-', '-', '>']) ∧ IsLegal inside ∧
    ¬ ['-', '-'] <:+: inside ∧ inside.getLast? ≠ some '-'

mutual

/-- The elements of a name. -/
inductive IsElement : List Char → List Char → Prop
  | tags {name attributes content : List Char} {names : List (List Char)} (hname : IsName name)
      (hattributes : IsAttributes names attributes) (hcontent : IsContent content) :
      IsElement name
        ('<' :: (name ++ (attributes ++ '>' :: (content ++ '<' :: '/' :: (name ++ ['>'])))))
  | single {name attributes : List Char} {names : List (List Char)} (hname : IsName name)
      (hattributes : IsAttributes names attributes) :
      IsElement name ('<' :: (name ++ (attributes ++ ['/', '>'])))

/-- What may stand between a start tag and its end tag. -/
inductive IsContent : List Char → Prop
  | nil : IsContent []
  | char {c : Char} {rest : List Char} (hc : IsTextChar c) (hrest : IsContent rest) :
      IsContent (c :: rest)
  | reference {r rest : List Char} (hr : r ∈ references) (hrest : IsContent rest) :
      IsContent (r ++ rest)
  | comment {cs rest : List Char} (hcs : IsComment cs) (hrest : IsContent rest) :
      IsContent (cs ++ rest)
  | element {name cs rest : List Char} (hcs : IsElement name cs) (hrest : IsContent rest) :
      IsContent (cs ++ rest)

end

/-- What may stand before and after the outermost element. -/
inductive IsMisc : List Char → Prop
  | nil : IsMisc []
  | blank {c : Char} {rest : List Char} (hc : c.isWhitespace = true) (hrest : IsMisc rest) :
      IsMisc (c :: rest)
  | comment {cs rest : List Char} (hcs : IsComment cs) (hrest : IsMisc rest) :
      IsMisc (cs ++ rest)

/-- The declaration of the version and the encoding. -/
def declaration : List Char := "<?xml version=\"1.0\" encoding=\"UTF-8\"?>".toList

/-- Whether a text is a well-formed document whose outermost element has a name. -/
def IsDocument (name cs : List Char) : Prop :=
  ∃ before element after, cs = declaration ++ (before ++ (element ++ after)) ∧ IsMisc before ∧
    IsElement name element ∧ IsMisc after

/-! ### Names and characters -/

theorem isLegal_nil : IsLegal [] := fun _ hc => nomatch hc

theorem IsLegal.append {cs ds : List Char} (h : IsLegal cs) (hds : IsLegal ds) :
    IsLegal (cs ++ ds) := by
  intro c hc
  rcases List.mem_append.1 hc with hc | hc
  · exact h c hc
  · exact hds c hc

instance (cs : List Char) : Decidable (IsLegal cs) :=
  decidable_of_iff (cs.all isMarkupChar = true) List.all_eq_true

instance (c : Char) : Decidable (IsValueChar c) :=
  inferInstanceAs (Decidable (_ ∧ _ ∧ _ ∧ _))

instance (cs : List Char) : Decidable (IsPlainValue cs) :=
  decidable_of_iff (cs.all (fun c => decide (IsValueChar c)) = true)
    (by simp only [IsPlainValue, List.all_eq_true, decide_eq_true_eq])

theorem isName_cons (c : Char) (rest : List Char) :
    IsName (c :: rest) ↔ isNameStart c = true ∧ ∀ d ∈ rest, isNameChar d = true := by
  constructor
  · intro ⟨_, _, heq, hfirst, hinner⟩
    cases heq
    exact ⟨hfirst, hinner⟩
  · intro h
    exact ⟨c, rest, rfl, h⟩

instance : (cs : List Char) → Decidable (IsName cs)
  | [] => isFalse fun ⟨_, _, heq, _⟩ => nomatch heq
  | c :: rest =>
    decidable_of_iff (isNameStart c = true ∧ rest.all isNameChar = true)
      (by rw [isName_cons, List.all_eq_true])

instance (cs : List Char) : Decidable (IsPlainName cs) :=
  inferInstanceAs (Decidable (_ ∧ _))

/-- A character of a name stands for itself between double quotes. -/
theorem isValueChar_of_isNameChar {c : Char} (h : isNameChar c = true) : IsValueChar c := by
  refine ⟨?_, ?_, ?_, ?_⟩
  · have hlow : ¬ c.toNat < 0x20 := by
      intro hlt
      have hstart : c.toNat < 0x3A := by omega
      have hinner : c.toNat < 0x2D := by omega
      simp [isNameChar, isNameStart, nameStartRanges, nameInnerRanges, Text.memRanges, hstart,
        hinner] at h
    have hlast : ∀ n, c.toNat = n →
        (Text.memRanges nameStartRanges n || Text.memRanges nameInnerRanges n) = true := by
      intro n hn
      rw [← hn]
      exact h
    have hfffe : c.toNat ≠ 0xFFFE := fun hn => absurd (hlast _ hn) (by decide)
    have hffff : c.toNat ≠ 0xFFFF := fun hn => absurd (hlast _ hn) (by decide)
    simp [isMarkupChar, hlow, hfffe, hffff]
  all_goals
    rintro rfl
    exact absurd h (by decide)

theorem IsName.isPlainValue {cs : List Char} (h : IsName cs) : IsPlainValue cs := by
  obtain ⟨first, rest, rfl, hfirst, hinner⟩ := h
  intro c hc
  rcases List.mem_cons.1 hc with rfl | hc
  · exact isValueChar_of_isNameChar (isNameChar_of_isNameStart hfirst)
  · exact isValueChar_of_isNameChar (hinner c hc)

theorem IsPlainValue.isLegal {cs : List Char} (h : IsPlainValue cs) : IsLegal cs :=
  fun c hc => (h c hc).1

theorem IsName.isLegal {cs : List Char} (h : IsName cs) : IsLegal cs := h.isPlainValue.isLegal

theorem isLegal_flatMap {α : Type} {xs : List α} {f : α → List Char}
    (h : ∀ x ∈ xs, IsLegal (f x)) : IsLegal (xs.flatMap f) := by
  intro c hc
  obtain ⟨x, hx, hmem⟩ := List.mem_flatMap.1 hc
  exact h x hx c hmem

theorem isLegal_intercalate {separator : List Char} (hseparator : IsLegal separator)
    {texts : List (List Char)} (h : ∀ cs ∈ texts, IsLegal cs) :
    IsLegal (separator.intercalate texts) := by
  induction texts with
  | nil => exact isLegal_nil
  | cons cs rest ih =>
    obtain ⟨hcs, hrest⟩ := List.forall_mem_cons.1 h
    match rest with
    | [] =>
      rw [List.intercalate_singleton]
      exact hcs
    | next :: rest =>
      rw [List.intercalate_cons_cons]
      exact (hcs.append hseparator).append (ih hrest)

/-- A plain value is written as it is. -/
theorem IsPlainValue.isValue {cs : List Char} (h : IsPlainValue cs) : IsValue cs := by
  induction cs with
  | nil => exact .nil
  | cons c cs ih =>
    obtain ⟨hc, hlater⟩ := List.forall_mem_cons.1 h
    exact .char hc (ih hlater)

/-! ### Escaped characters -/

/-- An escaped character is a reference, or stands for itself. -/
theorem textChar_cases {c : Char} (h : isMarkupChar c = true) :
    textChar c ∈ references ∨ (textChar c = [c] ∧ IsTextChar c) := by
  unfold textChar
  split
  · exact Or.inl (by decide)
  split
  · exact Or.inl (by decide)
  split
  · exact Or.inl (by decide)
  · rename_i hless hgreater hampersand
    exact Or.inr ⟨rfl, h, hless, hampersand, hgreater⟩

theorem quotedChar_cases {c : Char} (h : isMarkupChar c = true) :
    quotedChar c ∈ references ∨ (quotedChar c = [c] ∧ IsValueChar c) := by
  unfold quotedChar
  split
  · exact Or.inl (by decide)
  · rename_i hquote
    rcases textChar_cases h with href | ⟨heq, _, hless, hampersand, _⟩
    · exact Or.inl href
    · exact Or.inr ⟨heq, h, hless, hampersand, hquote⟩

theorem namespaceChar_cases {c : Char} (h : isMarkupChar c = true) :
    namespaceChar c ∈ references ∨ (namespaceChar c = [c] ∧ IsValueChar c) := by
  unfold namespaceChar
  split
  · exact Or.inl (by decide)
  · exact quotedChar_cases h

theorem isContent_escapeText {s : String} (h : IsLegal s.toList) {rest : List Char}
    (hrest : IsContent rest) : IsContent (escapeText s ++ rest) := by
  have hall : ∀ cs, IsLegal cs → IsContent (cs.flatMap textChar ++ rest) := by
    intro cs hcs
    induction cs with
    | nil => exact hrest
    | cons c cs ih =>
      obtain ⟨hc, hlater⟩ := List.forall_mem_cons.1 hcs
      rw [List.flatMap_cons, List.append_assoc]
      rcases textChar_cases hc with href | ⟨heq, hchar⟩
      · exact .reference href (ih hlater)
      · rw [heq]
        exact .char hchar (ih hlater)
  exact hall s.toList h

/-- Values whose characters are escaped to references or stand for themselves. -/
theorem isValue_flatMap {escape : Char → List Char}
    (hescape : ∀ c, isMarkupChar c = true →
      escape c ∈ references ∨ (escape c = [c] ∧ IsValueChar c))
    {cs : List Char} (h : IsLegal cs) : IsValue (cs.flatMap escape) := by
  induction cs with
  | nil => exact .nil
  | cons c cs ih =>
    obtain ⟨hc, hlater⟩ := List.forall_mem_cons.1 h
    rw [List.flatMap_cons]
    rcases hescape c hc with href | ⟨heq, hchar⟩
    · exact .reference href (ih hlater)
    · rw [heq]
      exact .char hchar (ih hlater)

/-! ### Attributes -/

/-- Whether an attribute may be written: what is not escaped stands for itself. -/
structure Given.Sound (a : Given) : Prop where
  gap_ne : a.gap.toList ≠ []
  gap_blank : ∀ c ∈ a.gap.toList, c.isWhitespace = true
  name : IsName a.name.toList
  legal : IsLegal a.value.toList
  plain : a.quoting = .plain → IsPlainValue a.value.toList

theorem Given.Sound.isValue {a : Given} (h : a.Sound) :
    IsValue (a.quoting.escape a.value) := by
  cases hquoting : a.quoting with
  | plain => exact (h.plain hquoting).isValue
  | quoted => exact isValue_flatMap (fun _ => quotedChar_cases) h.legal
  | namespaceUri => exact isValue_flatMap (fun _ => namespaceChar_cases) h.legal

/-- Attributes with different names are written as the attributes of a tag. -/
theorem isAttributes_flatMap {attributes : List Given} (h : ∀ a ∈ attributes, a.Sound)
    (hnames : (attributes.map Given.name).Nodup) :
    IsAttributes (attributes.map fun a => a.name.toList) (attributes.flatMap Given.chars) := by
  induction attributes with
  | nil => exact .nil
  | cons a rest ih =>
    obtain ⟨ha, hrest⟩ := List.forall_mem_cons.1 h
    obtain ⟨hnew, hdistinct⟩ := List.nodup_cons.1 hnames
    have hfresh : a.name.toList ∉ rest.map fun b => b.name.toList := by
      intro hmem
      obtain ⟨b, hb, heq⟩ := List.mem_map.1 hmem
      exact hnew (String.toList_injective heq ▸ List.mem_map_of_mem hb)
    have hcons := IsAttributes.cons ha.gap_ne ha.gap_blank ha.name hfresh ha.isValue
      (ih hrest hdistinct)
    rw [List.flatMap_cons, Given.chars]
    simpa [List.append_assoc] using hcons

/-! ### Parts -/

/-- The parts that may be written. -/
inductive Part.Sound : Part → Prop
  | element {name : String} {attributes : List Given} {content : List Part}
      (hname : IsName name.toList) (hattributes : ∀ a ∈ attributes, a.Sound)
      (hdistinct : (attributes.map Given.name).Nodup) (hcontent : ∀ p ∈ content, Sound p) :
      Sound (.element name attributes content)
  | single {name : String} {attributes : List Given} (hname : IsName name.toList)
      (hattributes : ∀ a ∈ attributes, a.Sound) (hdistinct : (attributes.map Given.name).Nodup) :
      Sound (.single name attributes)
  | text {content : String} (h : IsLegal content.toList) : Sound (.text content)
  | comment {content : String} (h : IsLegal content.toList)
      (hpairs : ¬ ['-', '-'] <:+: content.toList) (hlast : content.toList.getLast? ≠ some '-') :
      Sound (.comment content)

/-- An element whose content is written well-formed is so itself. -/
theorem isElement_of_content {name : String} {attributes : List Given} {content : List Part}
    (hname : IsName name.toList) (hattributes : ∀ a ∈ attributes, a.Sound)
    (hdistinct : (attributes.map Given.name).Nodup)
    (hcontent : IsContent (Part.charsOf content)) :
    IsElement name.toList (Part.element name attributes content).chars := by
  have htags := IsElement.tags hname (isAttributes_flatMap hattributes hdistinct) hcontent
  rw [Part.chars, Part.tagChars]
  simpa [List.append_assoc] using htags

theorem isContent_charsOf {parts : List Part}
    (h : ∀ p ∈ parts, ∀ rest, IsContent rest → IsContent (p.chars ++ rest)) :
    IsContent (Part.charsOf parts) := by
  induction parts with
  | nil => exact .nil
  | cons p parts ih =>
    obtain ⟨hp, hparts⟩ := List.forall_mem_cons.1 h
    rw [Part.charsOf]
    exact hp _ (ih hparts)

theorem isComment_comment {content : String} (h : IsLegal content.toList)
    (hpairs : ¬ ['-', '-'] <:+: content.toList) (hlast : content.toList.getLast? ≠ some '-') :
    IsComment (Part.comment content).chars :=
  ⟨content.toList, by rw [Part.chars], h, hpairs, hlast⟩

/-- **Sound parts are written well-formed**, in front of whatever else is. -/
theorem Part.Sound.isContent {p : Part} (h : p.Sound) {rest : List Char}
    (hrest : IsContent rest) : IsContent (p.chars ++ rest) := by
  induction h generalizing rest with
  | element hname hattributes hdistinct _ ih =>
    have hcontent := isContent_charsOf fun p hp rest hrest => ih p hp hrest
    exact .element (isElement_of_content hname hattributes hdistinct hcontent) hrest
  | @single name attributes hname hattributes hdistinct =>
    have hsingle := IsElement.single hname (isAttributes_flatMap hattributes hdistinct)
    have hchars : (Part.single name attributes).chars
        = '<' :: (name.toList ++ (attributes.flatMap Given.chars ++ ['/', '>'])) := by
      simp [Part.chars, Part.tagChars]
    rw [hchars]
    exact .element hsingle hrest
  | text h =>
    rw [Part.chars]
    exact isContent_escapeText h hrest
  | comment h hpairs hlast => exact .comment (isComment_comment h hpairs hlast) hrest

/-- **A sound element is written as a well-formed element** of its name. -/
theorem isElement_element {name : String} {attributes : List Given} {content : List Part}
    (h : (Part.element name attributes content).Sound) :
    IsElement name.toList (Part.element name attributes content).chars := by
  cases h with
  | element hname hattributes hdistinct hcontent =>
    have hwritten := isContent_charsOf fun p hp _ hrest => (hcontent p hp).isContent hrest
    exact isElement_of_content hname hattributes hdistinct hwritten

end Crosswalk.Markup
