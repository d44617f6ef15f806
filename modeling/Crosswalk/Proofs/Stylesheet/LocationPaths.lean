import Crosswalk.Proofs.Markup.WellFormed
import Crosswalk.Proofs.Path.Grammar
import Crosswalk.Proofs.Path.Names
import Crosswalk.Proofs.Path.Printing
import Crosswalk.Stylesheet.XPath

/-!
# What location paths tell

The steps of a path can be told from its location path, positions apart.  A name ends at a slash or
at a bracket.  A filter may hold both, but only in its value, and that stands between the first
quotes; after them come nothing but blanks and brackets, up to the slash of the next step.

* `Filter.isQuoted_of_read`, `Filter.eq_of_bracketed` : where a filter ends.
* `XPath.eq_of_stepChars` : where a step ends.
* `XPath.eq_of_chars` : the steps, one after the other.
* `XPath.ofPath_eq_iff` : when two paths have the same location path.
-/

namespace Crosswalk

namespace Filter

/-! ### Where a filter ends -/

/-- Whether a character is a blank or a closing bracket, as may follow the value of a filter. -/
def isTail (c : Char) : Bool :=
  Text.isBlank c || c == ']'

theorem isTail_of_isBlank {c : Char} (h : Text.isBlank c = true) : isTail c = true := by
  rw [isTail, h]
  rfl

theorem isTail_of_mem_closing : ∀ c ∈ [']'], isTail c = true := by
  intro c hc
  obtain rfl := List.mem_singleton.1 hc
  rfl

theorem ne_quote_of_isBlank {c : Char} (h : Text.isBlank c = true) : c ≠ '\'' := by
  rintro rfl
  exact absurd h (by decide)

/-- Whether a text has a value between its first quotes, and only blanks and closing brackets after
it. -/
def IsQuoted (cs : List Char) : Prop :=
  ∃ lead value tail, cs = lead ++ '\'' :: (value ++ '\'' :: tail) ∧
    '\'' ∉ lead ∧ '\'' ∉ value ∧ ∀ c ∈ tail, isTail c = true

/-- More may stand around a text with a value in quotes. -/
theorem IsQuoted.around {cs before after : List Char} (h : IsQuoted cs) (hbefore : '\'' ∉ before)
    (hafter : ∀ c ∈ after, isTail c = true) : IsQuoted (before ++ (cs ++ after)) := by
  obtain ⟨lead, value, tail, rfl, hlead, hvalue, htail⟩ := h
  refine ⟨before ++ lead, value, tail ++ after, by simp, by simp [hbefore, hlead], hvalue, ?_⟩
  intro c hc
  exact (List.mem_append.1 hc).elim (htail c) (hafter c)

/-- So blanks at both ends make no difference. -/
theorem IsQuoted.of_isTrimmed {cs core : List Char} (h : IsQuoted core)
    (htrimmed : Text.IsTrimmed cs core) : IsQuoted cs := by
  obtain ⟨before, after, rfl, hbefore, hafter⟩ := htrimmed.around
  exact h.around (fun hquote => ne_quote_of_isBlank (hbefore _ hquote) rfl)
    fun c hc => isTail_of_isBlank (hafter c hc)

theorem IsQuoted.of_isUnwrapped {cs inner : List Char} (h : IsQuoted inner)
    (hunwrapped : IsUnwrapped cs inner) : IsQuoted cs := by
  rcases hunwrapped with rfl | ⟨rfl, -⟩
  · have hopen : '\'' ∉ ['['] := by decide
    exact h.around hopen isTail_of_mem_closing
  · exact h

/-- The value of a filter stands in quotes, and nothing comes after it. -/
theorem Parts.IsSound.isQuoted {p : Parts} (h : p.IsSound) : IsQuoted p.chars := by
  refine ⟨'@' :: (p.name ++ (p.before ++ '=' :: p.after)), p.value, [], ?_, ?_, h.value_chars, ?_⟩
  · simp [Parts.chars]
  · have hname : '\'' ∉ p.name := by
      intro hquote
      exact absurd (isNameChar_iff.2 (h.name_chars _ hquote)) (by decide +kernel)
    have hbefore : '\'' ∉ p.before := fun hquote => absurd (h.before_blank _ hquote) (by decide)
    have hafter : '\'' ∉ p.after := fun hquote => absurd (h.after_blank _ hquote) (by decide)
    simp [hname, hbefore, hafter]
  · simp

/-- **A text that is read as a filter** has its value in quotes. -/
theorem isQuoted_of_read {text : String} {f : Filter} (h : read text = .ok f) :
    IsQuoted text.toList := by
  obtain ⟨p, ⟨hsound, outer, inner, houter, hinner, hchars⟩, -⟩ := read_eq_ok_iff.1 h
  exact ((hsound.isQuoted.of_isTrimmed hchars).of_isUnwrapped hinner).of_isTrimmed houter

/-- A text is divided at its first quote in one way only. -/
private theorem eq_of_quote {front other rest more : List Char} (hfront : '\'' ∉ front)
    (hother : '\'' ∉ other) (h : front ++ '\'' :: rest = other ++ '\'' :: more) :
    front = other ∧ rest = more := by
  have haccepts : ∀ cs : List Char, '\'' ∉ cs → ∀ c ∈ cs, (c != '\'') = true := by
    intro cs hcs c hc
    rw [bne_iff_ne]
    exact fun heq => hcs (heq ▸ hc)
  have hstops : ∀ cs : List Char, Text.Stops (· != '\'') ('\'' :: cs) :=
    fun cs => Text.stops_cons (by decide) cs
  obtain ⟨hsame, hquoted⟩ := Text.run_unique (haccepts front hfront) (hstops rest)
    (haccepts other hother) (hstops more) h
  exact ⟨hsame, (List.cons.inj hquoted).2⟩

/-- Texts with values in quotes that begin alike are the same, if neither a blank nor a bracket
follows them. -/
theorem IsQuoted.eq_of_append {cs ds rest more : List Char} (hc : IsQuoted cs) (hd : IsQuoted ds)
    (hrest : Text.Stops isTail rest) (hmore : Text.Stops isTail more)
    (h : cs ++ rest = ds ++ more) : cs = ds ∧ rest = more := by
  obtain ⟨lead, value, tail, rfl, hlead, hvalue, htail⟩ := hc
  obtain ⟨lead', value', tail', rfl, hlead', hvalue', htail'⟩ := hd
  simp only [List.append_assoc, List.cons_append] at h
  obtain ⟨rfl, hvalues⟩ := eq_of_quote hlead hlead' h
  obtain ⟨rfl, htails⟩ := eq_of_quote hvalue hvalue' hvalues
  obtain ⟨rfl, hrests⟩ := Text.run_unique htail hrest htail' hmore htails
  exact ⟨rfl, hrests⟩

/-- **Two filters in brackets** that begin alike are the same. -/
theorem eq_of_bracketed {text other : String} {f g : Filter} (hf : read text = .ok f)
    (hg : read other = .ok g) {rest more : List Char} (hrest : Text.Stops isTail rest)
    (hmore : Text.Stops isTail more)
    (h : text.toList ++ ']' :: rest = other.toList ++ ']' :: more) :
    text = other ∧ rest = more := by
  -- The closing bracket counts as one of those that may come after the value.
  have hclosed : ∀ cs : List Char, IsQuoted cs → IsQuoted (cs ++ [']']) := by
    intro cs hcs
    exact hcs.around List.not_mem_nil isTail_of_mem_closing
  rw [List.append_cons, List.append_cons other.toList] at h
  obtain ⟨htexts, hrests⟩ := (hclosed _ (isQuoted_of_read hf)).eq_of_append
    (hclosed _ (isQuoted_of_read hg)) hrest hmore h
  exact ⟨String.toList_inj.1 (List.append_cancel_right htexts), hrests⟩

end Filter

namespace XPath

/-! ### Where a step ends -/

variable {qualifier : String}

/-- Whether a step can be told from what is written for it: its name has neither a slash nor an
opening bracket, and its brackets hold a filter. -/
structure IsTellable (step : Segment) : Prop where
  name : ∀ name, step.name? = some name → '/' ∉ name.toList ∧ '[' ∉ name.toList
  filter : ∀ text, step.brackets? = some text → ∃ f, Filter.read text = .ok f

/-- The characters of the brackets of a step. -/
def bracketChars : Option String → List Char
  | some inside => '[' :: (inside.toList ++ [']'])
  | none => []

theorem toList_step_element (name : String) (brackets : Option String) :
    (step qualifier (.element name brackets)).toList
      = '/' :: (qualifier.toList ++ ':' :: (name.toList ++ bracketChars brackets)) := by
  cases brackets <;> simp [step, bracketChars, String.toList_append]

theorem toList_step_attribute (name : String) :
    (step qualifier (.attribute name)).toList = '/' :: '@' :: name.toList := by
  simp [step, String.toList_append]

/-- Whether a text can follow a step: it is empty or begins with the slash of the next one. -/
def FollowsStep (rest : List Char) : Prop :=
  ∀ c ∈ rest.head?, c = '/'

theorem FollowsStep.stops {rest : List Char} (h : FollowsStep rest) {accepts : Char → Bool}
    (hslash : accepts '/' = false) : Text.Stops accepts rest := by
  intro c hc
  rw [h c hc]
  exact hslash

/-- Whether a character can stand in the name of an element. -/
def isInName (c : Char) : Bool :=
  c != '/' && c != '['

/-- Brackets, if there are some, and what follows them. -/
theorem eq_of_bracketChars {brackets others : Option String}
    (hbrackets : ∀ text, brackets = some text → ∃ f, Filter.read text = .ok f)
    (hothers : ∀ text, others = some text → ∃ f, Filter.read text = .ok f)
    {rest more : List Char} (hrest : FollowsStep rest) (hmore : FollowsStep more)
    (h : bracketChars brackets ++ rest = bracketChars others ++ more) :
    brackets = others ∧ rest = more := by
  have hnone : ∀ cs ds : List Char, FollowsStep cs → cs ≠ '[' :: ds := by
    rintro _ ds hcs rfl
    exact absurd (hcs '[' rfl) (by decide)
  cases brackets with
  | none =>
    cases others with
    | none => exact ⟨rfl, h⟩
    | some other => exact absurd h (hnone _ _ hrest)
  | some text =>
    cases others with
    | none => exact absurd h.symm (hnone _ _ hmore)
    | some other =>
      obtain ⟨f, hf⟩ := hbrackets text rfl
      obtain ⟨g, hg⟩ := hothers other rfl
      have hinside : text.toList ++ ']' :: rest = other.toList ++ ']' :: more := by
        simpa [bracketChars] using h
      obtain ⟨rfl, hrests⟩ :=
        Filter.eq_of_bracketed hf hg (hrest.stops (by decide)) (hmore.stops (by decide)) hinside
      exact ⟨rfl, hrests⟩

theorem stops_bracketChars (brackets : Option String) {rest : List Char} (h : FollowsStep rest) :
    Text.Stops isInName (bracketChars brackets ++ rest) := by
  cases brackets with
  | none => exact h.stops (by decide)
  | some text => exact Text.stops_cons (by decide) _

theorem isInName_of_tellable {step : Segment} (h : IsTellable step) {name : String}
    (hname : step.name? = some name) : ∀ c ∈ name.toList, isInName c = true := by
  obtain ⟨hslash, hopen⟩ := h.name name hname
  intro c hc
  have hne : c ≠ '/' ∧ c ≠ '[' := ⟨fun heq => hslash (heq ▸ hc), fun heq => hopen (heq ▸ hc)⟩
  simp [isInName, hne]

/-- What is written for an element does not begin like an attribute. -/
theorem ne_mark_of_qualifier (hqualifier : '@' ∉ qualifier.toList) (cs ds : List Char) :
    qualifier.toList ++ ':' :: cs ≠ '@' :: ds := by
  cases hchars : qualifier.toList with
  | nil => simp
  | cons c rest =>
    intro heq
    obtain ⟨rfl, -⟩ := List.cons.inj heq
    rw [hchars] at hqualifier
    exact hqualifier List.mem_cons_self

/-- **Two steps** that begin alike are the same, if other steps or nothing follow them. -/
theorem eq_of_stepChars (hqualifier : '@' ∉ qualifier.toList) {s t : Segment}
    (hs : IsTellable s) (ht : IsTellable t) (hsNamed : s.isIndex = false)
    (htNamed : t.isIndex = false) {rest more : List Char} (hrest : FollowsStep rest)
    (hmore : FollowsStep more)
    (h : (step qualifier s).toList ++ rest = (step qualifier t).toList ++ more) :
    s = t ∧ rest = more := by
  cases s with
  | element name brackets =>
    rw [toList_step_element] at h
    cases t with
    | element other others =>
      rw [toList_step_element] at h
      simp only [List.cons_append, List.append_assoc] at h
      have hnames := (List.cons.inj (List.append_cancel_left (List.cons.inj h).2)).2
      obtain ⟨hname, hbrackets⟩ := Text.run_unique (isInName_of_tellable hs rfl)
        (stops_bracketChars brackets hrest) (isInName_of_tellable ht rfl)
        (stops_bracketChars others hmore) hnames
      obtain ⟨rfl, hrests⟩ := eq_of_bracketChars hs.filter ht.filter hrest hmore hbrackets
      rw [String.toList_inj.1 hname]
      exact ⟨rfl, hrests⟩
    | «attribute» other =>
      rw [toList_step_attribute] at h
      simp only [List.cons_append, List.append_assoc] at h
      exact absurd (List.cons.inj h).2 (ne_mark_of_qualifier hqualifier _ _)
    | index n => cases htNamed
  | «attribute» name =>
    rw [toList_step_attribute] at h
    cases t with
    | element other others =>
      rw [toList_step_element] at h
      simp only [List.cons_append, List.append_assoc] at h
      exact absurd (List.cons.inj h).2.symm (ne_mark_of_qualifier hqualifier _ _)
    | «attribute» other =>
      rw [toList_step_attribute] at h
      simp only [List.cons_append] at h
      obtain ⟨hname, hrests⟩ := Text.run_unique (isInName_of_tellable hs rfl)
        (hrest.stops (by decide)) (isInName_of_tellable ht rfl) (hmore.stops (by decide))
        (List.cons.inj (List.cons.inj h).2).2
      rw [String.toList_inj.1 hname]
      exact ⟨rfl, hrests⟩
    | index n => cases htNamed
  | index n => cases hsNamed

/-! ### The steps of a path -/

/-- What is written for some steps. -/
def chars (qualifier : String) (steps : List Segment) : List Char :=
  (String.join (steps.map (step qualifier))).toList

theorem chars_cons (s : Segment) (rest : List Segment) :
    chars qualifier (s :: rest) = (step qualifier s).toList ++ chars qualifier rest := by
  simp [chars, String.join_cons, String.toList_append]

/-- A step that is no position begins with a slash and has more than that. -/
theorem exists_stepChars (qualifier : String) {s : Segment} (h : s.isIndex = false) :
    ∃ c rest, (step qualifier s).toList = '/' :: c :: rest := by
  cases s with
  | element name brackets =>
    rw [toList_step_element]
    cases qualifier.toList with
    | nil => exact ⟨_, _, rfl⟩
    | cons c rest => exact ⟨_, _, rfl⟩
  | «attribute» name => exact ⟨_, _, toList_step_attribute name⟩
  | index n => cases h

theorem followsStep_chars {steps : List Segment} (h : ∀ s ∈ steps, s.isIndex = false) :
    FollowsStep (chars qualifier steps) := by
  cases steps with
  | nil => simp [FollowsStep, chars, String.join]
  | cons s rest =>
    obtain ⟨c, more, hchars⟩ := exists_stepChars qualifier (h s List.mem_cons_self)
    rw [chars_cons, hchars]
    intro d hd
    exact (Option.some.inj hd).symm

/-- **Steps are told** from what is written for them. -/
theorem eq_of_chars (hqualifier : '@' ∉ qualifier.toList) {steps others : List Segment}
    (hsteps : ∀ s ∈ steps, IsTellable s) (hnamed : ∀ s ∈ steps, s.isIndex = false)
    (hothers : ∀ s ∈ others, IsTellable s) (hothersNamed : ∀ s ∈ others, s.isIndex = false)
    (h : chars qualifier steps = chars qualifier others) : steps = others := by
  have hempty : ∀ (s : Segment) (rest : List Segment), s.isIndex = false →
      chars qualifier (s :: rest) ≠ chars qualifier [] := by
    intro s rest hs hnil
    obtain ⟨c, more, hchars⟩ := exists_stepChars qualifier hs
    rw [chars_cons, hchars] at hnil
    simp [chars, String.join] at hnil
  induction steps generalizing others with
  | nil =>
    cases others with
    | nil => rfl
    | cons t more => exact absurd h.symm (hempty t more (hothersNamed t List.mem_cons_self))
  | cons s rest ih =>
    cases others with
    | nil => exact absurd h (hempty s rest (hnamed s List.mem_cons_self))
    | cons t more =>
      obtain ⟨hs, hrest⟩ := List.forall_mem_cons.1 hsteps
      obtain ⟨hsNamed, hrestNamed⟩ := List.forall_mem_cons.1 hnamed
      obtain ⟨ht, hmore⟩ := List.forall_mem_cons.1 hothers
      obtain ⟨htNamed, hmoreNamed⟩ := List.forall_mem_cons.1 hothersNamed
      rw [chars_cons, chars_cons] at h
      obtain ⟨rfl, htails⟩ := eq_of_stepChars hqualifier hs ht hsNamed htNamed
        (followsStep_chars hrestNamed) (followsStep_chars hmoreNamed) h
      rw [ih hrest hrestNamed hmore hmoreNamed htails]

theorem toList_ofSegments_cons {s : Segment} (h : s.isIndex = false) (rest : List Segment) :
    (ofSegments qualifier (s :: rest)).toList = chars qualifier (s :: rest) := by
  obtain ⟨c, more, hchars⟩ := exists_stepChars qualifier h
  have hne : (String.join ((s :: rest).map (step qualifier))).isEmpty = false := by
    rw [Bool.eq_false_iff, Ne, String.isEmpty_iff, ← String.toList_inj]
    change chars qualifier (s :: rest) ≠ []
    rw [chars_cons, hchars]
    exact List.cons_ne_nil _ _
  rw [ofSegments, orRoot, hne]
  rfl

/-- The root is not written like a path that has a step. -/
theorem ofSegments_cons_ne_nil {s : Segment} (h : s.isIndex = false) (rest : List Segment) :
    ofSegments qualifier (s :: rest) ≠ ofSegments qualifier [] := by
  obtain ⟨c, more, hchars⟩ := exists_stepChars qualifier h
  intro heq
  have hroot : ofSegments qualifier [] = "/" := rfl
  have hlist := congrArg String.toList (heq.trans hroot)
  rw [toList_ofSegments_cons h, chars_cons, hchars] at hlist
  simp at hlist

/-- What is written for some steps is told from their location path. -/
theorem chars_of_ofSegments {steps others : List Segment} (hnamed : ∀ s ∈ steps, s.isIndex = false)
    (hothersNamed : ∀ s ∈ others, s.isIndex = false)
    (h : ofSegments qualifier steps = ofSegments qualifier others) :
    chars qualifier steps = chars qualifier others := by
  cases steps with
  | nil =>
    cases others with
    | nil => rfl
    | cons t more =>
      exact absurd h.symm (ofSegments_cons_ne_nil (hothersNamed t List.mem_cons_self) more)
  | cons s rest =>
    have hs := hnamed s List.mem_cons_self
    cases others with
    | nil => exact absurd h (ofSegments_cons_ne_nil hs rest)
    | cons t more =>
      rw [← toList_ofSegments_cons hs, h,
        toList_ofSegments_cons (hothersNamed t List.mem_cons_self)]

/-- **Different fields have different location paths.**  Where no name has a slash or a bracket and
all brackets hold filters, two paths have the same location path exactly if they have the same
steps, positions apart. -/
theorem ofPath_eq_iff {text other : String} {p q : FieldPath}
    (hqualifier : Markup.IsPlainName qualifier.toList) (hp : FieldPath.read text = .ok p)
    (hq : FieldPath.read other = .ok q) (htellable : ∀ s ∈ p.segments, IsTellable s)
    (hotherTellable : ∀ s ∈ q.segments, IsTellable s) :
    ofPath qualifier text = ofPath qualifier other ↔
      p.segments.filter (fun s => !s.isIndex) = q.segments.filter (fun s => !s.isIndex) := by
  have hat : '@' ∉ qualifier.toList := Markup.not_mem_of_isName hqualifier.1 (by decide)
  rw [ofPath, ofPath, (FieldPath.read_eq_ok_iff.1 hp).2.2, (FieldPath.read_eq_ok_iff.1 hq).2.2,
    ← ofSegments_named qualifier p.segments, ← ofSegments_named qualifier q.segments]
  have hnamed : ∀ ss : List Segment, ∀ s ∈ ss.filter (fun s => !s.isIndex), s.isIndex = false := by
    intro ss s hs
    simpa using (List.mem_filter.1 hs).2
  constructor
  · intro h
    exact eq_of_chars hat (fun s hs => htellable s (List.mem_filter.1 hs).1) (hnamed p.segments)
      (fun s hs => hotherTellable s (List.mem_filter.1 hs).1) (hnamed q.segments)
      (chars_of_ofSegments (hnamed p.segments) (hnamed q.segments) h)
  · intro h
    rw [h]

/-- Positions in different places, and a filter whose value looks like more steps. -/
theorem ofPath_eq_iff_with_steps_in_value :
    let text := "Order.0.Line[ @k = '/ns:x[1]/@y' ].@_id"
    let other := "Order.Line[ @k = '/ns:x[1]/@y' ].7.@_id"
    let order : Segment := .element "Order" none
    let line : Segment := .element "Line" (some " @k = '/ns:x[1]/@y' ")
    let p : FieldPath := ⟨[order, .index 0, line, .attribute "id"], by simp⟩
    let q : FieldPath := ⟨[order, line, .index 7, .attribute "id"], by simp⟩
    Markup.IsPlainName "ns".toList ∧ (FieldPath.read text = .ok p ∧ FieldPath.read other = .ok q) ∧
      ((∀ s ∈ p.segments, IsTellable s) ∧ ∀ s ∈ q.segments, IsTellable s) ∧
      p.segments ≠ q.segments ∧ ofPath "ns" text = ofPath "ns" other := by
  intro text other order line p q
  have hqualifier : Markup.IsPlainName "ns".toList := by decide
  have hp : FieldPath.read text = .ok p :=
    FieldPath.read_eq_ok_iff.2 ⟨by decide +kernel, by decide +kernel, by decide +kernel⟩
  have hq : FieldPath.read other = .ok q :=
    FieldPath.read_eq_ok_iff.2 ⟨by decide +kernel, by decide +kernel, by decide +kernel⟩
  have hindex : ∀ n, IsTellable (.index n) := fun n => ⟨nofun, nofun⟩
  have horder : IsTellable order := ⟨by rintro _ ⟨⟩; decide, nofun⟩
  have hid : IsTellable (.attribute "id") := ⟨by rintro _ ⟨⟩; decide, nofun⟩
  have hfilter : Filter.read " @k = '/ns:x[1]/@y' " = .ok ⟨"k", "/ns:x[1]/@y"⟩ := by
    decide +kernel
  have hline : IsTellable line := ⟨by rintro _ ⟨⟩; decide, by rintro _ ⟨⟩; exact ⟨_, hfilter⟩⟩
  have hpTellable : ∀ s ∈ p.segments, IsTellable s := by
    simp [p, horder, hindex, hline, hid]
  have hqTellable : ∀ s ∈ q.segments, IsTellable s := by
    simp [q, horder, hindex, hline, hid]
  exact ⟨hqualifier, ⟨hp, hq⟩, ⟨hpTellable, hqTellable⟩, by decide,
    (ofPath_eq_iff hqualifier hp hq hpTellable hqTellable).2 (by decide)⟩

end XPath

end Crosswalk
