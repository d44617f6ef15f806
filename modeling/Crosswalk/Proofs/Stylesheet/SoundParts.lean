import Crosswalk.Proofs.Stylesheet.Legal

/-!
# The parts of a stylesheet are sound

Each way to put parts together gives parts that may be written, if the names and the characters that
go into it may.

* `sound_value`, `sound_attributeInstruction` : what both sorts of stylesheets share.
* `sound_notes` : the comment with the notes.
-/

namespace Crosswalk.Stylesheet

open Markup

/-- Whether all of some parts may be written. -/
def AllSound (parts : List Part) : Prop := ∀ p ∈ parts, p.Sound

theorem allSound_nil : AllSound [] := fun _ hp => nomatch hp

theorem allSound_cons {p : Part} {parts : List Part} (hp : p.Sound) (hparts : AllSound parts) :
    AllSound (p :: parts) :=
  List.forall_mem_cons.2 ⟨hp, hparts⟩

theorem allSound_singleton {p : Part} (hp : p.Sound) : AllSound [p] :=
  allSound_cons hp allSound_nil

theorem AllSound.append {parts others : List Part} (h : AllSound parts)
    (hothers : AllSound others) : AllSound (parts ++ others) := by
  intro p hp
  rcases List.mem_append.1 hp with hp | hp
  · exact h p hp
  · exact hothers p hp

theorem allSound_flatMap {α : Type} {xs : List α} {f : α → List Part}
    (h : ∀ x ∈ xs, AllSound (f x)) : AllSound (xs.flatMap f) := by
  intro p hp
  obtain ⟨x, hx, hmem⟩ := List.mem_flatMap.1 hp
  exact h x hx p hmem

/-- Parts between two texts. -/
theorem AllSound.framed {parts : List Part} (h : AllSound parts) {opening closing : String}
    (hopening : IsLegal opening.toList) (hclosing : IsLegal closing.toList) :
    AllSound (.text opening :: (parts ++ [.text closing])) :=
  allSound_cons (.text hopening) (h.append (allSound_singleton (.text hclosing)))

theorem isLegal_break : IsLegal "\n".toList := by decide

/-- One level of indentation more. -/
theorem isLegal_deeper {pad : String} (hpad : IsLegal pad.toList) :
    IsLegal (pad ++ "  ").toList := by
  have htwo : IsLegal "  ".toList := by decide
  rw [String.toList_append]
  exact hpad.append htwo

/-- A part on a line of its own. -/
theorem allSound_line {pad : String} (hpad : IsLegal pad.toList) {p : Part} (hp : p.Sound) :
    AllSound (line pad p) :=
  (allSound_singleton hp).framed hpad isLegal_break

/-! ### Attributes -/

theorem sound_quoted {name value : String} (hname : IsName name.toList)
    (hvalue : IsLegal value.toList) : (quoted name value).Sound where
  gap_ne := by simp [quoted]
  gap_blank := by simp [quoted]
  name := hname
  legal := hvalue
  plain := fun h => nomatch h

theorem sound_plain {name value : String} (hname : IsName name.toList)
    (hvalue : IsPlainValue value.toList) : (plain name value).Sound where
  gap_ne := by simp [plain]
  gap_blank := by simp [plain]
  name := hname
  legal := hvalue.isLegal
  plain := fun _ => hvalue

/-- An attribute of the form `name="…"` whose value is a name. -/
theorem sound_plain_name {name : String} (h : IsName name.toList) : (plain "name" name).Sound :=
  sound_plain (by decide) h.isPlainValue

/-- An element with one attribute. -/
theorem sound_element_one {name : String} (hname : IsName name.toList) {a : Given} (ha : a.Sound)
    {content : List Part} (hcontent : AllSound content) : (Part.element name [a] content).Sound :=
  .element hname (List.forall_mem_singleton.2 ha) (by simp) hcontent

/-! ### Instructions -/

theorem sound_value {qualifier : String} (hqualifier : IsLegal qualifier.toList)
    {source : Source} (h : source.IsLegal) : (value qualifier source).Sound := by
  cases source with
  | constant constant => exact .text h
  | direct path =>
    refine .single (by decide) (List.forall_mem_singleton.2 ?_) (by simp)
    exact sound_quoted (by decide) (XPath.isLegal_ofPath hqualifier h)

theorem sound_attributeInstruction {name : String} (hname : IsName name.toList) {content : Part}
    (hcontent : content.Sound) : (attributeInstruction name content).Sound :=
  sound_element_one (by decide) (sound_plain_name hname) (allSound_singleton hcontent)

/-! ### The notes -/

namespace Hyphens

/-- Two hyphens beside each other are a pair. -/
theorem pairs_ne_zero_of_infix {cs : List Char} (h : ['-', '-'] <:+: cs) : pairs cs ≠ 0 := by
  obtain ⟨before, after, rfl⟩ := h
  induction before with
  | nil => simp [pairs]
  | cons c before ih =>
    rw [List.cons_append, List.cons_append, pairs_cons]
    omega

/-- Where something other than a hyphen stands between two texts, no pair spans them. -/
theorem pairs_append_cons {c : Char} (hc : c ≠ '-') (cs ds : List Char) :
    pairs (cs ++ c :: ds) = pairs cs + pairs ds := by
  induction cs with
  | nil => simp [pairs_cons, hc, pairs]
  | cons d cs ih =>
    rw [List.cons_append, pairs_cons, pairs_cons d, ih]
    cases cs with
    | nil => simp [hc]
    | cons e cs => simp [Nat.add_assoc]

/-- Parting pairs brings in nothing but spaces. -/
theorem mem_partOnce {cs : List Char} {c : Char} (h : c ∈ partOnce cs) : c ∈ cs ∨ c = ' ' := by
  fun_induction partOnce cs with
  | case1 => exact Or.inl h
  | case2 d => exact Or.inl h
  | case3 d e rest hpair ih =>
    simp only [List.mem_cons] at h
    rcases h with h | h | h | h
    · exact Or.inl (by simp [h, hpair.1])
    · exact Or.inr h
    · exact Or.inl (by simp [h, hpair.2])
    · rcases ih h with h | h
      · exact Or.inl (by simp [h])
      · exact Or.inr h
  | case4 d e rest hpair ih =>
    rcases List.mem_cons.1 h with h | h
    · exact Or.inl (by simp [h])
    · rcases ih h with h | h
      · exact Or.inl (List.mem_cons_of_mem _ h)
      · exact Or.inr h

theorem mem_part {cs : List Char} {c : Char} (h : c ∈ part cs) : c ∈ cs ∨ c = ' ' := by
  fun_induction part cs with
  | case1 cs _ => exact Or.inl h
  | case2 cs _ ih =>
    rcases ih h with h | h
    · exact mem_partOnce h
    · exact Or.inr h

end Hyphens

theorem sound_comment {content : String} (h : IsLegal content.toList)
    (hpairs : Hyphens.pairs content.toList = 0) (hlast : content.toList.getLast? ≠ some '-') :
    (Part.comment content).Sound :=
  .comment h (fun hinfix => Hyphens.pairs_ne_zero_of_infix hinfix hpairs) hlast

/-- The text of the comment with the notes, by its lines. -/
theorem toList_notes (notes : String) :
    (" Mapping Notes:\n" ++ String.ofList (Hyphens.part notes.toList) ++ "\n").toList
      = " Mapping Notes:".toList ++ '\n' :: (Hyphens.part notes.toList ++ '\n' :: []) := by
  simp [String.toList_append]

/-- There is no pair of hyphens in the comment with the notes. -/
theorem pairs_notes (notes : String) :
    Hyphens.pairs
      (" Mapping Notes:\n" ++ String.ofList (Hyphens.part notes.toList) ++ "\n").toList = 0 := by
  rw [toList_notes, Hyphens.pairs_append_cons (by decide), Hyphens.pairs_append_cons (by decide),
    Hyphens.pairs_part]
  decide

/-- The comment with the notes is sound: its text is framed by line ends and has no pair of hyphens. -/
theorem sound_notes {notes : String} (h : IsLegal notes.toList) :
    (Part.comment (" Mapping Notes:\n" ++ String.ofList (Hyphens.part notes.toList)
      ++ "\n")).Sound := by
  have hpart : IsLegal (Hyphens.part notes.toList) := by
    intro c hc
    rcases Hyphens.mem_part hc with hc | rfl
    · exact h c hc
    · decide
  refine sound_comment ?_ (pairs_notes notes) ?_
  · rw [toList_notes]
    have hend : IsLegal ['\n'] := by decide
    have hlead : IsLegal (" Mapping Notes:".toList ++ ['\n']) := by decide
    simpa using hlead.append (hpart.append hend)
  · rw [toList_notes, ← List.cons_append, ← List.append_assoc, List.getLast?_concat]
    decide

end Crosswalk.Stylesheet
