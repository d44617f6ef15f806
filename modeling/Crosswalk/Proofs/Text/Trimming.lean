import Crosswalk.Text.Blank

/-!
# Runs and trimmed texts

A run of accepted characters ends where the text ends or a character is refused, so a text is divided
into such a run and what follows it in one way only.  The same holds of the blanks at both ends of a
text: what is left when they are trimmed neither begins nor ends with a blank.

* `takeWhile_run`, `dropWhile_run` and `run_unique` : a run and what follows it.
* `trimChars_eq_iff` : what is left of a text when it is trimmed.
-/

namespace Crosswalk.Text

/-! ### Runs -/

section Run

variable {accepts : Char → Bool} {run rest : List Char}

/-- Whether a text goes on with no accepted character. -/
def Stops (accepts : Char → Bool) (rest : List Char) : Prop :=
  ∀ c ∈ rest.head?, accepts c = false

theorem stops_cons {c : Char} (hc : accepts c = false) (rest : List Char) :
    Stops accepts (c :: rest) := by
  intro d hd
  obtain rfl : c = d := by simpa using hd
  exact hc

theorem stops_dropWhile (accepts : Char → Bool) (cs : List Char) :
    Stops accepts (cs.dropWhile accepts) := by
  intro c hc
  have hfirst := List.head?_dropWhile_not accepts cs
  rw [Option.mem_def.1 hc] at hfirst
  exact hfirst

theorem dropWhile_of_stops (h : Stops accepts rest) : rest.dropWhile accepts = rest := by
  cases rest with
  | nil => rfl
  | cons c rest =>
    have hc : accepts c = false := h c rfl
    rw [List.dropWhile_cons_of_neg (by simp [hc])]

/-- **A run** is dropped whole, and nothing of what follows it. -/
theorem dropWhile_run (hrun : ∀ c ∈ run, accepts c = true) (hrest : Stops accepts rest) :
    (run ++ rest).dropWhile accepts = rest := by
  rw [List.dropWhile_append_of_pos hrun, dropWhile_of_stops hrest]

/-- **A run** is taken whole, and nothing of what follows it. -/
theorem takeWhile_run (hrun : ∀ c ∈ run, accepts c = true) (hrest : Stops accepts rest) :
    (run ++ rest).takeWhile accepts = run := by
  have hwhole : (run ++ rest).takeWhile accepts ++ (run ++ rest).dropWhile accepts = run ++ rest :=
    List.takeWhile_append_dropWhile
  rw [dropWhile_run hrun hrest] at hwhole
  exact List.append_cancel_right hwhole

/-- A text is divided into a run and what follows it in one way only. -/
theorem run_unique {other more : List Char} (hrun : ∀ c ∈ run, accepts c = true)
    (hrest : Stops accepts rest) (hother : ∀ c ∈ other, accepts c = true)
    (hmore : Stops accepts more) (h : run ++ rest = other ++ more) : run = other ∧ rest = more := by
  have hruns : run = other := by
    rw [← takeWhile_run hrun hrest, h, takeWhile_run hother hmore]
  have hrests : rest = more := by
    rw [← dropWhile_run hrun hrest, h, dropWhile_run hother hmore]
  exact ⟨hruns, hrests⟩

end Run

/-! ### Trimmed texts -/

/-- Whether `core` is left of a text when the blanks at both ends are dropped. -/
structure IsTrimmed (cs core : List Char) : Prop where
  around : ∃ before after, cs = before ++ (core ++ after) ∧
    (∀ c ∈ before, isBlank c = true) ∧ ∀ c ∈ after, isBlank c = true
  first : ∀ c ∈ core.head?, isBlank c = false
  last : ∀ c ∈ core.getLast?, isBlank c = false

theorem isTrimmed_trimChars (cs : List Char) : IsTrimmed cs (trimChars cs) := by
  obtain ⟨middle, hmiddle⟩ : ∃ middle, cs.dropWhile isBlank = middle := ⟨_, rfl⟩
  have hcore : trimChars cs = (middle.reverse.dropWhile isBlank).reverse := by
    rw [trimChars, hmiddle]
  have hfront : cs = cs.takeWhile isBlank ++ middle := by
    rw [← hmiddle, List.takeWhile_append_dropWhile]
  have hback : middle = trimChars cs ++ (middle.reverse.takeWhile isBlank).reverse := by
    rw [hcore, ← List.reverse_append, List.takeWhile_append_dropWhile, List.reverse_reverse]
  have hmiddleFirst : Stops isBlank middle := hmiddle ▸ stops_dropWhile isBlank cs
  refine ⟨⟨cs.takeWhile isBlank, (middle.reverse.takeWhile isBlank).reverse, ?_, ?_, ?_⟩, ?_, ?_⟩
  · rw [← hback]
    exact hfront
  · exact List.all_eq_true.1 List.all_takeWhile
  · intro c hc
    exact List.all_eq_true.1 List.all_takeWhile c (List.mem_reverse.1 hc)
  · intro c hc
    -- The first character that is left is also the first one after the blanks in front.
    have hhead : middle.head? = some c := by
      rw [hback, List.head?_append, Option.mem_def.1 hc, Option.some_or]
    exact hmiddleFirst c hhead
  · intro c hc
    rw [hcore, List.getLast?_reverse] at hc
    exact stops_dropWhile isBlank middle.reverse c hc

/-- **What is left of a text** when it is trimmed. -/
theorem trimChars_eq_iff {cs core : List Char} : trimChars cs = core ↔ IsTrimmed cs core := by
  constructor
  · rintro rfl
    exact isTrimmed_trimChars cs
  · rintro ⟨⟨before, after, rfl, hbefore, hafter⟩, hfirst, hlast⟩
    by_cases hcore : core = []
    · subst hcore
      rw [trimChars_eq_nil_iff, List.all_eq_true]
      intro c hc
      rcases List.mem_append.1 hc with hfront | hback
      · exact hbefore c hfront
      · exact hafter c hback
    · have hfront : (before ++ (core ++ after)).dropWhile isBlank = core ++ after := by
        refine dropWhile_run hbefore ?_
        intro c hc
        obtain ⟨d, more, rfl⟩ := List.exists_cons_of_ne_nil hcore
        exact hfirst c hc
      have hreversed : ∀ c ∈ after.reverse, isBlank c = true :=
        fun c hc => hafter c (List.mem_reverse.1 hc)
      have hstops : Stops isBlank core.reverse := by
        intro c hc
        rw [List.head?_reverse] at hc
        exact hlast c hc
      rw [trimChars, hfront, List.reverse_append, dropWhile_run hreversed hstops,
        List.reverse_reverse]

end Crosswalk.Text
