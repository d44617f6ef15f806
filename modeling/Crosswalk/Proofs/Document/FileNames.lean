import Crosswalk.Document.FileName
import Mathlib.Data.List.Basic

/-!
# Extensions of file names

A name that has an extension keeps it.  A path whose last step names a file without an extension
gets one: the step is followed by a dot and the extension, and the steps above it stay.

* `properParts_dropIdle` : what goes nowhere at the end of a path can be left out.
* `isExtended_withExtension` : the steps of a path with an extension added.
-/

namespace Crosswalk.FileName

/-! ### Parts and steps -/

theorem parts_ne_nil (cs : List Char) : parts cs ≠ [] := by
  cases cs with
  | nil => simp [parts]
  | cons c cs =>
    rw [parts]
    split
    · simp
    · split <;> simp

theorem parts_append_slash (cs ds : List Char) :
    parts (cs ++ '/' :: ds) = parts cs ++ parts ds := by
  induction cs with
  | nil => simp [parts]
  | cons c cs ih =>
    by_cases hc : c = '/'
    · simp [parts, hc, ih]
    · obtain ⟨part, more, hparts⟩ := List.exists_cons_of_ne_nil (parts_ne_nil cs)
      simp [parts, hc, ih, hparts]

theorem parts_of_no_slash {cs : List Char} (h : '/' ∉ cs) : parts cs = [cs] := by
  induction cs with
  | nil => rfl
  | cons c cs ih =>
    have hc : c ≠ '/' := fun heq => h (heq ▸ List.mem_cons_self)
    have hcs : '/' ∉ cs := fun hmem => h (List.mem_cons_of_mem _ hmem)
    rw [parts, if_neg hc, ih hcs]

/-- What follows the last slash of a text. -/
theorem exists_last (cs : List Char) :
    ∃ last, '/' ∉ last ∧ (cs = last ∨ ∃ above, cs = above ++ '/' :: last) := by
  by_cases hslash : '/' ∈ cs.reverse
  · obtain ⟨behind, before, hcs, hlast⟩ := List.eq_append_cons_of_mem hslash
    have hreverse : cs = before.reverse ++ '/' :: behind.reverse := by
      rw [← cs.reverse_reverse, hcs]
      simp
    exact ⟨behind.reverse, by simpa using hlast, .inr ⟨_, hreverse⟩⟩
  · exact ⟨cs, by simpa using hslash, .inl rfl⟩

/-- Whether a part of a path leads anywhere. -/
def IsStep (part : List Char) : Prop :=
  part ≠ [] ∧ part ≠ ['.']

instance (part : List Char) : Decidable (IsStep part) := inferInstanceAs (Decidable (_ ∧ _))

/-- The parts of a path that lead anywhere. -/
def properParts (cs : List Char) : List (List Char) :=
  (parts cs).filter fun part => IsStep part

theorem steps_eq (path : String) : steps path = (properParts path.toList).map String.ofList := rfl

theorem properParts_append_slash (cs ds : List Char) :
    properParts (cs ++ '/' :: ds) = properParts cs ++ properParts ds := by
  rw [properParts, parts_append_slash, List.filter_append, properParts, properParts]

theorem properParts_of_isStep {cs : List Char} (hslash : '/' ∉ cs) (hstep : IsStep cs) :
    properParts cs = [cs] := by
  simp [properParts, parts_of_no_slash hslash, hstep]

/-! ### The end of a path -/

open withExtension (dropIdle)

/-- What goes nowhere at the end of a path can be left out. -/
theorem properParts_dropIdle (backward : List Char) :
    properParts (dropIdle backward).reverse = properParts backward.reverse := by
  have hnothing : properParts [] = [] := rfl
  have hdot : properParts ['.'] = [] := rfl
  fun_induction dropIdle backward with
  | case1 rest ih => rw [ih, List.reverse_cons, properParts_append_slash, hnothing, List.append_nil]
  | case2 rest ih =>
    have hreverse : ('.' :: '/' :: rest).reverse = rest.reverse ++ '/' :: ['.'] := by simp
    rw [ih, List.reverse_cons, hreverse, properParts_append_slash, properParts_append_slash,
      hnothing, hdot]
  | case3 => rfl

/-- What is left of a path does not end in a slash, nor in a dot after a slash. -/
theorem dropIdle_ne (backward rest : List Char) :
    dropIdle backward ≠ '/' :: rest ∧ dropIdle backward ≠ '.' :: '/' :: rest := by
  fun_induction dropIdle backward with
  | case1 _ ih => exact ih
  | case2 _ ih => exact ih
  | case3 cs hslash hdot => exact ⟨hslash rest, hdot rest⟩

/-- A path that leads anywhere is left with its last step at the end. -/
theorem exists_step {cs : List Char} (hsteps : properParts cs ≠ []) :
    ∃ above step, '/' ∉ step ∧ IsStep step ∧
      ∀ more, properParts ((dropIdle cs.reverse).reverse ++ more)
        = above ++ properParts (step ++ more) := by
  have hsame : properParts (dropIdle cs.reverse).reverse = properParts cs := by
    rw [properParts_dropIdle, List.reverse_reverse]
  obtain ⟨step, hslash, hkept | ⟨above, hkept⟩⟩ := exists_last (dropIdle cs.reverse).reverse
  · refine ⟨[], step, hslash, ?_, fun more => by rw [hkept, List.nil_append]⟩
    by_contra hidle
    refine hsteps ?_
    rw [← hsame, hkept, properParts, parts_of_no_slash hslash]
    simp [hidle]
  -- After a slash, an idle last part would have been dropped.
  · have hbackward : dropIdle cs.reverse = step.reverse ++ '/' :: above.reverse := by
      rw [← (dropIdle cs.reverse).reverse_reverse, hkept]
      simp
    obtain ⟨hnoslash, hnodot⟩ := dropIdle_ne cs.reverse above.reverse
    refine ⟨properParts above, step, hslash, ⟨?_, ?_⟩, ?_⟩
    · rintro rfl
      exact hnoslash hbackward
    · rintro rfl
      exact hnodot hbackward
    · intro more
      rw [hkept, List.append_assoc, List.cons_append, properParts_append_slash]

theorem steps_of_last? {path name : String} (h : last? path = some name) :
    (steps path).getLast? = some name := by
  rw [last?] at h
  split at h
  · cases h
  · exact h

/-- Whether a path is another one with an extension added, if that leads to a file without one. -/
def IsExtended (extension path written : String) : Prop :=
  match last? path, extension? path with
  | some name, none => steps written = (steps path).dropLast ++ [name ++ "." ++ extension]
  | _, _ => written = path

/-- **Extensions.**  A path gets an extension exactly if it leads to a file without one; the steps
above the file stay. -/
theorem isExtended_withExtension {extension : String} (h : '/' ∉ extension.toList) (path : String) :
    IsExtended extension path (withExtension extension path) := by
  rw [IsExtended, withExtension]
  cases hname : last? path with
  | none => rfl
  | some name =>
    cases extension? path with
    | some given => rfl
    | none =>
      have hlast := steps_of_last? hname
      have hsteps : properParts path.toList ≠ [] := by
        intro hnil
        simp [steps_eq, hnil] at hlast
      obtain ⟨above, step, hslash, hstep, happend⟩ := exists_step hsteps
      have hpath : properParts path.toList = above ++ [step] := by
        rw [← properParts_of_isStep hslash hstep, ← step.append_nil, ← happend, List.append_nil,
          properParts_dropIdle, List.reverse_reverse]
      have hwritten : properParts (step ++ '.' :: extension.toList)
          = [step ++ '.' :: extension.toList] := by
        refine properParts_of_isStep ?_ ⟨by simp, ?_⟩
        · simp [hslash, h]
        · intro hdot
          have hlength := congrArg List.length hdot
          exact hstep.1 (List.eq_nil_of_length_eq_zero (by simp at hlength; omega))
      have hstepname : String.ofList step = name := by
        simpa [steps_eq, hpath] using hlast
      have hjoined :
          String.ofList (step ++ '.' :: extension.toList) = name ++ "." ++ extension := by
        rw [← String.toList_inj, ← hstepname]
        simp
      simp only [steps_eq, String.toList_ofList, happend, hwritten, hpath, List.map_append,
        List.map_cons, List.map_nil, List.dropLast_concat, hjoined]

example : withExtension "xsl" "a.b/report/./" = "a.b/report.xsl" := by decide +kernel

end Crosswalk.FileName
