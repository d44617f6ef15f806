import Crosswalk.Proofs.Path.Readable
import Crosswalk.Proofs.Path.Spelling

/-!
# Written forms of field paths

A path is written as its steps with dots between them.  Every step is written as the piece it was
read from, but for the zeros in front of a position, and every piece stays one that can stand where
it stood.  So the written form has the same steps again, and it is read as the path, unless nothing
but blanks is left of it.

* `balancedFrom_iff` : the depth counts the brackets that are still open.
* `text_ofText_eq_canonical` : how a step is written.
* `segments_written` : the written form has the steps that the path has.
* `read_and_text` : which texts are read, how they are written, and what that is read as.
-/

namespace Crosswalk

namespace Path

/-! ### Which texts are read -/

/-- Whether the brackets of a text match: from the start on, never more are closed than opened, and
in the end as many. -/
structure AreMatched (cs : List Char) : Prop where
  never_past : ∀ front, front <+: cs → front.count ']' ≤ front.count '['
  settled : cs.count ']' = cs.count '['

/-- **The depth counts** the brackets that are still open. -/
theorem balancedFrom_iff (depth : Nat) (cs : List Char) :
    balancedFrom depth cs = true ↔
      (∀ front, front <+: cs → front.count ']' ≤ depth + front.count '[') ∧
        cs.count ']' = depth + cs.count '[' := by
  induction cs generalizing depth with
  | nil =>
    constructor
    · intro h
      have hzero : depth = 0 := by simpa [balancedFrom] using h
      subst hzero
      refine ⟨fun front hfront => ?_, rfl⟩
      rw [List.prefix_nil.1 hfront]
      exact Nat.zero_le _
    · rintro ⟨-, hzero⟩
      have hzero : depth = 0 := hzero.symm
      simp [balancedFrom, hzero]
  | cons c cs ih =>
    have hfronts : (∀ front, front <+: c :: cs → front.count ']' ≤ depth + front.count '[') ↔
        ∀ front, front <+: cs → (c :: front).count ']' ≤ depth + (c :: front).count '[' := by
      constructor
      · intro h front hfront
        exact h _ ((List.prefix_cons_inj c).2 hfront)
      · intro h front hfront
        rcases List.prefix_cons_iff.1 hfront with rfl | ⟨later, rfl, hlater⟩
        · exact Nat.zero_le _
        · exact h later hlater
    rw [balancedFrom_cons, ih, hfronts]
    by_cases hopen : c = '['
    · subst hopen
      have hdepth : depthAfter depth '[' = depth + 1 := rfl
      have hone : ∀ front : List Char,
          depth + (front.count '[' + 1) = depth + 1 + front.count '[' := by omega
      simp [hdepth, hone]
    · by_cases hclose : c = ']'
      · subst hclose
        have hdepth : depthAfter depth ']' = depth - 1 := rfl
        rcases Nat.eq_zero_or_pos depth with rfl | hpos
        · refine iff_of_false (fun h => h.1 ⟨rfl, rfl⟩) fun h => ?_
          have hfirst := h.1 [] List.nil_prefix
          simp at hfirst
        · have hle : ∀ closed opened,
              closed + 1 ≤ depth + opened ↔ closed ≤ depth - 1 + opened := by omega
          have heq : ∀ closed opened,
              closed + 1 = depth + opened ↔ closed = depth - 1 + opened := by omega
          simp [hdepth, hle, heq, Nat.ne_of_gt hpos]
      · simp [hopen, hclose, depthAfter]

theorem isBalanced_iff {path : String} : isBalanced path = true ↔ AreMatched path.toList := by
  rw [isBalanced, balancedFrom_iff]
  simp only [Nat.zero_add]
  exact ⟨fun h => ⟨h.1, h.2⟩, fun h => ⟨h.never_past, h.settled⟩⟩

/-! ### Pieces as they are written -/

/-- A piece of a path as it is written: a position has no zeros in front, and everything else is as
it was. -/
def canonical (piece : String) : String :=
  if (Segment.ofText piece).isIndex then String.ofList (Segment.withoutZeros piece.toList)
  else piece

/-- **A step is written** as the piece it was read from, but for the zeros in front of a
position. -/
theorem text_ofText_eq_canonical (piece : String) :
    (Segment.ofText piece).text = canonical piece := by
  rw [canonical]
  split
  · rename_i hindex
    obtain ⟨n, hn, hstep⟩ := Segment.exists_position_of_isIndex hindex
    obtain ⟨hdigits, rfl, -⟩ := Segment.indexOf?_eq_some_iff.1 hn
    rw [hstep, Segment.text, ← Segment.toString_ofDigitChars (Segment.isDigit_of_isDigits hdigits),
      String.ofList_toList]
  · rename_i hname
    exact Segment.text_ofText (by simpa using hname)

/-- What is written for a piece is the piece, or a number. -/
theorem canonical_eq_or (piece : String) :
    canonical piece = piece ∨ ∃ n : Nat, canonical piece = toString n := by
  rw [← text_ofText_eq_canonical]
  by_cases hindex : (Segment.ofText piece).isIndex = true
  · obtain ⟨n, -, hstep⟩ := Segment.exists_position_of_isIndex hindex
    exact Or.inr ⟨n, by rw [hstep, Segment.text]⟩
  · exact Or.inl (Segment.text_ofText (by simpa using hindex))

theorem ofText_canonical (piece : String) :
    Segment.ofText (canonical piece) = Segment.ofText piece := by
  rw [← text_ofText_eq_canonical]
  exact Segment.isSpelled_ofText piece

theorem canonical_ne_empty {piece : String} (h : piece.toList ≠ []) :
    (canonical piece).toList ≠ [] := by
  rcases canonical_eq_or piece with hsame | ⟨n, hn⟩
  · rwa [hsame]
  · rw [hn]
    simp

/-- The brackets of a piece match in what is written for it. -/
theorem isBalanced_canonical {piece : String} (h : isBalanced piece = true) :
    isBalanced (canonical piece) = true := by
  rcases canonical_eq_or piece with hsame | ⟨n, hn⟩
  · rwa [hsame]
  · have hnone : ∀ c ∈ (toString n).toList, c ≠ '[' ∧ c ≠ ']' :=
      fun c hc => (ne_mark_of_mem_toString hc).2
    rw [hn, isBalanced, ← List.append_nil (toString n).toList]
    exact balancedFrom_leave_out hnone 0 [] []

/-- Numbers can stand in a path where other pieces stood. -/
theorem divided_canonical {ps : List String} (h : Divided (ps.map String.toList)) :
    Divided ((ps.map canonical).map String.toList) := by
  induction ps with
  | nil => exact trivial
  | cons piece ps ih =>
    obtain ⟨hwhole, hclosed, hrest⟩ := h
    rcases canonical_eq_or piece with hsame | ⟨n, hn⟩
    · refine ⟨?_, ?_, ih hrest⟩
      · rwa [hsame]
      · intro hne
        rw [hsame]
        exact hclosed (by simpa using hne)
    · obtain ⟨-, hdot, hopen⟩ := isPlainPiece_toString n
      refine ⟨?_, fun _ => ?_, ih hrest⟩
      · rw [hn]
        exact isWhole_of_no_dot hdot 0
      · rw [hn]
        exact isClosed_of_no_opening hopen

/-- A path as it is written: its pieces, with dots between them. -/
def written (path : String) : String :=
  join ((split path).map canonical)

/-- **The written form has the same steps.** -/
theorem segments_written (path : String) : segments (written path) = segments path := by
  have hsplit : split (written path) = (split path).map canonical := by
    refine split_join (divided_canonical (divided_split path)) ?_
    intro piece hpiece
    obtain ⟨old, hold, rfl⟩ := List.mem_map.1 hpiece
    exact canonical_ne_empty (ne_empty_of_mem_split hold)
  rw [segments_eq_map, segments_eq_map, hsplit, List.map_map]
  exact List.map_congr_left fun piece _ => ofText_canonical piece

/-- The brackets of a path match in its written form. -/
theorem isBalanced_written {path : String} (h : isBalanced path = true) :
    isBalanced (written path) = true := by
  have hall : ∀ piece ∈ ((split path).map canonical).map String.toList,
      balancedFrom 0 piece = true := by
    intro chars hchars
    obtain ⟨written, hwritten, rfl⟩ := List.mem_map.1 hchars
    obtain ⟨piece, hpiece, rfl⟩ := List.mem_map.1 hwritten
    exact isBalanced_canonical (balanced_of_mem_split h hpiece)
  rw [isBalanced, written, join, String.toList_intercalate]
  generalize ((split path).map canonical).map String.toList = ps at hall
  cases ps with
  | nil => rfl
  | cons piece ps =>
    obtain ⟨hpiece, hps⟩ := List.forall_mem_cons.1 hall
    have hwhole : balancedFrom 0 (['.'].intercalate ([] ++ piece :: ps)) = balancedFrom 0 piece :=
      balancedFrom_intercalate piece (by simp) hps
    exact hwhole.trans hpiece

end Path

namespace FieldPath

/-- **What a text is read as** are its steps. -/
theorem read_eq_ok_iff {text : String} {p : FieldPath} :
    read text = .ok p ↔
      Text.isBlankText text = false ∧ Path.isBalanced text = true ∧
        Path.segments text = p.segments := by
  obtain ⟨steps, hsteps⟩ := p
  unfold read
  split
  · simp_all
  · split
    · simp_all
    · split
      · rename_i hnone
        simp [hnone, hsteps.symm]
      · rename_i hsome
        simp_all

/-- Whether a path is a single step that is written with blanks alone. -/
def IsBlankStep (p : FieldPath) : Prop :=
  ∃ step, p.segments = [step] ∧ Text.isBlankText step.text = true

/-- The written form of a path is blank only if it is that of a single blank step. -/
theorem isBlankText_text_iff (p : FieldPath) :
    Text.isBlankText p.text = true ↔ p.IsBlankStep := by
  constructor
  · intro hblank
    obtain ⟨step, rest, hsteps⟩ := List.exists_cons_of_ne_nil p.segments_ne_nil
    cases rest with
    | nil =>
      refine ⟨step, hsteps, ?_⟩
      rwa [FieldPath.text, hsteps, List.map_singleton, Path.join_singleton] at hblank
    | cons next rest =>
      rw [FieldPath.text, hsteps, List.map_cons, List.map_cons, Path.join_cons_cons] at hblank
      have hdot : Text.isBlank '.' = true := List.all_eq_true.1 hblank '.' (by simp)
      exact absurd hdot (by decide)
  · rintro ⟨step, hsteps, hblank⟩
    rwa [FieldPath.text, hsteps, List.map_singleton, Path.join_singleton]

theorem text_of_read {text : String} {p : FieldPath} (h : read text = .ok p) :
    p.text = Path.written text := by
  have hsteps := (read_eq_ok_iff.1 h).2.2
  rw [FieldPath.text, ← hsteps, Path.segments_eq_map, List.map_map, Path.written]
  exact congrArg Path.join (List.map_congr_left fun piece _ => Path.text_ofText_eq_canonical piece)

/-- **Reading and writing a path.**  A text is read as a path exactly if it is not blank, its
brackets match and it does not consist of dots.  The path is written as the pieces of the text with
dots between them, positions without zeros in front.  This is read as the same path again, unless
the path is a single step of blanks, and then nothing is in it. -/
theorem read_and_text (text : String) :
    ((∃ p, read text = .ok p) ↔
      Text.isBlankText text = false ∧ Path.AreMatched text.toList ∧ ∃ c ∈ text.toList, c ≠ '.') ∧
    ∀ p, read text = .ok p →
      p.text = Path.join ((Path.split text).map Path.canonical) ∧
      (p.IsBlankStep → read p.text = .error .empty) ∧
      (¬ p.IsBlankStep → read p.text = .ok p) := by
  refine ⟨?_, fun p hp => ⟨text_of_read hp, fun hblank => ?_, fun hblank => ?_⟩⟩
  · rw [read_isOk_iff, Path.isBalanced_iff, Path.segments_ne_nil_iff]
  · rw [read, if_pos ((isBlankText_text_iff p).2 hblank)]
  · obtain ⟨-, hbalanced, hsteps⟩ := read_eq_ok_iff.1 hp
    have hkept : Text.isBlankText p.text = false := by
      rw [← Bool.not_eq_true, isBlankText_text_iff]
      exact hblank
    refine read_eq_ok_iff.2 ⟨hkept, ?_, ?_⟩
    · rw [text_of_read hp]
      exact Path.isBalanced_written hbalanced
    · rw [text_of_read hp, Path.segments_written, hsteps]

/-- Zeros in front of a position, doubled dots, a number of more than 64 bits and a filter; and a
single step of blanks. -/
theorem read_and_text_of_zeros :
    let text := "..a[@b='c.d'].007..18446744073709551616"
    (∃ p, read text = .ok p ∧ p.text = "a[@b='c.d'].7.18446744073709551616" ∧ read p.text = .ok p) ∧
      ∃ p, read ".  ." = .ok p ∧ read p.text = .error .empty := by
  intro text
  have hmatched : Path.AreMatched text.toList := Path.isBalanced_iff.1 (by decide +kernel)
  have hblankMatched : Path.AreMatched ".  .".toList := Path.isBalanced_iff.1 (by decide)
  constructor
  · obtain ⟨p, hp⟩ :=
      (read_and_text text).1.2 ⟨by decide +kernel, hmatched, 'a', by decide +kernel, by decide⟩
    obtain ⟨hwritten, -, hagain⟩ := (read_and_text text).2 p hp
    have htext : p.text = "a[@b='c.d'].7.18446744073709551616" := by
      rw [hwritten]
      decide +kernel
    refine ⟨p, hp, htext, hagain ?_⟩
    rw [← isBlankText_text_iff, htext]
    decide +kernel
  · obtain ⟨p, hp⟩ :=
      (read_and_text ".  .").1.2 ⟨by decide, hblankMatched, ' ', by decide, by decide⟩
    obtain ⟨hwritten, hrefused, -⟩ := (read_and_text ".  .").2 p hp
    refine ⟨p, hp, hrefused ?_⟩
    rw [← isBlankText_text_iff, hwritten]
    decide +kernel

end FieldPath

end Crosswalk
