import Crosswalk.Proofs.Path.Splicing

/-!
# Paths that can be read

The brackets of a path match exactly if those of each of its pieces do, since a dot divides only
where no bracket is open.  So a filter that is added to a path that can be read leaves one that can
be read if and only if the brackets in its value match inside of the brackets around it.

* `balanced_of_mem_split` and `balancedFrom_intercalate` : a path is balanced by its pieces.
* `segments_ne_nil_iff` : a text without a step consists of dots.
* `isReadable_splice_iff` : the filters that may be added.
-/

namespace Crosswalk

/-- Whether the brackets in the value of a filter match, inside of the brackets around the filter. -/
def Filter.IsEnclosable (f : Filter) : Prop :=
  Path.isBalanced ("[" ++ f.value ++ "]") = true

instance (f : Filter) : Decidable f.IsEnclosable :=
  inferInstanceAs (Decidable (_ = _))

namespace Path

/-- Whether a text is read as a field path. -/
def IsReadable (text : String) : Prop := ∃ p, FieldPath.read text = .ok p

/-- Whether a filter text puts a filter on a path: it spells the filter, and the piece that the
filter goes on has no brackets yet. -/
structure Adds (path filterText : String) (filter : Filter) : Prop where
  asked : Text.isBlankText filterText = false
  spelled : Filter.read filterText = .ok filter
  free : ∃ before piece after, target? (split path) = some (before, piece, after) ∧
    '[' ∉ piece.toList

/-! ### Matching brackets -/

/-- Matching brackets, from the first character on. -/
theorem balancedFrom_cons (depth : Nat) (c : Char) (cs : List Char) :
    balancedFrom depth (c :: cs) = true ↔
      ¬ (c = ']' ∧ depth = 0) ∧ balancedFrom (depthAfter depth c) cs = true := by
  rw [balancedFrom, depthAfter]
  by_cases hopen : c = '['
  · have hclose : c ≠ ']' := by
      rw [hopen]
      decide
    simp [hopen]
  · by_cases hclose : c = ']'
    · simp [hclose]
    · simp [hopen, hclose]

/-- After a text that closes `depth` brackets, only those that were open besides are open. -/
theorem balancedFrom_append {depth : Nat} {cs : List Char} (h : balancedFrom depth cs = true)
    (besides : Nat) (ds : List Char) :
    balancedFrom (depth + besides) (cs ++ ds) = balancedFrom besides ds := by
  induction cs generalizing depth with
  | nil =>
    have hzero : depth = 0 := by simpa [balancedFrom] using h
    rw [hzero, Nat.zero_add, List.nil_append]
  | cons c cs ih =>
    obtain ⟨hpast, hrest⟩ := (balancedFrom_cons depth c cs).1 h
    have hdepth : depthAfter (depth + besides) c = depthAfter depth c + besides := by
      unfold depthAfter
      split
      · omega
      · split
        · rename_i hclose
          have hne : depth ≠ 0 := fun hzero => hpast ⟨hclose, hzero⟩
          omega
        · rfl
    rw [← ih hrest, ← hdepth, List.cons_append, Bool.eq_iff_iff, balancedFrom_cons]
    constructor
    · intro hall
      exact hall.2
    · intro hall
      refine ⟨fun hboth => hpast ⟨hboth.1, ?_⟩, hall⟩
      omega

/-- A text whose brackets match may be left away at the end. -/
theorem balancedFrom_append_right {ds : List Char} (h : balancedFrom 0 ds = true) (depth : Nat)
    (cs : List Char) : balancedFrom depth (cs ++ ds) = balancedFrom depth cs := by
  induction cs generalizing depth with
  | nil =>
    have hopen : balancedFrom depth ds = balancedFrom depth [] := by
      simpa using balancedFrom_append h depth []
    rw [List.nil_append, hopen]
  | cons c cs ih =>
    rw [List.cons_append, Bool.eq_iff_iff, balancedFrom_cons, balancedFrom_cons, ih]

/-- Inside of one more pair of brackets, a text whose brackets match is not divided. -/
theorem isWhole_of_balancedFrom {depth : Nat} {cs : List Char} (h : balancedFrom depth cs = true) :
    IsWhole (depth + 1) cs ∧ depthAfterAll (depth + 1) cs = 1 := by
  induction cs generalizing depth with
  | nil =>
    have hzero : depth = 0 := by simpa [balancedFrom] using h
    subst hzero
    exact ⟨isWhole_nil 1, rfl⟩
  | cons c cs ih =>
    obtain ⟨hpast, hrest⟩ := (balancedFrom_cons depth c cs).1 h
    have hdepth : depthAfter (depth + 1) c = depthAfter depth c + 1 := by
      unfold depthAfter
      split
      · rfl
      · split
        · rename_i hclose
          have hne : depth ≠ 0 := fun hzero => hpast ⟨hclose, hzero⟩
          omega
        · rfl
    rw [isWhole_cons, depthAfterAll, List.foldl_cons, hdepth]
    exact ⟨⟨fun hdot => Nat.succ_ne_zero depth hdot.2, (ih hrest).1⟩, (ih hrest).2⟩

/-- A text without brackets may be left out anywhere. -/
theorem balancedFrom_leave_out {es : List Char} (h : ∀ c ∈ es, c ≠ '[' ∧ c ≠ ']') (depth : Nat)
    (cs ds : List Char) : balancedFrom depth (cs ++ (es ++ ds)) = balancedFrom depth (cs ++ ds) := by
  induction cs generalizing depth with
  | nil =>
    induction es with
    | nil => rfl
    | cons e es ih =>
      obtain ⟨hopen, hclose⟩ := h e List.mem_cons_self
      rw [List.nil_append, List.cons_append, balancedFrom, if_neg hopen, if_neg hclose]
      exact ih (fun c hc => h c (List.mem_cons_of_mem _ hc))
  | cons c cs ih =>
    rw [List.cons_append, List.cons_append, Bool.eq_iff_iff, balancedFrom_cons, balancedFrom_cons,
      ih]

/-! ### Paths and their pieces -/

/-- If the brackets of a text match, so do those of all its pieces, but for the brackets that were
open before the first one. -/
theorem balanced_of_rawPieces {depth : Nat} {cs first : List Char} {rest : List (List Char)}
    (h : balancedFrom depth cs = true) (hraw : rawPieces depth cs = first :: rest) :
    balancedFrom depth first = true ∧ ∀ piece ∈ rest, balancedFrom 0 piece = true := by
  induction cs generalizing depth first rest with
  | nil =>
    rw [rawPieces, List.cons.injEq] at hraw
    obtain ⟨rfl, rfl⟩ := hraw
    exact ⟨h, by simp⟩
  | cons c cs ih =>
    obtain ⟨hpast, hrest⟩ := (balancedFrom_cons depth c cs).1 h
    obtain ⟨next, others, hnext⟩ :=
      List.exists_cons_of_ne_nil (rawPieces_ne_nil (depthAfter depth c) cs)
    have hlater := ih hrest hnext
    rw [rawPieces] at hraw
    split at hraw
    · rename_i hdot
      obtain ⟨rfl, rfl⟩ := hdot
      change rawPieces 0 cs = next :: others at hnext
      rw [hnext, List.cons.injEq] at hraw
      obtain ⟨rfl, rfl⟩ := hraw
      exact ⟨rfl, List.forall_mem_cons.2 hlater⟩
    · rw [hnext, List.cons.injEq] at hraw
      obtain ⟨rfl, rfl⟩ := hraw
      exact ⟨(balancedFrom_cons depth c next).2 ⟨hpast, hlater.1⟩, hlater.2⟩

/-- The brackets of the pieces of a path match if those of the path do. -/
theorem balanced_of_mem_split {path piece : String} (h : isBalanced path = true)
    (hmem : piece ∈ split path) : isBalanced piece = true := by
  obtain ⟨chars, hchars, rfl⟩ := List.mem_map.1 hmem
  obtain ⟨first, rest, hraw⟩ := List.exists_cons_of_ne_nil (rawPieces_ne_nil 0 path.toList)
  have hall : ∀ piece ∈ first :: rest, balancedFrom 0 piece = true :=
    List.forall_mem_cons.2 (balanced_of_rawPieces h hraw)
  rw [isBalanced, String.toList_ofList]
  rw [pieces, hraw] at hchars
  exact hall chars (List.mem_filter.1 hchars).1

/-- **Pieces and paths.**  Among pieces whose brackets match, one more piece decides whether those of
the path do. -/
theorem balancedFrom_intercalate {before after : List (List Char)} (piece : List Char)
    (hbefore : ∀ p ∈ before, balancedFrom 0 p = true)
    (hafter : ∀ p ∈ after, balancedFrom 0 p = true) :
    balancedFrom 0 (['.'].intercalate (before ++ piece :: after)) = balancedFrom 0 piece := by
  have hdot : ∀ cs, balancedFrom 0 ('.' :: cs) = balancedFrom 0 cs := by
    intro cs
    simp [balancedFrom]
  induction before with
  | nil =>
    rw [List.nil_append]
    induction after generalizing piece with
    | nil => rw [List.intercalate_singleton]
    | cons next after ih =>
      have hrest : balancedFrom 0 (['.'].intercalate (next :: after)) = true := by
        rw [ih next (fun p hp => hafter p (List.mem_cons_of_mem _ hp))]
        exact hafter next List.mem_cons_self
      rw [List.intercalate_cons_cons, List.append_assoc, List.singleton_append,
        balancedFrom_append_right (by rw [hdot, hrest])]
  | cons first before ih =>
    have hfirst : balancedFrom 0 first = true := hbefore first List.mem_cons_self
    have hrest := ih (fun p hp => hbefore p (List.mem_cons_of_mem _ hp))
    obtain ⟨next, others, hnext⟩ : ∃ next others, before ++ piece :: after = next :: others :=
      List.exists_cons_of_ne_nil (by simp)
    rw [hnext] at hrest
    rw [List.cons_append, hnext, List.intercalate_cons_cons, List.append_assoc,
      List.singleton_append, ← Nat.add_zero 0, balancedFrom_append hfirst, hdot, hrest]

/-- A character that is no dot stands in one of the pieces. -/
theorem exists_mem_rawPieces {cs : List Char} {c : Char} (hc : c ∈ cs) (hdot : c ≠ '.')
    (depth : Nat) : ∃ piece ∈ rawPieces depth cs, c ∈ piece := by
  induction cs generalizing depth with
  | nil => cases hc
  | cons d cs ih =>
    rw [rawPieces]
    split
    · rename_i hd
      have hne : c ≠ d := fun heq => hdot (heq.trans hd.1)
      have hlater : c ∈ cs := (List.mem_cons.1 hc).resolve_left hne
      obtain ⟨piece, hpiece, hmem⟩ := ih hlater depth
      exact ⟨piece, List.mem_cons_of_mem _ hpiece, hmem⟩
    · obtain ⟨first, rest, hraw⟩ :=
        List.exists_cons_of_ne_nil (rawPieces_ne_nil (depthAfter depth d) cs)
      rw [hraw]
      rcases List.mem_cons.1 hc with rfl | hlater
      · exact ⟨c :: first, List.mem_cons_self, List.mem_cons_self⟩
      · obtain ⟨piece, hpiece, hmem⟩ := ih hlater (depthAfter depth d)
        rw [hraw] at hpiece
        rcases List.mem_cons.1 hpiece with rfl | hpiece
        · exact ⟨d :: piece, List.mem_cons_self, List.mem_cons_of_mem _ hmem⟩
        · exact ⟨piece, List.mem_cons_of_mem _ hpiece, hmem⟩

/-- Nothing stands between dots that follow each other. -/
theorem eq_nil_of_mem_rawPieces_dots {cs : List Char} (h : ∀ c ∈ cs, c = '.') {piece : List Char}
    (hpiece : piece ∈ rawPieces 0 cs) : piece = [] := by
  induction cs with
  | nil => simpa [rawPieces] using hpiece
  | cons c cs ih =>
    obtain ⟨rfl, hdots⟩ := List.forall_mem_cons.1 h
    rw [rawPieces, if_pos ⟨rfl, rfl⟩] at hpiece
    rcases List.mem_cons.1 hpiece with rfl | hlater
    · rfl
    · exact ih hdots hlater

/-- **A text has a step** exactly if it does not consist of dots. -/
theorem segments_ne_nil_iff {path : String} :
    segments path ≠ [] ↔ ∃ c ∈ path.toList, c ≠ '.' := by
  constructor
  · intro h
    refine Decidable.byContradiction fun hdots => ?_
    obtain ⟨step, hstep⟩ := List.exists_mem_of_ne_nil _ h
    obtain ⟨piece, hpiece, -⟩ := List.mem_map.1 hstep
    have hraw : piece ∈ rawPieces 0 path.toList := (List.mem_filter.1 hpiece).1
    have hall : ∀ c ∈ path.toList, c = '.' :=
      fun c hc => Decidable.byContradiction fun hne => hdots ⟨c, hc, hne⟩
    exact ne_nil_of_mem_pieces hpiece (eq_nil_of_mem_rawPieces_dots hall hraw)
  · rintro ⟨c, hc, hne⟩
    obtain ⟨piece, hpiece, hmem⟩ := exists_mem_rawPieces hc hne 0
    have hkept : piece ∈ pieces path.toList :=
      List.mem_filter.2 ⟨hpiece, by simpa using List.ne_nil_of_mem hmem⟩
    exact List.ne_nil_of_mem (List.mem_map_of_mem hkept)

/-- What stands in a piece stands in the path. -/
theorem mem_intercalate {ps : List (List Char)} {piece : List Char} {c : Char} (hpiece : piece ∈ ps)
    (hc : c ∈ piece) : c ∈ ['.'].intercalate ps := by
  induction ps with
  | nil => cases hpiece
  | cons first rest ih =>
    cases rest with
    | nil =>
      rw [List.intercalate_singleton, ← List.mem_singleton.1 hpiece]
      exact hc
    | cons next rest =>
      rw [List.intercalate_cons_cons, List.append_assoc, List.mem_append]
      rcases List.mem_cons.1 hpiece with rfl | hpiece
      · exact Or.inl hc
      · exact Or.inr (List.mem_append_right _ (ih hpiece))

/-- A text with an opening bracket can be read exactly if its brackets match. -/
theorem isReadable_iff_of_mem {path : String} (h : '[' ∈ path.toList) :
    IsReadable path ↔ isBalanced path = true := by
  have hblank : Text.isBlankText path = false := by
    have hbracket : Text.isBlank '[' = false := by decide
    rw [Text.isBlankText, List.all_eq_false]
    exact ⟨'[', h, by simp [hbracket]⟩
  have hsegments : segments path ≠ [] := segments_ne_nil_iff.2 ⟨'[', h, by decide⟩
  rw [IsReadable, FieldPath.read_isOk_iff]
  simp [hblank, hsegments]

/-! ### Adding a filter -/

/-- The brackets of a piece with a filter match exactly if the filter can be enclosed. -/
theorem isBalanced_filtered {piece : String} {filter : Filter} (hpiece : isBalanced piece = true)
    (hfilter : filter.Spellable) :
    isBalanced (filtered piece filter) = true ↔ filter.IsEnclosable := by
  have hname : ∀ c ∈ filter.name.toList, c ≠ '[' ∧ c ≠ ']' :=
    fun c hc => Filter.ne_bracket_of_isNameChar (hfilter.name_chars c hc)
  have hmark : ∀ c ∈ ['@'], c ≠ '[' ∧ c ≠ ']' := by simp
  have hsigns : ∀ c ∈ ['=', '\''], c ≠ '[' ∧ c ≠ ']' := by simp
  have hquote : ∀ c ∈ ['\''], c ≠ '[' ∧ c ≠ ']' := by simp
  have hinside : balancedFrom 1 (filter.text.toList ++ [']'])
      = balancedFrom 1 (filter.value.toList ++ [']']) := by
    have hshape : filter.text.toList ++ [']'] = ['@'] ++ (filter.name.toList
        ++ (['=', '\''] ++ (filter.value.toList ++ (['\''] ++ [']'])))) := by
      simp [Filter.text, String.toList_append]
    have hfront : ∀ es : List Char, (∀ c ∈ es, c ≠ '[' ∧ c ≠ ']') → ∀ ds,
        balancedFrom 1 (es ++ ds) = balancedFrom 1 ds :=
      fun _ hes ds => balancedFrom_leave_out hes 1 [] ds
    rw [hshape, hfront _ hmark, hfront _ hname, hfront _ hsigns, balancedFrom_leave_out hquote]
  have hbrackets : ∀ cs, balancedFrom 0 ('[' :: cs) = balancedFrom 1 cs := fun cs => by
    simp [balancedFrom]
  have howner : isBalanced (filtered piece filter)
      = balancedFrom 0 ('[' :: (filter.text.toList ++ [']'])) := by
    rw [isBalanced, toList_filtered]
    exact balancedFrom_append hpiece 0 _
  have hvalue : isBalanced ("[" ++ filter.value ++ "]")
      = balancedFrom 0 ('[' :: (filter.value.toList ++ [']'])) := by
    simp [isBalanced, String.toList_append]
  rw [Filter.IsEnclosable, howner, hvalue, hbrackets, hbrackets, hinside]

/-- A path that a filter text changes has a filter put on it. -/
theorem exists_adds_of_splice_ne {path filterText : String}
    (h : (splice path filterText).1 ≠ path) : ∃ filter, Adds path filterText filter := by
  unfold splice at h
  split at h
  · exact absurd rfl h
  · rename_i hasked
    unfold readFilter at h
    cases hread : Filter.read filterText with
    | error cause => simp [hread] at h
    | ok filter =>
      cases htarget : target? (split path) with
      | none => simp [hread, htarget] at h
      | some parts =>
        obtain ⟨before, piece, after⟩ := parts
        have hopen : '[' ∉ piece.toList := by
          intro hmem
          simp [hread, htarget, hmem] at h
        exact ⟨filter, by simpa using hasked, hread, before, piece, after, htarget, hopen⟩

/-- **Adding a filter to a path.**  A path that can be read can still be read with a filter added to
it exactly if the brackets in the value of that filter match.  All other filter texts leave the path
as it is. -/
theorem isReadable_splice_iff {path : String} (h : IsReadable path) (filterText : String) :
    IsReadable (splice path filterText).1 ↔
      ∀ filter, Adds path filterText filter → filter.IsEnclosable := by
  have hbalanced : isBalanced path = true := ((FieldPath.read_isOk_iff path).1 h).2.1
  by_cases hadds : ∃ filter, Adds path filterText filter
  · obtain ⟨filter, hfilter⟩ := hadds
    obtain ⟨before, piece, after, htarget, hopen⟩ := hfilter.free
    have hpieces : before ++ piece :: after = split path := target?_append htarget
    have hmatch : ∀ p ∈ before ++ piece :: after, isBalanced p = true :=
      fun p hp => balanced_of_mem_split hbalanced (hpieces ▸ hp)
    have hspliced := splice_of_target hfilter.asked hfilter.spelled htarget hopen
    have hchars : (splice path filterText).1.toList = ['.'].intercalate
        (before.map String.toList ++ (filtered piece filter).toList :: after.map String.toList) := by
      rw [hspliced, join, String.toList_intercalate, List.map_append, List.map_cons]
      rfl
    have hwhole : isBalanced (splice path filterText).1 = isBalanced (filtered piece filter) := by
      rw [isBalanced, hchars]
      apply balancedFrom_intercalate
      · intro p hp
        obtain ⟨q, hq, rfl⟩ := List.mem_map.1 hp
        exact hmatch q (List.mem_append_left _ hq)
      · intro p hp
        obtain ⟨q, hq, rfl⟩ := List.mem_map.1 hp
        exact hmatch q (List.mem_append_right _ (List.mem_cons_of_mem _ hq))
    have hbracket : '[' ∈ (splice path filterText).1.toList := by
      have hpiece : '[' ∈ (filtered piece filter).toList := by
        rw [toList_filtered]
        simp
      rw [hchars]
      exact mem_intercalate (by simp) hpiece
    rw [isReadable_iff_of_mem hbracket, hwhole,
      isBalanced_filtered (hmatch piece (by simp)) (Filter.spellable_of_read hfilter.spelled)]
    constructor
    · intro henclosable other hother
      have heq : filter = other := Except.ok.inj (hfilter.spelled.symm.trans hother.spelled)
      exact heq ▸ henclosable
    · intro hall
      exact hall filter hfilter
  · have hsame : (splice path filterText).1 = path :=
      Decidable.not_not.1 fun hdiffers => hadds (exists_adds_of_splice_ne hdiffers)
    rw [hsame]
    exact iff_of_true h (fun filter hfilter => absurd ⟨filter, hfilter⟩ hadds)

end Path

end Crosswalk
