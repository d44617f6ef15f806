import Crosswalk.Path.Split

/-!
# Splitting and joining

A text in which no dot stands on the outside is one piece.  The pieces of a path are such texts, and
every one that has another after it closes its brackets, so joining them and splitting again gives
the same pieces.  A piece may be exchanged for another one with these two properties.

* `split_join` : pieces that can stand beside each other are read again from their join.
* `divided_split` : the pieces of a path can.
* `Divided.exchange` : a piece may be exchanged for another whole and closed one.
-/

namespace Crosswalk.Path

/-! ### Texts that are one piece -/

/-- Whether no dot divides a text when reading begins with `depth` brackets open. -/
def IsWhole (depth : Nat) (cs : List Char) : Prop := rawPieces depth cs = [cs]

/-- Whether a text closes all the brackets that it opens. -/
def IsClosed (cs : List Char) : Prop := depthAfterAll 0 cs = 0

theorem depthAfterAll_append (depth : Nat) (cs ds : List Char) :
    depthAfterAll depth (cs ++ ds) = depthAfterAll (depthAfterAll depth cs) ds := by
  simp [depthAfterAll]

theorem isWhole_nil (depth : Nat) : IsWhole depth [] := rfl

/-- Reading a text from its first character on. -/
theorem isWhole_cons (depth : Nat) (c : Char) (cs : List Char) :
    IsWhole depth (c :: cs) ↔ ¬ (c = '.' ∧ depth = 0) ∧ IsWhole (depthAfter depth c) cs := by
  unfold IsWhole
  rw [rawPieces]
  split
  · rename_i hdot
    simp [hdot]
  · rename_i hdot
    cases hraw : rawPieces (depthAfter depth c) cs with
    | nil => exact absurd hraw (rawPieces_ne_nil _ _)
    | cons piece rest => simp [hdot]

theorem isWhole_append (depth : Nat) (cs ds : List Char) :
    IsWhole depth (cs ++ ds) ↔ IsWhole depth cs ∧ IsWhole (depthAfterAll depth cs) ds := by
  induction cs generalizing depth with
  | nil => simp [isWhole_nil, depthAfterAll]
  | cons c cs ih =>
    rw [List.cons_append, isWhole_cons, isWhole_cons, ih, and_assoc]
    rfl

/-- A character that is neither a dot nor a bracket changes nothing. -/
theorem depthAfter_of_ne {c : Char} (hopen : c ≠ '[') (hclose : c ≠ ']') (depth : Nat) :
    depthAfter depth c = depth := by
  simp [depthAfter, hopen, hclose]

/-- Without brackets the depth stays what it is. -/
theorem depthAfterAll_of_no_bracket {cs : List Char} (h : ∀ c ∈ cs, c ≠ '[' ∧ c ≠ ']')
    (depth : Nat) : depthAfterAll depth cs = depth := by
  induction cs with
  | nil => rfl
  | cons c cs ih =>
    have hc := h c List.mem_cons_self
    have hstep : depthAfter depth c = depth := depthAfter_of_ne hc.1 hc.2 depth
    rw [depthAfterAll, List.foldl_cons, hstep]
    exact ih (fun d hd => h d (List.mem_cons_of_mem _ hd))

/-- Inside of brackets, a text without brackets is not divided. -/
theorem isWhole_of_no_bracket {cs : List Char} (h : ∀ c ∈ cs, c ≠ '[' ∧ c ≠ ']') {depth : Nat}
    (hdepth : depth ≠ 0) : IsWhole depth cs := by
  induction cs with
  | nil => exact isWhole_nil depth
  | cons c cs ih =>
    have hc := h c List.mem_cons_self
    rw [isWhole_cons, depthAfter_of_ne hc.1 hc.2]
    exact ⟨fun hdot => hdepth hdot.2, ih (fun d hd => h d (List.mem_cons_of_mem _ hd))⟩

/-- A text without dots is not divided. -/
theorem isWhole_of_no_dot {cs : List Char} (h : '.' ∉ cs) (depth : Nat) : IsWhole depth cs := by
  induction cs generalizing depth with
  | nil => exact isWhole_nil depth
  | cons c cs ih =>
    have hc : c ≠ '.' := fun heq => h (heq ▸ List.mem_cons_self)
    rw [isWhole_cons]
    exact ⟨fun hdot => hc hdot.1, ih (fun hmem => h (List.mem_cons_of_mem _ hmem)) _⟩

/-- A text that opens no bracket stays on the outside. -/
theorem isClosed_of_no_opening {cs : List Char} (h : '[' ∉ cs) : IsClosed cs := by
  induction cs with
  | nil => rfl
  | cons c cs ih =>
    have hc : c ≠ '[' := fun heq => h (heq ▸ List.mem_cons_self)
    have hstep : depthAfter 0 c = 0 := by simp [depthAfter, hc]
    rw [IsClosed, depthAfterAll, List.foldl_cons, hstep]
    exact ih (fun hmem => h (List.mem_cons_of_mem _ hmem))

/-- A text in brackets after a piece that closes what it opens belongs to that piece, which still
does. -/
theorem isWhole_bracketed {piece inner : List Char} (hpiece : IsWhole 0 piece)
    (hclosed : IsClosed piece) (hinner : IsWhole 1 inner) (hdepth : depthAfterAll 1 inner = 1) :
    IsWhole 0 (piece ++ '[' :: (inner ++ [']'])) ∧
      IsClosed (piece ++ '[' :: (inner ++ [']'])) := by
  have houtside : depthAfterAll 0 piece = 0 := hclosed
  have hbracket : depthAfter 0 '[' = 1 := by decide
  constructor
  · rw [isWhole_append, houtside, isWhole_cons, hbracket, isWhole_append, hdepth]
    exact ⟨hpiece, by decide, hinner, rfl⟩
  · rw [IsClosed, depthAfterAll_append, houtside, depthAfterAll, List.foldl_cons, hbracket]
    change depthAfterAll 1 (inner ++ [']']) = 0
    rw [depthAfterAll_append, hdepth]
    rfl

/-- Splitting brings in no characters. -/
theorem mem_of_mem_rawPieces {depth : Nat} {cs piece : List Char} {c : Char}
    (h : piece ∈ rawPieces depth cs) (hc : c ∈ piece) : c ∈ cs := by
  induction cs generalizing depth piece with
  | nil =>
    obtain rfl : piece = [] := by simpa [rawPieces] using h
    cases hc
  | cons d cs ih =>
    rw [rawPieces] at h
    split at h
    · rcases List.mem_cons.1 h with rfl | h
      · cases hc
      · exact List.mem_cons_of_mem _ (ih h hc)
    · obtain ⟨first, rest, hraw⟩ :=
        List.exists_cons_of_ne_nil (rawPieces_ne_nil (depthAfter depth d) cs)
      rw [hraw] at h
      have hlater : ∀ p ∈ first :: rest, c ∈ p → c ∈ cs := by
        intro p hp hcp
        rw [← hraw] at hp
        exact ih hp hcp
      rcases List.mem_cons.1 h with rfl | h
      · rcases List.mem_cons.1 hc with rfl | hc
        · exact List.mem_cons_self
        · exact List.mem_cons_of_mem _ (hlater first List.mem_cons_self hc)
      · exact List.mem_cons_of_mem _ (hlater piece (List.mem_cons_of_mem _ h) hc)

/-! ### Pieces beside each other -/

/-- Whether texts can be the pieces of a path: none is divided by a dot, and every one with another
after it closes its brackets. -/
def Divided : List (List Char) → Prop
  | [] => True
  | piece :: rest => IsWhole 0 piece ∧ (rest ≠ [] → IsClosed piece) ∧ Divided rest

/-- What reading gives can be the pieces of a path, but for the brackets that were open before. -/
theorem divided_rawPieces (depth : Nat) (cs : List Char) {piece : List Char}
    {rest : List (List Char)} (h : rawPieces depth cs = piece :: rest) :
    IsWhole depth piece ∧ (rest ≠ [] → depthAfterAll depth piece = 0) ∧ Divided rest := by
  induction cs generalizing depth piece rest with
  | nil =>
    rw [rawPieces, List.cons.injEq] at h
    obtain ⟨rfl, rfl⟩ := h
    exact ⟨isWhole_nil depth, fun hne => absurd rfl hne, trivial⟩
  | cons c cs ih =>
    rw [rawPieces] at h
    split at h
    · rename_i hdot
      obtain ⟨-, rfl⟩ := hdot
      rw [List.cons.injEq] at h
      obtain ⟨rfl, rfl⟩ := h
      obtain ⟨first, others, hraw⟩ := List.exists_cons_of_ne_nil (rawPieces_ne_nil 0 cs)
      rw [hraw]
      exact ⟨isWhole_nil 0, fun _ => rfl, ih 0 hraw⟩
    · rename_i hdot
      obtain ⟨first, others, hraw⟩ :=
        List.exists_cons_of_ne_nil (rawPieces_ne_nil (depthAfter depth c) cs)
      rw [hraw] at h
      simp only [List.cons.injEq] at h
      obtain ⟨rfl, rfl⟩ := h
      obtain ⟨hwhole, hclosed, hrest⟩ := ih _ hraw
      exact ⟨(isWhole_cons depth c first).2 ⟨hdot, hwhole⟩, hclosed, hrest⟩

/-- Some of the pieces of a path can be the pieces of a path. -/
theorem Divided.filter {pieces : List (List Char)} (h : Divided pieces)
    (keeps : List Char → Bool) : Divided (pieces.filter keeps) := by
  induction pieces with
  | nil => exact trivial
  | cons piece rest ih =>
    obtain ⟨hwhole, hclosed, hrest⟩ := h
    by_cases hkeeps : keeps piece = true
    · rw [List.filter_cons_of_pos hkeeps]
      refine ⟨hwhole, ?_, ih hrest⟩
      intro hne
      apply hclosed
      rintro rfl
      exact hne rfl
    · rw [List.filter_cons_of_neg hkeeps]
      exact ih hrest

/-- **Exchanging a piece** for one that is whole and closed. -/
theorem Divided.exchange {before after : List (List Char)} {old new : List Char}
    (h : Divided (before ++ old :: after)) (hwhole : IsWhole 0 new) (hclosed : IsClosed new) :
    Divided (before ++ new :: after) := by
  induction before with
  | nil => exact ⟨hwhole, fun _ => hclosed, h.2.2⟩
  | cons piece before ih => exact ⟨h.1, fun _ => h.2.1 (by simp), ih h.2.2⟩

theorem Divided.isWhole {pieces : List (List Char)} (h : Divided pieces) {piece : List Char}
    (hmem : piece ∈ pieces) : IsWhole 0 piece := by
  induction pieces with
  | nil => cases hmem
  | cons first rest ih =>
    rcases List.mem_cons.1 hmem with rfl | hmem
    · exact h.1
    · exact ih h.2.2 hmem

/-- Reading what dots join gives what was joined. -/
theorem rawPieces_intercalate {pieces : List (List Char)} (h : Divided pieces)
    (hne : pieces ≠ []) : rawPieces 0 (['.'].intercalate pieces) = pieces := by
  induction pieces with
  | nil => exact absurd rfl hne
  | cons piece rest ih =>
    obtain ⟨hwhole, hclosed, hrest⟩ := h
    match rest with
    | [] => rw [List.intercalate_singleton, hwhole]
    | next :: rest =>
      rw [List.intercalate_cons_cons, List.append_assoc, List.singleton_append,
        rawPieces_append_dot 0 _ _ (hclosed (by simp)), ih hrest (by simp), hwhole]
      rfl

/-- The pieces of a path can be the pieces of a path. -/
theorem divided_pieces (path : List Char) : Divided (pieces path) := by
  obtain ⟨first, rest, hraw⟩ := List.exists_cons_of_ne_nil (rawPieces_ne_nil 0 path)
  have hdivided : Divided (rawPieces 0 path) := by
    rw [hraw]
    exact divided_rawPieces 0 path hraw
  exact hdivided.filter _

/-- Splitting what dots join gives what was joined, if no piece is empty. -/
theorem pieces_intercalate {ps : List (List Char)} (h : Divided ps) (hne : ∀ p ∈ ps, p ≠ []) :
    pieces (['.'].intercalate ps) = ps := by
  by_cases hnil : ps = []
  · subst hnil
    rfl
  · rw [pieces, rawPieces_intercalate h hnil, List.filter_eq_self]
    intro p hp
    simpa using hne p hp

/-! ### The same for texts -/

theorem map_toList_split (path : String) : (split path).map String.toList = pieces path.toList := by
  simp [split, Function.comp_def]

/-- The pieces of a path can be the pieces of a path. -/
theorem divided_split (path : String) : Divided ((split path).map String.toList) := by
  rw [map_toList_split]
  exact divided_pieces _

theorem ne_empty_of_mem_split {path piece : String} (h : piece ∈ split path) :
    piece.toList ≠ [] := by
  have hmem : piece.toList ∈ (split path).map String.toList := List.mem_map_of_mem h
  rw [map_toList_split] at hmem
  exact ne_nil_of_mem_pieces hmem

/-- **Splitting a join.**  Pieces that can stand beside each other are read again from the text that
they are joined to. -/
theorem split_join {ps : List String} (h : Divided (ps.map String.toList))
    (hne : ∀ p ∈ ps, p.toList ≠ []) : split (join ps) = ps := by
  have hpieces : pieces (join ps).toList = ps.map String.toList := by
    rw [join, String.toList_intercalate]
    apply pieces_intercalate h
    intro p hp
    obtain ⟨q, hq, rfl⟩ := List.mem_map.1 hp
    exact hne q hq
  rw [split, hpieces, List.map_map]
  refine (List.map_congr_left ?_).trans (List.map_id _)
  intro p _
  exact String.ofList_toList

theorem join_singleton (piece : String) : join [piece] = piece := by
  simp [join]

theorem join_cons_cons (first second : String) (rest : List String) :
    join (first :: second :: rest) = first ++ "." ++ join (second :: rest) := by
  apply String.toList_injective
  simp [join, String.toList_intercalate]

/-- Whether a text can be a piece wherever it stands: it has neither dots nor opening brackets. -/
def IsPlainPiece (piece : String) : Prop :=
  piece ≠ "" ∧ '.' ∉ piece.toList ∧ '[' ∉ piece.toList

instance (piece : String) : Decidable (IsPlainPiece piece) :=
  inferInstanceAs (Decidable (_ ∧ _ ∧ _))

/-- Plain pieces are read again from their join. -/
theorem split_join_of_plain {ps : List String} (h : ∀ p ∈ ps, IsPlainPiece p) :
    split (join ps) = ps := by
  have hdivided : ∀ qs : List String, (∀ q ∈ qs, IsPlainPiece q) →
      Divided (qs.map String.toList) := by
    intro qs hqs
    induction qs with
    | nil => exact trivial
    | cons q qs ih =>
      obtain ⟨-, hdot, hopen⟩ := hqs q List.mem_cons_self
      exact ⟨isWhole_of_no_dot hdot 0, fun _ => isClosed_of_no_opening hopen,
        ih (fun p hp => hqs p (List.mem_cons_of_mem _ hp))⟩
  exact split_join (hdivided ps h) (fun p hp => by simpa using (h p hp).1)

/-- Joining the pieces of a path and splitting again gives the same pieces. -/
theorem split_join_split (path : String) : split (join (split path)) = split path :=
  split_join (divided_split path) (fun _ hp => ne_empty_of_mem_split hp)

/-! ### Pieces with brackets -/

theorem toList_bracketed (piece inner : String) :
    (piece ++ "[" ++ inner ++ "]").toList = piece.toList ++ '[' :: (inner.toList ++ [']']) := by
  simp

/-- A piece without brackets is a bare name. -/
theorem bareName_of_no_opening {piece : String} (h : '[' ∉ piece.toList) :
    bareName piece = piece := by
  have hall : ∀ c ∈ piece.toList, decide (c ≠ '[') = true := by
    intro c hc
    exact decide_eq_true fun heq => h (heq ▸ hc)
  have htake : (piece.toList ++ []).takeWhile (· ≠ '[') = piece.toList ++ [] :=
    List.takeWhile_append_of_pos hall
  rw [List.append_nil] at htake
  rw [bareName, htake, String.ofList_toList]

/-- A text in brackets after a piece does not belong to its name. -/
theorem bareName_bracketed (piece inner : String) :
    bareName (piece ++ "[" ++ inner ++ "]") = bareName piece := by
  have hstop : ∀ cs ds : List Char,
      (cs ++ '[' :: ds).takeWhile (· ≠ '[') = cs.takeWhile (· ≠ '[') := by
    intro cs ds
    induction cs with
    | nil => rfl
    | cons c cs ih =>
      rw [List.cons_append, List.takeWhile_cons, List.takeWhile_cons, ih]
  rw [bareName, bareName, toList_bracketed, hstop]

/-- A piece without the first sign of the mark of an attribute does not have the mark. -/
theorem isAttributePiece_of_no_at {piece : String} (h : '@' ∉ piece.toList) :
    isAttributePiece piece = false := by
  rw [isAttributePiece]
  cases hchars : piece.toList with
  | nil => rfl
  | cons first rest =>
    have hne : '@' ≠ first := by
      intro heq
      rw [hchars, heq] at h
      exact h List.mem_cons_self
    simp [attributeMark, List.isPrefixOf, hne]

/-- Text in brackets neither brings nor hides the mark of an attribute. -/
theorem isAttributePiece_bracketed (piece inner : String) :
    isAttributePiece (piece ++ "[" ++ inner ++ "]") = isAttributePiece piece := by
  rw [isAttributePiece, isAttributePiece, toList_bracketed]
  match piece.toList with
  | [] => rfl
  | [c] => simp [attributeMark, List.isPrefixOf]
  | c :: d :: rest => simp [attributeMark, List.isPrefixOf]

end Crosswalk.Path
