import Crosswalk.Fields

/-!
# Entries of a table

* `mem_of_get?` : an entry that is found is there.
* `get?_of_mem` : an entry that is there is found, if no other has its name.
* `mem_put` : a write adds no entry but its own.
* `eraseDups_concat_of_mem`, `eraseDups_concat_of_not_mem` : the order of first mention, with one more
  name.
* `names_foldl` : so are the names of a table that is written to time after time.
* `eq_map_names` : a table is told by its names and what is found under them.
* `get?_map`, `put_map` : tables whose entries are all exchanged.
-/

namespace Crosswalk

namespace Fields

variable {κ α : Type}

section FirstMention

variable [BEq κ] [LawfulBEq κ]

/-- A name that is mentioned once more keeps its place. -/
theorem eraseDups_concat_of_mem {mentioned : List κ} {name : κ}
    (h : name ∈ mentioned) : (mentioned ++ [name]).eraseDups = mentioned.eraseDups := by
  have hnone : [name].removeAll mentioned = [] := by simp [List.removeAll, h]
  rw [List.eraseDups_append, hnone, List.eraseDups_nil, List.append_nil]

/-- A name that is mentioned for the first time comes last. -/
theorem eraseDups_concat_of_not_mem {mentioned : List κ} {name : κ}
    (h : name ∉ mentioned) :
    (mentioned ++ [name]).eraseDups = mentioned.eraseDups ++ [name] := by
  have hself : [name].removeAll mentioned = [name] := by simp [List.removeAll, h]
  rw [List.eraseDups_append, hself, List.eraseDups_cons]
  rfl

end FirstMention

variable [DecidableEq κ]

/-- An entry is there under its name. -/
theorem mem_of_get? {name : κ} {entry : α} {fields : List (κ × α)}
    (h : get? name fields = some entry) : (name, entry) ∈ fields := by
  induction fields with
  | nil => simp [get?] at h
  | cons f rest ih =>
    obtain ⟨n, a⟩ := f
    by_cases hn : n = name
    · simp only [get?, if_pos hn, Option.some.injEq] at h
      simp [hn, h]
    · simp only [get?, if_neg hn] at h
      exact List.mem_cons_of_mem _ (ih h)

/-- An entry is found under its name if the names are apart from each other. -/
theorem get?_of_mem {name : κ} {entry : α} {fields : List (κ × α)}
    (hnodup : (names fields).Nodup) (h : (name, entry) ∈ fields) :
    get? name fields = some entry := by
  induction fields with
  | nil => cases h
  | cons f rest ih =>
    obtain ⟨n, a⟩ := f
    obtain ⟨hfirst, hrest⟩ := List.nodup_cons.1 hnodup
    rcases List.mem_cons.1 h with heq | hmem
    · obtain ⟨rfl, rfl⟩ := Prod.mk.inj heq
      simp [get?]
    · have hne : n ≠ name := by
        rintro rfl
        exact hfirst (List.mem_map.2 ⟨_, hmem, rfl⟩)
      rw [get?, if_neg hne]
      exact ih hrest hmem

/-- Names are looked up past entries that have other names. -/
theorem get?_append_of_ne {name : κ} {fields : List (κ × α)} (h : ∀ f ∈ fields, f.1 ≠ name)
    (others : List (κ × α)) : get? name (fields ++ others) = get? name others := by
  induction fields with
  | nil => rfl
  | cons f rest ih =>
    obtain ⟨hne, hrest⟩ := List.forall_mem_cons.1 h
    rw [List.cons_append, get?, if_neg hne]
    exact ih hrest

/-- A name has an entry exactly if it is one of the names. -/
theorem mem_names_of_get? {name : κ} {entry : α} {fields : List (κ × α)}
    (h : get? name fields = some entry) : name ∈ names fields :=
  List.mem_map.2 ⟨_, mem_of_get? h, rfl⟩

/-- Writing an entry where it stands changes nothing. -/
theorem put_of_get? {name : κ} {entry : α} {fields : List (κ × α)}
    (h : get? name fields = some entry) : put name entry fields = fields := by
  induction fields with
  | nil => simp [get?] at h
  | cons f rest ih =>
    obtain ⟨n, a⟩ := f
    by_cases hn : n = name
    · simp only [get?, if_pos hn, Option.some.injEq] at h
      simp [put, hn, h]
    · simp only [get?, if_neg hn] at h
      simp [put, hn, ih h]

/-- No table is empty that was written to. -/
theorem put_ne_nil (name : κ) (entry : α) (fields : List (κ × α)) : put name entry fields ≠ [] := by
  cases fields with
  | nil => simp [put]
  | cons f rest =>
    rw [put]
    split <;> simp

/-- After a write, an entry is the one that was written or was there before. -/
theorem mem_put {name : κ} {entry : α} {fields : List (κ × α)} {f : κ × α}
    (h : f ∈ put name entry fields) : f = (name, entry) ∨ f ∈ fields := by
  induction fields with
  | nil => exact Or.inl (List.mem_singleton.1 h)
  | cons first rest ih =>
    obtain ⟨n, a⟩ := first
    rw [put] at h
    split at h
    · rcases List.mem_cons.1 h with hnew | hold
      · exact Or.inl hnew
      · exact Or.inr (List.mem_cons_of_mem _ hold)
    · rcases List.mem_cons.1 h with hfirst | hrest
      · exact Or.inr (hfirst ▸ List.mem_cons_self)
      · rcases ih hrest with hnew | hold
        · exact Or.inl hnew
        · exact Or.inr (List.mem_cons_of_mem _ hold)

/-- **Writing time after time** leaves the names in the order in which they were first mentioned. -/
theorem names_foldl [BEq κ] [LawfulBEq κ] {β : Type} {step : List (κ × α) → β → List (κ × α)}
    {key : β → κ} (hstep : ∀ fields x, ∃ entry, step fields x = put (key x) entry fields)
    {mentioned : List κ} {fields : List (κ × α)} (h : names fields = mentioned.eraseDups)
    (xs : List β) : names (xs.foldl step fields) = (mentioned ++ xs.map key).eraseDups := by
  induction xs generalizing fields mentioned with
  | nil => simpa using h
  | cons x xs ih =>
    obtain ⟨entry, hput⟩ := hstep fields x
    have hnames : names (step fields x) = (mentioned ++ [key x]).eraseDups := by
      rw [hput]
      by_cases hmem : key x ∈ mentioned
      · rw [eraseDups_concat_of_mem hmem, names_put_of_mem, h]
        rwa [h, List.mem_eraseDups]
      · rw [eraseDups_concat_of_not_mem hmem, names_put_of_not_mem, h]
        rwa [h, List.mem_eraseDups]
    rw [List.foldl_cons, ih hnames, List.map_cons, List.append_assoc]
    rfl

/-- A table whose names are apart from each other is told by its names and what is found under
them. -/
theorem eq_map_names {fields : List (κ × α)} (hnodup : (names fields).Nodup) (other : α) :
    fields = (names fields).map fun name => (name, (get? name fields).getD other) := by
  rw [names, List.map_map]
  refine ((List.map_congr_left ?_).trans (List.map_id fields)).symm
  intro f hf
  have hget : get? f.1 fields = some f.2 := get?_of_mem hnodup hf
  rw [Function.comp_apply, hget]
  rfl

section Exchanged

variable {β : Type} (f : α → β) (name : κ)

theorem get?_map (fields : List (κ × α)) :
    get? name (fields.map (Prod.map id f)) = (get? name fields).map f := by
  induction fields with
  | nil => rfl
  | cons first rest ih =>
    obtain ⟨n, a⟩ := first
    by_cases hn : n = name
    · simp [get?, hn]
    · simpa [get?, hn] using ih

theorem put_map (entry : α) (fields : List (κ × α)) :
    (put name entry fields).map (Prod.map id f)
      = put name (f entry) (fields.map (Prod.map id f)) := by
  induction fields with
  | nil => rfl
  | cons first rest ih =>
    obtain ⟨n, a⟩ := first
    by_cases hn : n = name
    · simp [put, hn]
    · simpa [put, hn] using ih

end Exchanged

end Fields

end Crosswalk
