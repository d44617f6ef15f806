/-!
# Fields in order of arrival

A table of named entries keeps the order in which its names first arrived.  Writing to a name that
is present replaces its entry where it stands; writing to a new name adds the entry at the end.
Names may be of any type whose values can be compared; where nothing else is said they are strings.

* `get?_put_self`, `get?_put_of_ne` : what a table holds after a write.
* `names_put_of_mem`, `names_put_of_not_mem` : what a write does to the order of the names.
-/

namespace Crosswalk

/-- Named entries in order of arrival. -/
abbrev Fields (α : Type) : Type := List (String × α)

namespace Fields

variable {κ α : Type} [DecidableEq κ]

/-- The entry of a name. -/
def get? (name : κ) : List (κ × α) → Option α
  | [] => none
  | (n, a) :: rest => if n = name then some a else get? name rest

/-- The table with an entry written under a name. -/
def put (name : κ) (entry : α) : List (κ × α) → List (κ × α)
  | [] => [(name, entry)]
  | (n, a) :: rest => if n = name then (name, entry) :: rest else (n, a) :: put name entry rest

/-- The names in order of arrival. -/
def names (fields : List (κ × α)) : List κ :=
  fields.map Prod.fst

@[simp] theorem get?_put_self (name : κ) (entry : α) (fields : List (κ × α)) :
    get? name (put name entry fields) = some entry := by
  induction fields with
  | nil => simp [put, get?]
  | cons f rest ih =>
    obtain ⟨n, a⟩ := f
    by_cases h : n = name <;> simp [put, get?, h, ih]

theorem get?_put_of_ne {name other : κ} (h : other ≠ name) (entry : α) (fields : List (κ × α)) :
    get? other (put name entry fields) = get? other fields := by
  induction fields with
  | nil => simp [put, get?, h.symm]
  | cons f rest ih =>
    obtain ⟨n, a⟩ := f
    by_cases hn : n = name
    · subst hn
      simp [put, get?, h.symm]
    · simp [put, get?, hn, ih]

theorem get?_eq_none_iff (name : κ) (fields : List (κ × α)) :
    get? name fields = none ↔ name ∉ names fields := by
  induction fields with
  | nil => simp [get?, names]
  | cons f rest ih =>
    obtain ⟨n, a⟩ := f
    by_cases h : n = name
    · simp [get?, names, h]
    · simp only [get?, if_neg h, ih]
      simp [names, Ne.symm h]

/-- A write under a name that is present moves nothing. -/
theorem names_put_of_mem {name : κ} (entry : α) {fields : List (κ × α)}
    (h : name ∈ names fields) : names (put name entry fields) = names fields := by
  induction fields with
  | nil => simp [names] at h
  | cons f rest ih =>
    obtain ⟨n, a⟩ := f
    by_cases hn : n = name
    · simp [put, names, hn]
    · have hrest : name ∈ names rest := by
        simpa [names, Ne.symm hn] using h
      have := ih hrest
      simp_all [put, names]

/-- A write under a new name adds the name at the end. -/
theorem names_put_of_not_mem {name : κ} (entry : α) {fields : List (κ × α)}
    (h : name ∉ names fields) : names (put name entry fields) = names fields ++ [name] := by
  induction fields with
  | nil => simp [put, names]
  | cons f rest ih =>
    obtain ⟨n, a⟩ := f
    have hn : n ≠ name := by
      rintro rfl
      simp [names] at h
    have hrest : name ∉ names rest := by
      simp only [names, List.map_cons, List.mem_cons, not_or] at h
      exact h.2
    have := ih hrest
    simp_all [put, names]

/-- A write keeps the names of a table apart from each other. -/
theorem nodup_names_put (name : κ) (entry : α) {fields : List (κ × α)}
    (h : (names fields).Nodup) : (names (put name entry fields)).Nodup := by
  by_cases hm : name ∈ names fields
  · rwa [names_put_of_mem entry hm]
  · rw [names_put_of_not_mem entry hm, List.nodup_append]
    refine ⟨h, by simp, ?_⟩
    rintro a ha b hb rfl
    simp only [List.mem_singleton] at hb
    exact hm (hb ▸ ha)

end Fields

end Crosswalk
