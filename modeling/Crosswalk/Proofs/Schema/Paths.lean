import Crosswalk.Proofs.Path.Positions
import Crosswalk.Proofs.Schema.Origins
import Mathlib.Data.List.Basic
import Mathlib.Data.List.Nodup

/-!
# Do paths tell nodes apart?

A node is told by the keys that lead to it, but its path only joins them by dots.  So two nodes have
the same path where a key has dots of its own, and also where outermost keys are empty: a key that
is written below an empty path is written as if nothing stood above it.  Otherwise no two nodes of a
schema have the same path.

* `map_path_preorder` : the paths of a schema are what the ways to its nodes spell.
* `splitOn_spelled` : the keys of a way are told from its spelling.
* `nodup_paths_iff` : when no two nodes have the same path.
-/

namespace Crosswalk.Schema

/-! ### Ways to nodes -/

mutual

/-- The ways to the node of a field and to the nodes below it. -/
def waysTo (key : String) : Json.Value → List (List String)
  | .object fields => [key] :: (ways fields).map (key :: ·)
  | .array (.object fields :: _) => [key] :: (ways fields).map (key :: ·)
  | _ => [[key]]

/-- The ways to the nodes of some fields and to those below them: the keys that lead to each of
them, parents first. -/
def ways : List (String × Json.Value) → List (List String)
  | [] => []
  | (key, v) :: rest => waysTo key v ++ ways rest

end

theorem waysTo_eq (key : String) (v : Json.Value) :
    waysTo key v = [key] :: (ways (childFields v)).map (key :: ·) := by
  unfold waysTo childFields
  split <;> simp_all [ways]

/-- A way begins with the key of one of the fields. -/
theorem exists_key_of_mem_ways {fields : Fields Json.Value} {keys : List String}
    (h : keys ∈ ways fields) : ∃ key ∈ Fields.names fields, ∃ rest, keys = key :: rest := by
  induction fields with
  | nil => cases h
  | cons f fields ih =>
    obtain ⟨key, v⟩ := f
    rw [ways, waysTo_eq] at h
    rcases List.mem_append.1 h with hfirst | hlater
    · rcases List.mem_cons.1 hfirst with rfl | hbelow
      · exact ⟨key, List.mem_cons_self, [], rfl⟩
      · obtain ⟨rest, -, rfl⟩ := List.mem_map.1 hbelow
        exact ⟨key, List.mem_cons_self, rest, rfl⟩
    · obtain ⟨other, hother, rest, rfl⟩ := ih hlater
      exact ⟨other, List.mem_cons_of_mem _ hother, rest, rfl⟩

/-! ### Different nodes, different ways -/

/-- Whether the names of some fields are apart from each other, and so are all names below them. -/
def AreDistinct (fields : Fields Json.Value) : Prop :=
  (Fields.names fields).Nodup ∧ ∀ f ∈ fields, f.2.HasDistinctNames

theorem areDistinct_childFields {v : Json.Value} (h : v.HasDistinctNames) :
    AreDistinct (childFields v) := by
  unfold childFields
  split
  · rw [Json.Value.HasDistinctNames, Json.Value.entriesHaveDistinctNames_iff] at h
    exact h
  · rw [Json.Value.HasDistinctNames, Json.Value.allHaveDistinctNames_iff] at h
    have hfirst := h _ List.mem_cons_self
    rw [Json.Value.HasDistinctNames, Json.Value.entriesHaveDistinctNames_iff] at hfirst
    exact hfirst
  · exact ⟨List.nodup_nil, fun f hf => nomatch hf⟩

/-- The items of an array that is the whole document have different numbers. -/
theorem nodup_names_numbered (items : List Json.Value) :
    (Fields.names (numbered items)).Nodup := by
  have hnames : Fields.names (numbered items) = (items.zipIdx.map Prod.snd).map toString := by
    rw [Fields.names, numbered, List.map_map, List.map_map]
    rfl
  have hinjective : Function.Injective (toString : Nat → String) :=
    fun m n heq => Segment.eq_of_toString heq
  rw [hnames, List.zipIdx_map_snd]
  exact List.Nodup.map hinjective List.nodup_range'

theorem areDistinct_topFields {d : Json.Value} (h : d.HasDistinctNames) :
    AreDistinct (topFields d) := by
  cases d with
  | object fields => exact areDistinct_childFields h
  | array items =>
    rw [Json.Value.HasDistinctNames, Json.Value.allHaveDistinctNames_iff] at h
    refine ⟨nodup_names_numbered items, ?_⟩
    intro f hf
    obtain ⟨⟨v, i⟩, hmem, rfl⟩ := List.mem_map.1 hf
    exact h v (List.mem_of_getElem? (List.mem_zipIdx_iff_getElem?.1 hmem))
  | _ => exact ⟨List.nodup_nil, fun f hf => nomatch hf⟩

/-- **No two ways are the same.** -/
theorem nodup_ways {fields : Fields Json.Value} (h : AreDistinct fields) : (ways fields).Nodup := by
  match fields with
  | [] => exact List.nodup_nil
  | (key, v) :: rest =>
    obtain ⟨hnodup, hbelow⟩ := h
    obtain ⟨hkey, hrest⟩ := List.nodup_cons.1 hnodup
    obtain ⟨hv, hlater⟩ := List.forall_mem_cons.1 hbelow
    have hchildren : (ways (childFields v)).Nodup := nodup_ways (areDistinct_childFields hv)
    have hothers : (ways rest).Nodup := nodup_ways ⟨hrest, hlater⟩
    have hone : (waysTo key v).Nodup := by
      rw [waysTo_eq, List.nodup_cons]
      refine ⟨?_, hchildren.map fun _ _ heq => (List.cons.inj heq).2⟩
      intro hmem
      obtain ⟨below, hmem, heq⟩ := List.mem_map.1 hmem
      obtain ⟨other, -, more, rfl⟩ := exists_key_of_mem_ways hmem
      cases heq
    -- The ways of later fields begin with other keys.
    rw [ways, List.nodup_append]
    refine ⟨hone, hothers, ?_⟩
    rintro keys hmem _ hother rfl
    obtain ⟨other, hname, more, rfl⟩ := exists_key_of_mem_ways hother
    rw [waysTo_eq] at hmem
    have hsame : other = key := by
      rcases List.mem_cons.1 hmem with heq | hmem
      · exact (List.cons.inj heq).1
      · obtain ⟨below, -, heq⟩ := List.mem_map.1 hmem
        exact (List.cons.inj heq).1.symm
    exact hkey (hsame ▸ hname)
termination_by sizeOf fields
decreasing_by
  · exact sizeOf_childFields_lt List.mem_cons_self
  · simp only [List.cons.sizeOf_spec]
    omega

/-! ### What ways spell -/

/-- The path that some keys spell: empty keys in front leave no trace, the others are joined. -/
def spelled (keys : List String) : String :=
  Path.join (keys.dropWhile (· = ""))

theorem foldl_childPath_eq_spelled (keys : List String) :
    keys.foldl childPath "" = spelled keys := by
  induction keys with
  | nil => rfl
  | cons key rest ih =>
    have hchild : childPath "" key = key := by simp [childPath]
    rw [List.foldl_cons, hchild, spelled]
    by_cases hkey : key = ""
    -- Below an empty path a key is written as if it were the outermost one.
    · rw [List.dropWhile_cons_of_pos (by simpa using hkey), hkey, ih]
      rfl
    · rw [List.dropWhile_cons_of_neg (by simpa using hkey), foldl_childPath hkey]

/-- The paths below a parent are what the ways below it add to its path. -/
theorem map_path_preorder_nodesOf (parent : String) (fields : Fields Json.Value) :
    (preorder (nodesOf parent fields)).map Node.path
      = (ways fields).map fun keys => keys.foldl childPath parent := by
  match fields with
  | [] => rfl
  | (key, v) :: rest =>
    have hbelow := map_path_preorder_nodesOf (childPath parent key) (childFields v)
    have hlater := map_path_preorder_nodesOf parent rest
    have hkeys : (waysTo key v).map (fun keys => keys.foldl childPath parent)
        = childPath parent key :: (ways (childFields v)).map fun keys =>
          keys.foldl childPath (childPath parent key) := by
      rw [waysTo_eq, List.map_cons, List.map_map]
      rfl
    rw [nodesOf, preorder, Node.preorder_eq, nodeOf_children, ways, List.map_append,
      List.map_append, List.map_cons, nodeOf_path, hbelow, hlater, hkeys]
termination_by sizeOf fields
decreasing_by
  · exact sizeOf_childFields_lt List.mem_cons_self
  · simp only [List.cons.sizeOf_spec]
    omega

/-- **The paths of a schema** are what the ways to its nodes spell. -/
theorem map_path_preorder (d : Json.Value) :
    (preorder (infer d)).map Node.path = (ways (topFields d)).map spelled := by
  rw [infer_eq, map_path_preorder_nodesOf]
  exact List.map_congr_left fun keys _ => foldl_childPath_eq_spelled keys

/-- Whether the keys of a way can be told from its spelling: none has a dot, and the outermost one
is not empty. -/
def IsDecodable (keys : List String) : Prop :=
  keys.head? ≠ some "" ∧ ∀ key ∈ keys, '.' ∉ key.toList

instance (keys : List String) : Decidable (IsDecodable keys) :=
  inferInstanceAs (Decidable (_ ∧ _))

/-- **Keys are told from their spelling** by its dots. -/
theorem splitOn_spelled {keys : List String} (h : IsDecodable keys) (hne : keys ≠ []) :
    ((spelled keys).toList.splitOn '.').map String.ofList = keys := by
  have hspelled : spelled keys = Path.join keys := by
    obtain ⟨key, rest, rfl⟩ := List.exists_cons_of_ne_nil hne
    have hkey : key ≠ "" := by simpa using h.1
    rw [spelled, List.dropWhile_cons_of_neg (by simpa using hkey)]
  have hdots : ∀ cs ∈ keys.map String.toList, '.' ∉ cs := by
    intro cs hcs
    obtain ⟨key, hkey, rfl⟩ := List.mem_map.1 hcs
    exact h.2 key hkey
  have hpieces : keys.map String.toList ≠ [] := by simpa using hne
  have hdot : ".".toList = ['.'] := rfl
  rw [hspelled, Path.join, String.toList_intercalate, hdot,
    List.splitOn_intercalate '.' hdots hpieces, List.map_map]
  refine (List.map_congr_left ?_).trans (List.map_id _)
  intro key _
  exact String.ofList_toList

/-! ### All nodes -/

/-- **When paths tell nodes apart.**  No two nodes of a schema have the same path exactly if no two
ways to nodes spell the same.  This is so if no key has a dot and no outermost key is empty. -/
theorem nodup_paths_iff {d : Json.Value} (h : d.HasDistinctNames) :
    (((preorder (infer d)).map Node.path).Nodup ↔
        ∀ keys ∈ ways (topFields d), ∀ others ∈ ways (topFields d),
          spelled keys = spelled others → keys = others) ∧
      ((∀ keys ∈ ways (topFields d), IsDecodable keys) →
        ((preorder (infer d)).map Node.path).Nodup) := by
  have hways : (ways (topFields d)).Nodup := nodup_ways (areDistinct_topFields h)
  rw [map_path_preorder, List.nodup_map_iff_inj_on hways]
  refine ⟨Iff.rfl, ?_⟩
  intro hdecodable keys hkeys others hothers hspelled
  have hne : ∀ way ∈ ways (topFields d), way ≠ [] := by
    intro way hway
    obtain ⟨key, -, rest, rfl⟩ := exists_key_of_mem_ways hway
    exact List.cons_ne_nil key rest
  rw [← splitOn_spelled (hdecodable keys hkeys) (hne keys hkeys), hspelled,
    splitOn_spelled (hdecodable others hothers) (hne others hothers)]

/-- A key with a dot, and an empty outermost key, each make a path that another node has too. -/
theorem paths_repeated :
    let dotted : Json.Value := .object [("a.b", .null), ("a", .object [("b", .null)])]
    let nameless : Json.Value := .object [("", .object [("a", .null)]), ("a", .null)]
    (dotted.HasDistinctNames ∧ ¬ ((preorder (infer dotted)).map Node.path).Nodup) ∧
      nameless.HasDistinctNames ∧ ¬ ((preorder (infer nameless)).map Node.path).Nodup := by
  intro dotted nameless
  have hdotted : dotted.HasDistinctNames := by
    simp [dotted, Json.Value.HasDistinctNames, Json.Value.EntriesHaveDistinctNames, Fields.names]
  have hnameless : nameless.HasDistinctNames := by
    simp [nameless, Json.Value.HasDistinctNames, Json.Value.EntriesHaveDistinctNames, Fields.names]
  exact ⟨⟨hdotted, by decide +kernel⟩, hnameless, by decide +kernel⟩

/-- Keys with brackets, digits and an attribute mark, an inner key that is empty, and an array of
objects that is the whole document. -/
theorem nodup_paths_of_decodable :
    let d : Json.Value := .array [.object [("a[", .array [.object [("", .null), ("@_0]", .null)]]),
      ("0", .object [("a[", .null)])], .null]
    d.HasDistinctNames ∧ (∀ keys ∈ ways (topFields d), IsDecodable keys) ∧
      ((preorder (infer d)).map Node.path).Nodup := by
  intro d
  have hdistinct : d.HasDistinctNames := by
    simp [d, Json.Value.HasDistinctNames, Json.Value.AllHaveDistinctNames,
      Json.Value.EntriesHaveDistinctNames, Fields.names]
  have hways : ∀ keys ∈ ways (topFields d), IsDecodable keys := by decide +kernel
  exact ⟨hdistinct, hways, (nodup_paths_iff hdistinct).2 hways⟩

end Crosswalk.Schema
