import Crosswalk.Proofs.Path.Printing
import Crosswalk.Proofs.Schema.Ancestry
import Crosswalk.Proofs.Schema.Finding
import Crosswalk.Proofs.Schema.Paths

/-!
# Lookups agree with the tree

A lookup goes down a schema by a path, and finds a child by the path that leads to it so far.  No two
children of a node have the same path, and the pieces of a path are the keys that it was made of, so
the lookup for the path of a node passes the nodes that stand above it.  Texts in brackets after a
piece do not count.  What a lookup finds, it finds by the bare names of the path.

* `Stands` : a node with the nodes that stand above it and those that stand beside it.
* `Decorates` : a piece with texts in brackets after it.
* `Stands.descend` : the keys of a node pass the nodes above it.
* `path_of_descend` : what is found has the path that the bare names make.
* `lookups_agree` : where the path of a node leads, and what else is asked about it.
-/

namespace Crosswalk

/-! ### Keys of documents -/

namespace Json.Value

mutual

/-- The keys of all objects in a value. -/
def keys : Value → List String
  | array items => keysOfAll items
  | object fields => keysOfEntries fields
  | _ => []

/-- The keys of all objects in some values. -/
def keysOfAll : List Value → List String
  | [] => []
  | v :: rest => v.keys ++ keysOfAll rest

/-- The keys of some fields and of all objects in their entries. -/
def keysOfEntries : List (String × Value) → List String
  | [] => []
  | (key, v) :: rest => key :: (v.keys ++ keysOfEntries rest)

end

theorem mem_keysOfAll {key : String} {items : List Value} :
    key ∈ keysOfAll items ↔ ∃ v ∈ items, key ∈ v.keys := by
  induction items with
  | nil => simp [keysOfAll]
  | cons v rest ih => simp [keysOfAll, ih]

theorem mem_keysOfEntries {key : String} {fields : Fields Value} :
    key ∈ keysOfEntries fields ↔ ∃ f ∈ fields, key = f.1 ∨ key ∈ f.2.keys := by
  induction fields with
  | nil => simp [keysOfEntries]
  | cons f rest ih => simp [keysOfEntries, ih, or_assoc]

end Json.Value

/-! ### Texts in brackets after a piece -/

namespace Path

/-- `Decorates name piece` : the piece is the name with any number of texts in brackets after it,
the brackets in each of which match. -/
inductive Decorates (name : String) : String → Prop
  | bare : Decorates name name
  | bracketed {piece inner : String} (h : Decorates name piece) (hinner : AreMatched inner.toList) :
      Decorates name (piece ++ "[" ++ inner ++ "]")

/-- Plain pieces are their own names. -/
theorem map_bareName_of_plain {names : List String} (h : ∀ name ∈ names, IsPlainPiece name) :
    names.map bareName = names :=
  (List.map_congr_left fun name hname => bareName_of_no_opening (h name hname).2.2).trans
    (List.map_id names)

theorem Decorates.bareName_eq {name piece : String} (h : Decorates name piece)
    (hname : IsPlainPiece name) : bareName piece = name := by
  induction h with
  | bare => exact bareName_of_no_opening hname.2.2
  | bracketed _ _ ih => rw [bareName_bracketed, ih]

/-- A decorated name can be a piece wherever it stands. -/
theorem Decorates.isPiece {name piece : String} (h : Decorates name piece)
    (hname : IsPlainPiece name) :
    piece.toList ≠ [] ∧ IsWhole 0 piece.toList ∧ IsClosed piece.toList := by
  induction h with
  | bare =>
    obtain ⟨hne, hdot, hopen⟩ := hname
    exact ⟨by simpa using hne, isWhole_of_no_dot hdot 0, isClosed_of_no_opening hopen⟩
  | @bracketed piece inner _ hinner ih =>
    obtain ⟨-, hwhole, hclosed⟩ := ih
    have hbalanced : balancedFrom 0 inner.toList = true := isBalanced_iff.2 hinner
    obtain ⟨hinside, hdepth⟩ := isWhole_of_balancedFrom hbalanced
    have hchars : (piece ++ "[" ++ inner ++ "]").toList
        = piece.toList ++ '[' :: (inner.toList ++ [']']) := by
      simp
    rw [hchars]
    exact ⟨by simp, isWhole_bracketed hwhole hclosed hinside hdepth⟩

/-- **Decorated names** are read again from their join, and only the names count. -/
theorem split_join_decorated {names pieces : List String} (h : List.Forall₂ Decorates names pieces)
    (hnames : ∀ name ∈ names, IsPlainPiece name) :
    split (join pieces) = pieces ∧ pieces.map bareName = names := by
  have hall : Divided (pieces.map String.toList) ∧ (∀ p ∈ pieces, p.toList ≠ []) ∧
      pieces.map bareName = names := by
    induction h with
    | nil => exact ⟨trivial, by simp, rfl⟩
    | @cons name piece names pieces hfirst _ ih =>
      obtain ⟨hname, hlater⟩ := List.forall_mem_cons.1 hnames
      obtain ⟨hdivided, hne, hbare⟩ := ih hlater
      obtain ⟨hfirstNe, hwhole, hclosed⟩ := hfirst.isPiece hname
      refine ⟨⟨hwhole, fun _ => hclosed, hdivided⟩, List.forall_mem_cons.2 ⟨hfirstNe, hne⟩, ?_⟩
      rw [List.map_cons, hfirst.bareName_eq hname, hbare]
  exact ⟨split_join hall.1 hall.2.1, hall.2.2⟩

end Path

namespace Schema

/-! ### Places of nodes -/

/-- `Stands nodes above beside n` : among some trees the node `n` stands below the nodes `above`,
outermost first, and `beside` are its siblings with itself among them. -/
inductive Stands : List Node → List Node → List Node → Node → Prop
  | here {nodes : List Node} {n : Node} (h : n ∈ nodes) : Stands nodes [] nodes n
  | inside {nodes above beside : List Node} {p n : Node} (hp : p ∈ nodes)
      (h : Stands p.children above beside n) : Stands nodes (p :: above) beside n

/-- The siblings of a node are the children of the last node above it. -/
theorem Stands.beside_eq {nodes above beside : List Node} {n : Node}
    (h : Stands nodes above beside n) :
    beside = match above.getLast? with
      | some p => p.children
      | none => nodes := by
  induction h with
  | here => rfl
  | @inside nodes above beside p n _ _ ih =>
    cases above with
    | nil => exact ih
    | cons q above => rw [List.getLast?_cons_cons]; exact ih

/-! ### Documents that can be navigated -/

/-- Whether some fields can be told apart by paths, and so can all fields below them: keys beside
each other are different, and each can be a piece of its own. -/
structure AreNavigable (fields : Fields Json.Value) : Prop where
  distinct : AreDistinct fields
  plain : ∀ key ∈ Json.Value.keysOfEntries fields, Path.IsPlainPiece key

namespace AreNavigable

variable {fields : Fields Json.Value} {f : String × Json.Value}

theorem key (h : AreNavigable fields) (hf : f ∈ fields) : Path.IsPlainPiece f.1 :=
  h.plain f.1 (Json.Value.mem_keysOfEntries.2 ⟨f, hf, Or.inl rfl⟩)

theorem mem_keys_of_childFields {key : String} {v : Json.Value}
    (h : key ∈ Json.Value.keysOfEntries (childFields v)) : key ∈ v.keys := by
  unfold childFields at h
  split at h
  · exact h
  · exact Json.Value.mem_keysOfAll.2 ⟨_, List.mem_cons_self, h⟩
  · cases h

/-- The fields below can be told apart too. -/
theorem childFields (h : AreNavigable fields) (hf : f ∈ fields) :
    AreNavigable (Schema.childFields f.2) where
  distinct := areDistinct_childFields (h.distinct.2 f hf)
  plain key hkey :=
    h.plain key (Json.Value.mem_keysOfEntries.2 ⟨f, hf, Or.inr (mem_keys_of_childFields hkey)⟩)

/-- The items of an array that is the whole document are told apart by their numbers. -/
theorem topFields {d : Json.Value} (h : d.HasDistinctNames)
    (hkeys : ∀ key ∈ d.keys, Path.IsPlainPiece key) : AreNavigable (Schema.topFields d) := by
  refine ⟨areDistinct_topFields h, ?_⟩
  cases d with
  | object fields => exact hkeys
  | array items =>
    intro key hkey
    obtain ⟨f, hf, hown | hbelow⟩ := Json.Value.mem_keysOfEntries.1 hkey
    · obtain ⟨⟨v, i⟩, -, rfl⟩ := List.mem_map.1 hf
      rw [hown]
      exact Path.isPlainPiece_toString i
    · obtain ⟨⟨v, i⟩, hmem, rfl⟩ := List.mem_map.1 hf
      have hv : v ∈ items := List.mem_of_getElem? (List.mem_zipIdx_iff_getElem?.1 hmem)
      exact hkeys key (Json.Value.mem_keysOfAll.2 ⟨v, hv, hbelow⟩)
  | _ => exact fun key hkey => nomatch hkey

/-- The keys that a node comes from can be pieces. -/
theorem keys_plain {parent : String} {keys : List String} {n : Node} {v : Json.Value}
    (h : AreNavigable fields) (horigin : Origin parent fields keys n v) :
    ∀ key ∈ keys, Path.IsPlainPiece key := by
  induction horigin with
  | here hfield =>
    intro key hkey
    rw [List.mem_singleton.1 hkey]
    exact h.key hfield
  | inside hfield _ ih => exact List.forall_mem_cons.2 ⟨h.key hfield, ih (h.childFields hfield)⟩

end AreNavigable

/-! ### The way down -/

/-- Every node of a schema stands somewhere. -/
theorem Origin.exists_stands {parent : String} {fields : Fields Json.Value} {keys : List String}
    {n : Node} {v : Json.Value} (h : Origin parent fields keys n v) :
    ∃ above beside, Stands (nodesOf parent fields) above beside n := by
  induction h with
  | here hfield => exact ⟨_, _, .here (mem_nodesOf.2 ⟨_, hfield, rfl⟩)⟩
  | @inside parent key fields keys n v w hfield _ ih =>
    obtain ⟨above, beside, hstands⟩ := ih
    rw [← nodeOf_children] at hstands
    exact ⟨_, _, .inside (mem_nodesOf.2 ⟨_, hfield, rfl⟩) hstands⟩

/-- **The keys of a node** lead to it by way of the nodes above it. -/
theorem Stands.descend {parent : String} {fields : Fields Json.Value} {above beside : List Node}
    {n : Node} (h : Stands (nodesOf parent fields) above beside n) (hfields : AreNavigable fields) :
    ∃ keys v, Origin parent fields keys n v ∧
      Schema.descend parent (nodesOf parent fields) keys = some (above ++ [n]) := by
  generalize hnodes : nodesOf parent fields = nodes at h
  induction h generalizing parent fields with
  | here hn =>
    rw [← hnodes] at hn
    obtain ⟨⟨key, v⟩, hfield, rfl⟩ := mem_nodesOf.1 hn
    have hkey : Path.bareName key = key :=
      Path.bareName_of_no_opening (hfields.key hfield).2.2
    refine ⟨[key], v, .here hfield, ?_⟩
    rw [← hnodes, Schema.descend, hkey, find?_nodesOf parent hfields.distinct.1 hfield]
    rfl
  | @inside nodes above beside p n hp _ ih =>
    rw [← hnodes] at hp
    obtain ⟨⟨key, w⟩, hfield, rfl⟩ := mem_nodesOf.1 hp
    have hkey : Path.bareName key = key :=
      Path.bareName_of_no_opening (hfields.key hfield).2.2
    obtain ⟨keys, v, horigin, hbelow⟩ :=
      ih (hfields.childFields hfield) (nodeOf_children parent key w).symm
    have hway : Schema.descend (childPath parent key) (nodeOf parent key w).children keys
        = some (above ++ [n]) := hbelow
    refine ⟨key :: keys, v, .inside hfield horigin, ?_⟩
    rw [← hnodes, Schema.descend, hkey, find?_nodesOf parent hfields.distinct.1 hfield]
    simp only [hway, Option.map_some, List.cons_append]

/-- What is asked about a path that passes the nodes above a node: whether it leads to that node,
whether it passes an array, and which attributes stand beside its end. -/
structure LeadsTo (nodes : List Node) (path : String) (above beside : List Node) (n : Node) :
    Prop where
  found : find? nodes path = some n
  in_array : isInArray nodes path = true ↔ ∃ p ∈ above, p.kind = .array
  suggested : suggestions nodes path = (beside.filter Node.isAttribute).map Node.name

/-- A path whose bare names pass the nodes above a node leads to that node. -/
theorem Stands.leadsTo {nodes above beside : List Node} {n : Node} {keys : List String}
    {path : String} (h : Stands nodes above beside n)
    (hway : Schema.descend "" nodes keys = some (above ++ [n]))
    (hbare : (Path.split path).map Path.bareName = keys.map Path.bareName) :
    LeadsTo nodes path above beside n := by
  have hpieces : Path.split path ≠ [] := by
    intro hnone
    have hlength := descend_length hway
    have hkeys : keys = [] := by simpa [hnone] using hbare.symm
    simp [hkeys] at hlength
  have hancestry : ancestry nodes path = some (above ++ [n]) := by
    rw [ancestry]
    split
    · rename_i hnone
      exact absurd hnone hpieces
    · rw [descend_congr "" nodes hbare, hway]
  refine ⟨?_, ?_, ?_⟩
  · rw [find?, hancestry]
    simp
  · simp [isInArray, hancestry]
  · rw [suggestions, hancestry, h.beside_eq]
    simp only [List.dropLast_concat, attributeNames]
    cases above.getLast? <;> rfl

/-! ### What is found -/

/-- A way begins at one of the outermost trees, under the bare name of the first piece, and goes on
below it. -/
theorem exists_of_descend_cons {reached piece : String} {nodes chain : List Node}
    {rest : List String} (h : descend reached nodes (piece :: rest) = some chain) :
    ∃ m below, m ∈ nodes ∧ m.path = childPath reached (Path.bareName piece) ∧
      descend m.path m.children rest = some below ∧ chain = m :: below := by
  rw [descend] at h
  split at h
  · cases h
  · rename_i m hfound
    obtain ⟨below, hbelow, rfl⟩ := Option.map_eq_some_iff.1 h
    have hpath : m.path = childPath reached (Path.bareName piece) := by
      simpa using List.find?_some hfound
    exact ⟨m, below, List.mem_of_find?_eq_some hfound, hpath, hpath ▸ hbelow, rfl⟩

/-- What is found has the path that the bare names make. -/
theorem path_of_descend {reached : String} {nodes chain : List Node} {pieces : List String}
    {n : Node} (h : descend reached nodes pieces = some chain) (hlast : chain.getLast? = some n) :
    n.path = (pieces.map Path.bareName).foldl childPath reached := by
  induction pieces generalizing reached nodes chain with
  | nil =>
    cases h
    cases hlast
  | cons piece rest ih =>
    obtain ⟨m, below, -, hpath, hbelow, rfl⟩ := exists_of_descend_cons h
    rw [List.map_cons, List.foldl_cons, ← hpath]
    cases below with
    | nil =>
      obtain rfl : rest = [] := by simpa using (descend_length hbelow).symm
      cases hlast
      rfl
    | cons next below =>
      rw [List.getLast?_cons_cons] at hlast
      exact ih hbelow hlast

theorem mem_preorder_iff {nodes : List Node} {n : Node} :
    n ∈ preorder nodes ↔ ∃ m ∈ nodes, n ∈ m.preorder := by
  induction nodes with
  | nil => simp [preorder]
  | cons m rest ih => simp [preorder, ih]

/-- What is passed stands in the schema. -/
theorem mem_preorder_of_descend {reached : String} {nodes chain : List Node} {pieces : List String}
    (h : descend reached nodes pieces = some chain) : ∀ n ∈ chain, n ∈ preorder nodes := by
  induction pieces generalizing reached nodes chain with
  | nil =>
    cases h
    simp
  | cons piece rest ih =>
    obtain ⟨m, below, hm, -, hbelow, rfl⟩ := exists_of_descend_cons h
    intro n hn
    refine mem_preorder_iff.2 ⟨m, hm, ?_⟩
    rw [Node.preorder_eq]
    rcases List.mem_cons.1 hn with rfl | hlater
    · exact List.mem_cons_self
    · exact List.mem_cons_of_mem m (ih hbelow n hlater)

/-- **What a lookup finds**, it finds under the path that the bare names of the given one make. -/
theorem of_find? {fields : Fields Json.Value} {path : String} {n : Node}
    (hfields : AreNavigable fields) (h : find? (nodesOf "" fields) path = some n) :
    n ∈ preorder (nodesOf "" fields) ∧
      n.path = Path.join ((Path.split path).map Path.bareName) := by
  obtain ⟨chain, hancestry, hlast⟩ := Option.bind_eq_some_iff.1 h
  rw [ancestry] at hancestry
  split at hancestry
  · cases hancestry
  · rename_i hsplit
    obtain ⟨piece, rest, hpieces⟩ := List.exists_cons_of_ne_nil hsplit
    refine ⟨mem_preorder_of_descend hancestry n (List.mem_of_getLast? hlast), ?_⟩
    rw [path_of_descend hancestry hlast]
    rw [hpieces] at hancestry ⊢
    -- The first name is a key, so it is not empty.
    obtain ⟨m, -, hm, hpath, -⟩ := exists_of_descend_cons hancestry
    obtain ⟨⟨key, v⟩, hfield, rfl⟩ := mem_nodesOf.1 hm
    rw [nodeOf_path] at hpath
    have hname : key = Path.bareName piece := childPath_injective hpath
    have hfirst : Path.bareName piece ≠ "" := hname ▸ (hfields.key hfield).1
    have hroot : childPath "" (Path.bareName piece) = Path.bareName piece := by simp [childPath]
    rw [List.map_cons, List.foldl_cons, hroot, foldl_childPath hfirst]

/-! ### All lookups -/

/-- **Lookups agree with the tree**, if every key of the document can be a piece.  A node stands below
some nodes and beside others.  Its path leads to it, and so does every path that its own becomes by
texts in brackets after its pieces; such a path passes an array if one of the nodes above it is one,
and what a filter can ask for are the attributes beside it.  No other path leads to a node than one
whose bare names make the path of that node. -/
theorem lookups_agree {d : Json.Value} (h : d.HasDistinctNames)
    (hkeys : ∀ key ∈ d.keys, Path.IsPlainPiece key) :
    (∀ n, n ∈ preorder (infer d) ↔ ∃ above beside, Stands (infer d) above beside n) ∧
      (∀ above beside n, Stands (infer d) above beside n →
        LeadsTo (infer d) n.path above beside n ∧
        ∀ pieces, List.Forall₂ Path.Decorates (Path.split n.path) pieces →
          LeadsTo (infer d) (Path.join pieces) above beside n) ∧
      ∀ path n, find? (infer d) path = some n →
        n ∈ preorder (infer d) ∧ n.path = Path.join ((Path.split path).map Path.bareName) := by
  have hfields : AreNavigable (topFields d) := .topFields h hkeys
  rw [infer_eq]
  refine ⟨fun n => ⟨fun hn => ?_, ?_⟩, fun above beside n hstands => ?_,
    fun path n hfound => of_find? hfields hfound⟩
  · obtain ⟨keys, v, horigin⟩ := mem_preorder_nodesOf.1 hn
    exact horigin.exists_stands
  · rintro ⟨above, beside, hstands⟩
    obtain ⟨keys, v, horigin, -⟩ := hstands.descend hfields
    exact mem_preorder_nodesOf.2 ⟨keys, v, horigin⟩
  · obtain ⟨keys, v, horigin, hway⟩ := hstands.descend hfields
    have hplain : ∀ key ∈ keys, Path.IsPlainPiece key := hfields.keys_plain horigin
    have hsplit : Path.split n.path = keys := horigin.split_path hplain
    refine ⟨hstands.leadsTo hway (by rw [hsplit]), fun pieces hpieces => hstands.leadsTo hway ?_⟩
    rw [hsplit] at hpieces
    obtain ⟨hpiecesSplit, hbare⟩ := Path.split_join_decorated hpieces hplain
    rw [hpiecesSplit, hbare, Path.map_bareName_of_plain hplain]

/-- An attribute in the first item of a list, inside of an array that is the whole document, by a path
with a text in brackets that has brackets and a dot of its own. -/
theorem lookups_agree_in_array :
    let d : Json.Value := .array
      [.object [("list", .array [.object [("@_id", .null), ("b", .null)]])]]
    let path := "0.list[a.b[c]].@_id"
    d.HasDistinctNames ∧ (∀ key ∈ d.keys, Path.IsPlainPiece key) ∧
      (∃ n, n.path = "0.list.@_id" ∧ find? (infer d) path = some n) ∧
      isInArray (infer d) path = true ∧ suggestions (infer d) path = ["id"] := by
  intro d path
  have hdistinct : d.HasDistinctNames := by
    simp [d, Json.Value.HasDistinctNames, Json.Value.AllHaveDistinctNames,
      Json.Value.EntriesHaveDistinctNames, Fields.names]
  have hkeys : ∀ key ∈ d.keys, Path.IsPlainPiece key := by decide +kernel
  let id : Node := ⟨"id", "0.list.@_id", .string, [], true⟩
  let b : Node := ⟨"b", "0.list.b", .string, [], false⟩
  let list : Node := ⟨"list", "0.list", .array, [id, b], false⟩
  let item : Node := ⟨"0", "0", .object, [list], false⟩
  have hinfer : infer d = [item] := by
    rfl
  have hstands : Stands (infer d) [item, list] [id, b] id := by
    rw [hinfer]
    exact .inside List.mem_cons_self (.inside List.mem_cons_self (.here List.mem_cons_self))
  have hpieces :
      List.Forall₂ Path.Decorates (Path.split id.path) ["0", "list[a.b[c]]", "@_id"] := by
    have hsplit : Path.split id.path = ["0", "list", "@_id"] := by decide +kernel
    have hinner : Path.AreMatched "a.b[c]".toList := Path.isBalanced_iff.1 (by decide)
    rw [hsplit]
    exact .cons .bare (.cons (.bracketed .bare hinner) (.cons .bare .nil))
  obtain ⟨hfound, hinside, hsuggested⟩ :=
    ((lookups_agree hdistinct hkeys).2.1 _ _ id hstands).2 _ hpieces
  obtain ⟨-, hpath⟩ := (lookups_agree hdistinct hkeys).2.2 _ id hfound
  exact ⟨hdistinct, hkeys, ⟨id, hpath.trans (by decide +kernel), hfound⟩,
    hinside.2 ⟨list, by simp, rfl⟩, hsuggested.trans rfl⟩

end Schema

end Crosswalk
