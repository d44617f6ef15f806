import Crosswalk.Schema.Listing
import Mathlib.Data.List.Pairwise

/-!
# Visits of schema trees

A node is told by its place: the number of its tree, then, level by level, the number of the child
that leads to it.  Places are ordered like words, so a place comes before all places below it, and
everything below a child before the next child.  This is the order of a visit, and the order of the
lines in a listing.

* `mem_places_iff`, `pairwise_places` : every node has its place, and places are in order.
* `preorder_eq_places` : the recursive traversal has the nodes at these places.
* `listing_eq_join` : so has a listing, with as much space in front as there are nodes above.
* `visits_agree` : a visit with a list of trees to come, the recursive traversal and the listing.
-/

namespace Crosswalk.Schema

/-! ### Places -/

/-- A place in some trees: the numbers of the siblings that lead to it. -/
abbrev Place : Type := List Nat

/-- The node at a place, as seen from a node above it. -/
def Node.at? : Place → Node → Option Node
  | [], n => some n
  | i :: rest, n => n.children[i]?.bind (Node.at? rest)

/-- The node at a place in some trees.  No node is at the place without numbers. -/
def nodeAt? : Place → List Node → Option Node
  | [], _ => none
  | i :: rest, nodes => nodes[i]?.bind (Node.at? rest)

/-- How many nodes stand above a place. -/
def nodesAbove (place : Place) : Nat :=
  place.length - 1

mutual

/-- The places of a node and of all nodes below it, as seen from that node. -/
def Node.placesBelow : Node → List Place
  | ⟨_, _, _, children, _⟩ => [] :: placesFrom 0 children

/-- The places of all nodes of some trees that are counted from a number on. -/
def placesFrom (i : Nat) : List Node → List Place
  | [] => []
  | n :: rest => n.placesBelow.map (i :: ·) ++ placesFrom (i + 1) rest

end

/-- The places of all nodes of some trees. -/
def places (nodes : List Node) : List Place :=
  placesFrom 0 nodes

theorem Node.placesBelow_eq (n : Node) : n.placesBelow = [] :: places n.children := by
  cases n
  rw [Node.placesBelow, places]

/-- A place leads to one of the trees first, and on from there. -/
theorem mem_placesFrom_iff {i : Nat} {nodes : List Node} {place : Place} :
    place ∈ placesFrom i nodes ↔
      ∃ j rest n, place = (i + j) :: rest ∧ nodes[j]? = some n ∧ rest ∈ n.placesBelow := by
  induction nodes generalizing i with
  | nil => simp [placesFrom]
  | cons n nodes ih =>
    rw [placesFrom, List.mem_append, ih]
    constructor
    · rintro (hfirst | ⟨j, rest, m, rfl, hm, hrest⟩)
      · obtain ⟨rest, hrest, rfl⟩ := List.mem_map.1 hfirst
        exact ⟨0, rest, n, rfl, rfl, hrest⟩
      · exact ⟨j + 1, rest, m, by rw [Nat.add_assoc, Nat.add_comm 1 j], hm, hrest⟩
    · rintro ⟨j, rest, m, rfl, hm, hrest⟩
      cases j with
      | zero =>
        obtain rfl : n = m := Option.some.inj hm
        exact Or.inl (List.mem_map.2 ⟨rest, hrest, rfl⟩)
      | succ j =>
        exact Or.inr ⟨j, rest, m, by rw [Nat.add_assoc, Nat.add_comm 1 j], hm, hrest⟩

theorem cons_mem_places_iff {i : Nat} {rest : Place} {nodes : List Node} :
    i :: rest ∈ places nodes ↔ ∃ n, nodes[i]? = some n ∧ rest ∈ n.placesBelow := by
  rw [places, mem_placesFrom_iff]
  constructor
  · rintro ⟨j, _, n, heq, hn, hrest⟩
    obtain ⟨rfl, rfl⟩ := List.cons.inj heq
    exact ⟨n, by rwa [Nat.zero_add], hrest⟩
  · rintro ⟨n, hn, hrest⟩
    exact ⟨i, rest, n, by rw [Nat.zero_add], hn, hrest⟩

/-- The places below a node are those that lead to one. -/
theorem Node.mem_placesBelow_iff {n : Node} {place : Place} :
    place ∈ n.placesBelow ↔ ∃ m, n.at? place = some m := by
  induction place generalizing n with
  | nil => simp [Node.placesBelow_eq, Node.at?]
  | cons i rest ih =>
    rw [Node.placesBelow_eq, List.mem_cons, cons_mem_places_iff]
    simp only [reduceCtorEq, false_or, Node.at?, Option.bind_eq_some_iff, ih]
    exact ⟨fun ⟨child, hchild, m, hm⟩ => ⟨m, child, hchild, hm⟩,
      fun ⟨m, child, hchild, hm⟩ => ⟨child, hchild, m, hm⟩⟩

/-- **The places of some trees** are those that lead to a node. -/
theorem mem_places_iff {nodes : List Node} {place : Place} :
    place ∈ places nodes ↔ ∃ n, nodeAt? place nodes = some n := by
  cases place with
  | nil =>
    have hnone : ([] : Place) ∉ places nodes := by
      intro hmem
      obtain ⟨j, rest, n, hplace, -⟩ := mem_placesFrom_iff.1 hmem
      cases hplace
    simp [nodeAt?, hnone]
  | cons i rest =>
    rw [cons_mem_places_iff]
    simp only [nodeAt?, Option.bind_eq_some_iff, Node.mem_placesBelow_iff]
    exact ⟨fun ⟨n, hn, m, hm⟩ => ⟨m, n, hn, hm⟩, fun ⟨m, n, hn, hm⟩ => ⟨n, hn, m, hm⟩⟩

/-! ### The order of places -/

mutual

theorem Node.pairwise_placesBelow (n : Node) : n.placesBelow.Pairwise (· < ·) := by
  match n with
  | ⟨name, path, kind, children, isAttribute⟩ =>
    rw [Node.placesBelow, List.pairwise_cons]
    refine ⟨fun place hplace => ?_, pairwise_placesFrom 0 children⟩
    obtain ⟨j, rest, -, rfl, -⟩ := mem_placesFrom_iff.1 hplace
    exact List.nil_lt_cons _ rest

/-- **The places of some trees** are in order. -/
theorem pairwise_placesFrom (i : Nat) (nodes : List Node) :
    (placesFrom i nodes).Pairwise (· < ·) := by
  match nodes with
  | [] => exact List.Pairwise.nil
  | n :: rest =>
    rw [placesFrom, List.pairwise_append]
    refine ⟨?_, pairwise_placesFrom (i + 1) rest, ?_⟩
    · rw [List.pairwise_map]
      exact n.pairwise_placesBelow.imp fun hlt => List.cons_lt_cons_iff.2 (Or.inr ⟨rfl, hlt⟩)
    · intro first hfirst later hlater
      obtain ⟨below, -, rfl⟩ := List.mem_map.1 hfirst
      obtain ⟨j, others, -, rfl, -⟩ := mem_placesFrom_iff.1 hlater
      exact List.cons_lt_cons_iff.2 (Or.inl (by omega))

end

/-! ### What stands at the places -/

mutual

/-- A node and the nodes below it stand at their places. -/
theorem Node.preorder_eq_places (n : Node) :
    n.preorder.map some = n.placesBelow.map (n.at? ·) := by
  match n with
  | ⟨name, path, kind, children, isAttribute⟩ =>
    have hbelow := preorder_eq_placesFrom [] children
    rw [Node.preorder, Node.placesBelow, List.map_cons, List.map_cons, hbelow]
    refine congrArg (_ :: ·) (List.map_congr_left fun place hplace => ?_)
    obtain ⟨j, rest, -, rfl, -⟩ := mem_placesFrom_iff.1 hplace
    rfl

/-- The nodes of trees that stand behind others. -/
theorem preorder_eq_placesFrom (before nodes : List Node) :
    (preorder nodes).map some
      = (placesFrom before.length nodes).map (nodeAt? · (before ++ nodes)) := by
  match nodes with
  | [] => rfl
  | n :: rest =>
    have hfirst := n.preorder_eq_places
    have hrest := preorder_eq_placesFrom (before ++ [n]) rest
    rw [List.length_append, List.append_assoc] at hrest
    rw [preorder, placesFrom, List.map_append, List.map_append, List.map_map, hfirst, hrest]
    refine congrArg (· ++ _) (List.map_congr_left fun place _ => ?_)
    simp [nodeAt?]

end

/-- **The recursive traversal** has the nodes at the places, in the order of the places. -/
theorem preorder_eq_places (nodes : List Node) :
    (preorder nodes).map some = (places nodes).map (nodeAt? · nodes) :=
  preorder_eq_placesFrom [] nodes

/-! ### Listings -/

/-- The space in front of a line: two spaces for each node above. -/
def indentation (level : Nat) : String :=
  String.join (List.replicate level "  ")

theorem Node.line_eq (level : Nat) (n : Node) :
    n.line level = indentation level ++ n.line 0 := by
  have hspaces : ∀ k, String.ofList (List.replicate (2 * k) ' ') = indentation k := by
    intro k
    induction k with
    | zero => rfl
    | succ k ih =>
      rw [indentation, List.replicate_succ, String.join_cons, ← indentation, ← ih]
      apply String.toList_injective
      simp [Nat.mul_succ, List.replicate_succ]
  rw [Node.line, Node.line, hspaces, hspaces]
  simp [indentation, String.append_assoc]

mutual

/-- The listing of a node has a line for each node below it, further in by the length of its
place. -/
theorem Node.listing_eq_join (n : Node) (level : Nat) :
    n.listing level
      = String.join
          (List.zipWith (fun place m => Node.line (level + place.length) m) n.placesBelow
            n.preorder) := by
  match n with
  | ⟨name, path, kind, children, isAttribute⟩ =>
    have hbelow := listing_eq_join_from 0 children (level + 1)
    rw [Node.listing, hbelow, Node.placesBelow, Node.preorder, List.zipWith_cons_cons,
      String.join_cons]
    simp [Nat.add_right_comm]

theorem listing_eq_join_from (i : Nat) (nodes : List Node) (level : Nat) :
    listing level nodes
      = String.join
          (List.zipWith (fun place m => Node.line (level + place.length - 1) m)
            (placesFrom i nodes) (preorder nodes)) := by
  match nodes with
  | [] => rfl
  | n :: rest =>
    have hfirst := n.listing_eq_join level
    have hrest := listing_eq_join_from (i + 1) rest level
    have hlength : (n.placesBelow.map (i :: ·)).length = n.preorder.length := by
      have hsame := congrArg List.length n.preorder_eq_places
      simpa using hsame.symm
    rw [listing, hfirst, hrest, placesFrom, preorder, List.zipWith_append hlength,
      List.zipWith_map_left, String.join_append]
    rfl

end

/-- **A listing** has a line for each node, in the order of the places, with two spaces in front for
each node above. -/
theorem listing_eq_join (nodes : List Node) :
    listing 0 nodes
      = String.join
          (List.zipWith (fun place n => indentation (nodesAbove place) ++ n.line 0) (places nodes)
            (preorder nodes)) := by
  have hline : ∀ place n,
      Node.line (0 + place.length - 1) n = indentation (nodesAbove place) ++ n.line 0 := by
    intro place n
    rw [Nat.zero_add]
    exact n.line_eq _
  rw [listing_eq_join_from 0 nodes 0]
  simp only [hline, places]

/-- **All visits agree.**  A visit that keeps a list of the trees to come has the order of the
recursive traversal.  Its nodes are those at all places in the trees, each place once and in the
order of places: a node before those below it, and siblings from left to right.  A listing has the
lines of these nodes one after the other, each with two spaces in front for every node above. -/
theorem visits_agree (nodes : List Node) :
    walk nodes = preorder nodes ∧
      (places nodes).Pairwise (· < ·) ∧
      (∀ place, place ∈ places nodes ↔ ∃ n, nodeAt? place nodes = some n) ∧
      (walk nodes).map some = (places nodes).map (nodeAt? · nodes) ∧
      listing 0 nodes
        = String.join
            (List.zipWith (fun place n => indentation (nodesAbove place) ++ n.line 0) (places nodes)
              (walk nodes)) := by
  rw [walk_eq_preorder]
  exact ⟨rfl, pairwise_placesFrom 0 nodes, fun _ => mem_places_iff, preorder_eq_places nodes,
    listing_eq_join nodes⟩

end Crosswalk.Schema
