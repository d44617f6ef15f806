import Crosswalk.Proofs.Path.Splicing
import Crosswalk.Schema.Lookup

/-!
# Finding a node by a path with a filter

What leads through a schema are the bare names of the pieces of a path.  A filter that is added to
the path changes none of them, so the path leads where it led before.

* `find?_congr` : paths with the same bare names lead to the same node.
* `find?_splice` : adding a filter does not change where a path leads.
-/

namespace Crosswalk.Schema

/-- Only the bare names of the pieces count on the way down. -/
theorem descend_congr (reached : String) (nodes : List Node) {ps qs : List String}
    (h : ps.map Path.bareName = qs.map Path.bareName) :
    descend reached nodes ps = descend reached nodes qs := by
  induction ps generalizing reached nodes qs with
  | nil =>
    obtain rfl : qs = [] := by simpa using h.symm
    rfl
  | cons p ps ih =>
    cases qs with
    | nil => simp at h
    | cons q qs =>
      rw [List.map_cons, List.map_cons, List.cons.injEq] at h
      rw [descend, descend, h.1]
      cases nodes.find? (fun n => n.path == childPath reached (Path.bareName q)) with
      | none => rfl
      | some n => exact congrArg (Option.map (n :: ·)) (ih _ _ h.2)

/-- Paths with the same bare names lead to the same node. -/
theorem find?_congr (nodes : List Node) {p q : String}
    (h : (Path.split p).map Path.bareName = (Path.split q).map Path.bareName) :
    find? nodes p = find? nodes q := by
  have hway : ancestry nodes p = ancestry nodes q := by
    unfold ancestry
    cases hp : Path.split p with
    | nil =>
      rw [hp] at h
      have hq : Path.split q = [] := by simpa using h.symm
      rw [hq]
    | cons first rest =>
      cases hq : Path.split q with
      | nil => simp [hp, hq] at h
      | cons other others =>
        rw [hp, hq] at h
        exact descend_congr "" nodes h
  rw [find?, find?, hway]

/-- **Adding a filter** whose brackets match does not change where a path leads. -/
theorem find?_splice (nodes : List Node) {path filterText : String}
    (h : ∀ filter, Filter.read filterText = .ok filter → filter.IsBalanced) :
    find? nodes (Path.splice path filterText).1 = find? nodes path := by
  cases hread : Filter.read filterText with
  | error fault =>
    have hsame : (Path.splice path filterText).1 = path := by
      unfold Path.splice
      split
      · rfl
      · rw [Path.readFilter, hread]
    rw [hsame]
  | ok filter =>
    have hdiffers := @Path.split_splice path filterText filter hread (h filter hread)
    rcases hdiffers with hsame | ⟨before, piece, after, htarget, -, hsplit⟩
    · rw [hsame]
    · apply find?_congr
      rw [hsplit, ← Path.target?_append htarget]
      simp [Path.bareName_filtered]

end Crosswalk.Schema
