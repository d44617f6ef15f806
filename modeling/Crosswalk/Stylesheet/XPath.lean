import Crosswalk.Path.Segment

/-!
# Location paths

A field path selects the same node when it is written as a location path: every element is a step
with the qualifier of the namespace, its filter is kept as it stands, an attribute has the sign
`@`, and a position in an array is left out.  A pattern has the names of the elements only.  Where
nothing is left, the path is the root.

* `ofSegments_named` : positions make no difference to a location path.
-/

namespace Crosswalk.XPath

/-- A step of a location path. -/
def step (qualifier : String) : Segment → String
  | .element name brackets =>
    "/" ++ qualifier ++ ":" ++ name
      ++ (match brackets with
          | some inside => "[" ++ inside ++ "]"
          | none => "")
  | .attribute name => "/@" ++ name
  | .index _ => ""

/-- The root, if a path has no steps. -/
def orRoot (path : String) : String :=
  if path.isEmpty then "/" else path

/-- The location path of some steps. -/
def ofSegments (qualifier : String) (segments : List Segment) : String :=
  orRoot (String.join (segments.map (step qualifier)))

/-- The location path of a field path. -/
def ofPath (qualifier path : String) : String :=
  ofSegments qualifier (Path.segments path)

/-- The name of an element with its qualifier. -/
def elementName? (qualifier : String) : Segment → Option String
  | .element name _ => some (qualifier ++ ":" ++ name)
  | _ => none

/-- The pattern that the elements of some steps match. -/
def pattern (qualifier : String) (segments : List Segment) : String :=
  orRoot (String.intercalate "/" (segments.filterMap (elementName? qualifier)))

/-- Positions make no difference to a location path. -/
theorem ofSegments_named (qualifier : String) (segments : List Segment) :
    ofSegments qualifier (segments.filter (fun s => !s.isIndex))
      = ofSegments qualifier segments := by
  have steps : ∀ ss : List Segment,
      String.join ((ss.filter (fun s => !s.isIndex)).map (step qualifier))
        = String.join (ss.map (step qualifier)) := by
    intro ss
    induction ss with
    | nil => rfl
    | cons s ss ih =>
      cases h : s.isIndex
      · rw [List.filter_cons_of_pos (by simp [h])]
        simp [String.join_cons, ih]
      · have hs : step qualifier s = "" := by
          cases s <;> simp_all [Segment.isIndex, step]
        rw [List.filter_cons_of_neg (by simp [h]), ih]
        simp [String.join_cons, hs]
  simp [ofSegments, steps]

end Crosswalk.XPath
