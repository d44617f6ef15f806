import Crosswalk.Json.Value
import Crosswalk.Path.Segment

/-!
# Writing values into an output

A value is written to the place that a path leads to.  On the way missing containers are made:
arrays for steps of digits alone, objects for all others.  An array grows by empty objects up to
the position that is asked for.  A value on the way that is no container gives way to one, and so
does an empty object where an array is needed; a step by name into an array ends the writing.
-/

namespace Crosswalk.Preview

/-- Whether a step is made of digits alone. -/
def isPosition (key : String) : Bool :=
  Segment.isDigits key.toList

/-- The container that a step goes into. -/
def containerFor (key : String) : Json.Value :=
  if isPosition key then .array [] else .object []

/-- What stands where a container is needed that the given step can go into. -/
def prepared (key : String) (v : Json.Value) : Json.Value :=
  match v with
  | .array items => .array items
  | .object [] => containerFor key
  | .object fields => .object fields
  | _ => containerFor key

/-- Some items, followed by as many empty objects as a position needs. -/
def padded (items : List Json.Value) (position : Nat) : List Json.Value :=
  items ++ List.replicate (position + 1 - items.length) (.object [])

/-- A value in which what stands at a step is changed.  A field that is missing counts as null;
nothing changes where the step cannot go. -/
def modifyAt (key : String) (change : Json.Value → Json.Value) (v : Json.Value) : Json.Value :=
  match v with
  | .object fields =>
    .object (Fields.put key (change ((Fields.get? key fields).getD .null)) fields)
  | .array items =>
    match Segment.indexOf? key.toList with
    | some n => .array ((padded items n).modify n change)
    | none => .array items
  | v => v

/-- A value with another one written to the place that some steps lead to. -/
def write (value : Json.Value) : List String → Json.Value → Json.Value
  | [], v => v
  | [key], v => modifyAt key (fun _ => value) v
  | key :: next :: rest, v =>
    modifyAt key (fun slot => write value (next :: rest) (prepared next slot)) v

/-- A value with another one written to the place that a path leads to. -/
def writeAt (path : String) (value : Json.Value) (v : Json.Value) : Json.Value :=
  write value (Path.split path) v

/-- After padding there is an item at the position. -/
theorem lt_length_padded (items : List Json.Value) (position : Nat) :
    position < (padded items position).length := by
  simp only [padded, List.length_append, List.length_replicate]
  omega

end Crosswalk.Preview
