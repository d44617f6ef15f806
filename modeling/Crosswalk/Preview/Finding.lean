import Crosswalk.Json.Value
import Crosswalk.Markup.Node
import Crosswalk.Path.Segment

/-!
# Finding values in an input

A path is followed step by step.  In a JSON value a step goes to a field of an object or to an item
of an array; a step that is no position is taken in the first item of an array.  In markup a step
goes to the first child element of its name, or to the first that passes its filter; positions go
nowhere, a first step may name the outermost element itself, and an attribute ends the path.
-/

namespace Crosswalk.Preview

/-! ### In JSON -/

/-- What a step from a value leads to. -/
def stepValue? (key : String) : Json.Value → Option Json.Value
  | .object fields => Fields.get? key fields
  | .array items =>
    match Segment.indexOf? key.toList with
    | some n => items[n]?
    | none =>
      match items with
      | .object fields :: _ => Fields.get? key fields
      | _ => none
  | _ => none

/-- The value that some steps lead to; null is no value. -/
def followValue? : List String → Json.Value → Option Json.Value
  | [], v => some v
  | key :: rest, v =>
    match stepValue? key v with
    | none => none
    | some .null => none
    | some next => followValue? rest next

/-- The value that a path leads to. -/
def findValue? (path : String) (v : Json.Value) : Option Json.Value :=
  followValue? (Path.split path) v

/-! ### In markup -/

/-- The child elements with a given base name: those in the given namespace, or, if there is none
of them, those without a namespace. -/
def childrenNamed (space : Option String) (base : String) (e : Markup.Element) :
    List Markup.Element :=
  match e.elements.filter (fun c => c.name == ⟨space, base⟩) with
  | [] => e.elements.filter (fun c => c.name == ⟨none, base⟩)
  | preferred => preferred

/-- Whether an element passes a filter. -/
def passes (f : Filter) (e : Markup.Element) : Bool :=
  e.attribute? f.name == some f.value

/-- The value that some steps lead to from an element.  While `isFirst` holds, a step that names
the outermost element stays where it is. -/
def followMarkup? (root : Markup.Name) :
    (isFirst : Bool) → List Segment → Markup.Element → Option String
  | _, [], e => e.leadingText?
  | _, .attribute name :: _, e => e.attribute? name
  | _, .index _ :: rest, e => followMarkup? root false rest e
  | isFirst, .element base brackets :: rest, e =>
    if brackets.isNone && Segment.isDigits base.toList then followMarkup? root false rest e
    else
      match brackets.bind Filter.read? with
      | some f =>
        match (childrenNamed root.space base e).find? (passes f) with
        | some next => followMarkup? root false rest next
        | none => none
      | none =>
        if isFirst && base == root.base then followMarkup? root false rest e
        else
          match (childrenNamed root.space base e).head? with
          | some next => followMarkup? root false rest next
          | none => none

/-- The value that a path leads to from the outermost element. -/
def findText? (path : String) (root : Markup.Element) : Option String :=
  followMarkup? root.name true (Path.segments path) root

end Crosswalk.Preview
