import Crosswalk.Schema.Node

/-!
# Listings of schemas

A schema is listed with a line for each node, indented by two spaces for each node above it; an
attribute has the sign `@` in front of its name.
-/

namespace Crosswalk.Schema

/-- The line of a node on a given level. -/
def Node.line (level : Nat) (n : Node) : String :=
  String.ofList (List.replicate (2 * level) ' ') ++ (if n.isAttribute then "@" else "") ++ n.name
    ++ " (" ++ n.kind.name ++ ")  " ++ n.path ++ "\n"

mutual

/-- The lines of a node and of all nodes below it. -/
def Node.listing (level : Nat) : Node → String
  | ⟨name, path, kind, children, isAttribute⟩ =>
    Node.line level ⟨name, path, kind, children, isAttribute⟩ ++ listing (level + 1) children

/-- The lines of some trees. -/
def listing (level : Nat) : List Node → String
  | [] => ""
  | n :: rest => n.listing level ++ listing level rest

end

end Crosswalk.Schema
