import Crosswalk.Stylesheet.Overrides
import Crosswalk.Stylesheet.Rebuilding

/-!
# The text of a stylesheet
-/

namespace Crosswalk.Stylesheet

open Markup

/-- The templates of a stylesheet. -/
def templates (s : Stylesheet) : List Part :=
  if s.copiesInput then copyingTemplates s
  else [rebuildingTemplate s.qualifier (Level.ofRules s.rules).1]

/-- The text of a stylesheet. -/
def text (s : Stylesheet) : String :=
  "<?xml version=\"1.0\" encoding=\"UTF-8\"?>\n"
    ++ String.ofList (Part.charsOf (document s (templates s)))

/-- The notices about rules that are not written as they were given. -/
def notices (s : Stylesheet) : List Notice :=
  if s.copiesInput then []
  else
    let (level, onTheWay) := Level.ofRules s.rules
    onTheWay ++ levelNotices level

end Crosswalk.Stylesheet
