import Handoff.Artifact
import Handoff.Tailwind.Node

/-!
# The Tailwind target

Elements carry the classes of their nodes; there is no style sheet besides the text
styles, which apply the same classes.
-/

namespace Handoff.Tailwind

open Design (Node TextGroup)
open Markup (Attribute)

/-- Classes as a list of names. -/
def names (classes : List Utility) : List String :=
  classes.map Utility.text

/-- The attribute of a node's element. -/
def attributes (s : Settings) (parent : Option Node) (n : Node) : List Attribute :=
  match classes s.roundTailwindValues parent n with
  | [] => []
  | cs => [.classes (names cs)]

/-- The code of a forest. -/
def code (s : Settings) (forest : List Node) : String :=
  Markup.document (.ofSettings s)
    (Markup.elementsOf (attributes s) s.showLayerNames none forest)

/-- The code as the only artifact. -/
def artifacts (s : Settings) (forest : List Node) : List Artifact :=
  [⟨"Code", code s forest, .html⟩]

/-- What of a forest is missing from the code. -/
def warnings (forest : List Node) : List Warning :=
  Markup.warnings omissions forest

/-- The rule of a text style. -/
def textRule (s : Settings) (g : TextGroup) : String :=
  "." ++ Text.kebab g.name ++ " \x7b\n  @apply " ++
    " ".intercalate (names (typography s.roundTailwindValues g.typography)) ++ ";\n\x7d"

/-- The text styles as rules one after another. -/
def textStyles (s : Settings) (groups : List TextGroup) : String :=
  "\n".intercalate (groups.map (textRule s))

end Handoff.Tailwind
