import Handoff.Artifact
import Handoff.Design.TextGroup
import Handoff.Markup.Element

/-!
# The HTML target

Elements carry their declarations either themselves or through a class, whose rule then
stands in a style sheet (`rules`).  `artifacts` gives the code of both ways.

`Preview` is a page that shows a design whatever the target is.
-/

namespace Handoff.Html

open Design (Node TextGroup)
open Markup (Attribute Dialect)

/-- The class of a node. -/
def className (n : Node) : String := Text.kebab n.box.uniqueName

/-- The attribute that names the layer of a node. -/
def layerAttribute (s : Settings) (n : Node) : List Attribute :=
  if s.showLayerNames then n.box.name.toList.map .layer else []

/-- The attribute that carries the declarations of a node, or its class. -/
def styleAttribute (s : Settings) (parent : Option Node) (n : Node) : List Attribute :=
  match Css.declarations parent n with
  | [] => []
  | ds => [if s.inlineStyle then .style ds else .classes [className n]]

/-- The attributes of a node's element. -/
def attributes (s : Settings) (parent : Option Node) (n : Node) : List Attribute :=
  layerAttribute s n ++ styleAttribute s parent n

/-- The code of a forest. -/
def code (s : Settings) (forest : List Node) : String :=
  Markup.document (.ofSettings s) (Markup.elementsOf (attributes s) false none forest)

/-- The rule of a node, if it has declarations. -/
def rule? (parent : Option Node) (n : Node) : Option Css.Rule :=
  match Css.declarations parent n with
  | [] => none
  | ds => some ⟨className n, ds⟩

/-- The rules of a forest in the order of its elements. -/
def rules (forest : List Node) : List Css.Rule :=
  (Markup.visits forest).filterMap fun (parent, n) => rule? parent n

/-- The code, and the style sheet where classes are used. -/
def artifacts (s : Settings) (forest : List Node) : List Artifact :=
  ⟨"Code", code s forest, .html⟩ ::
    if s.inlineStyle then [] else [⟨"Styles", Css.styleSheet (rules forest), .css⟩]

/-- What of a forest is missing from the code. -/
def warnings (forest : List Node) : List Warning :=
  Markup.warnings Css.omissions forest

/-! ## Text styles -/

/-- A style object under a name. -/
def styleObject (name : String) (declarations : List Css.Declaration) : String :=
  "const " ++ name ++ " = \x7b\n" ++
    "\n".intercalate (declarations.map fun d => "  " ++ Markup.scriptProperty d ++ ",") ++
    "\n\x7d;"

/-- The text styles as a style sheet or as style objects. -/
def textStyles (s : Settings) (groups : List TextGroup) : String :=
  if s.jsx then
    "\n\n".intercalate
      (groups.map fun g => styleObject (Text.camel g.name) (Css.typography g.typography))
  else
    Css.styleSheet (groups.map fun g => ⟨Text.kebab g.name, Css.typography g.typography⟩)

/-! ## Preview -/

/-- A page that shows a design, and the size it needs. -/
structure Preview where
  width : Float
  height : Float
  content : String

/-- A page around a body. -/
def page (body : String) : String :=
  "<!DOCTYPE html>\n<html>\n<head>\n  <meta charset=\"utf-8\" />\n  <style>\n" ++
  "    body \x7b margin: 0; \x7d\n  </style>\n</head>\n<body>\n" ++
  Text.indent 2 body ++ "\n</body>\n</html>\n"

/-- The settings of a preview, which always has inline styles and no layer names. -/
def previewSettings (s : Settings) : Settings :=
  { s with framework := .html, jsx := false, inlineStyle := true, showLayerNames := false }

/-- The preview of a forest: as wide as the widest root, as high as all together. -/
def preview (s : Settings) (forest : List Node) : Preview where
  width := (forest.map (·.box.geometry.width)).foldl Decimal.larger 0.0
  height := (forest.map (·.box.geometry.height)).foldl (· + ·) 0.0
  content := page (code (previewSettings s) forest)

/-- Size and content. -/
def Preview.toJson (p : Preview) : Json :=
  .obj [("width", .double p.width), ("height", .double p.height), ("content", .str p.content)]

end Handoff.Html
