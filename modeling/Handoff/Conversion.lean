import Handoff.ColorSheet
import Handoff.Design.OfScene.Forest

/-!
# Conversions

`convert` turns a selection into everything that is shown for one target: the artifacts,
the warnings, a preview, and the colors and gradients in use.  It fails only when nothing
of the selection is visible.

`Message` is the same for a reader who has no other way to hear of an error, and
`convertAll` goes through all targets.
-/

namespace Handoff

open Design (Node TextGroup UsedColors)

/-- What is shown for one target. -/
structure Conversion where
  framework : Framework
  /-- The code, then the text styles, then the colors. -/
  artifacts : List Artifact
  warnings : List Warning
  preview : Html.Preview
  colors : List SolidColor
  gradients : List LinearGradient

/-- The artifact of the text styles. -/
def textStylesArtifact (s : Settings) (groups : List TextGroup) (language : Language) :
    Artifact :=
  ⟨"Text Styles", s.framework.textStyles s groups, language⟩

/-- All artifacts of a forest: those of the target, the text styles if there are texts, and
the colors if there are any. -/
def artifactsOf (s : Settings) (forest : List Node) : List Artifact :=
  let groups := TextGroup.ofForest forest
  let used := UsedColors.ofForest forest
  s.framework.artifacts s forest ++
    (if groups.isEmpty then []
      else [textStylesArtifact s groups (s.framework.textStylesLanguage s)]) ++
    if used.solids.isEmpty then [] else [used.artifact s.framework]

/-- The conversion of a selection. -/
def convert (s : Settings) (parent : Option Scene.Node) (roots : List Scene.Node) :
    Except ConversionError Conversion := do
  let forest ← Design.build s parent roots
  let used := UsedColors.ofForest forest
  return {
    framework := s.framework
    artifacts := artifactsOf s forest
    warnings := Warning.distinct (Design.warningsOf s roots ++ s.framework.warnings forest)
    preview := Html.preview s forest
    colors := used.solidColors s.framework
    gradients := used.linearGradients s.framework
  }

/-- The conversions to all targets in turn. -/
def convertAll (s : Settings) (parent : Option Scene.Node) (roots : List Scene.Node) :
    Except ConversionError (List Conversion) :=
  Framework.all.mapM fun f => convert { s with framework := f } parent roots

/-! ## Messages -/

/-- A conversion, or the reason why there is none. -/
inductive Message where
  | code (conversion : Conversion)
  | error (cause : ConversionError)

/-- The message about a selection. -/
def Message.ofSelection (s : Settings) (parent : Option Scene.Node)
    (roots : List Scene.Node) : Message :=
  match convert s parent roots with
  | .ok conversion => .code conversion
  | .error cause => .error cause

namespace Conversion

/-- The target, and what was made for it. -/
def outputFields (c : Conversion) : List (String × Json) :=
  [("framework", .str c.framework.name),
   ("artifacts", .ofList Artifact.toJson c.artifacts),
   ("warnings", .ofList Warning.toJson c.warnings)]

/-- The colors and gradients. -/
def colorFields (c : Conversion) : List (String × Json) :=
  [("colors", .ofList SolidColor.toJson c.colors),
   ("gradients", .ofList LinearGradient.toJson c.gradients)]

/-- Everything but the preview. -/
def toJson (c : Conversion) : Json :=
  .obj (c.outputFields ++ c.colorFields)

end Conversion

/-- A conversion or an error, told apart by `type`. -/
def Message.toJson : Message → Json
  | code c =>
    .obj (("type", .str "code") :: c.outputFields ++ [("preview", c.preview.toJson)] ++
      c.colorFields)
  | error cause => .obj [("type", .str "error"), ("error", .str cause.message)]

end Handoff
