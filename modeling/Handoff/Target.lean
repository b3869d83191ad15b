import Handoff.Dart.Code
import Handoff.Html.Code
import Handoff.Swift.Code
import Handoff.Tailwind.Code

/-!
# Targets

What each target makes of a design: its artifacts, the warnings about what they leave
out, the text styles, and how single colors and gradients are written.
-/

namespace Handoff

open Design (Node TextGroup ColorRef GradientStop)

namespace Framework

/-- The artifacts of a forest, the code first. -/
def artifacts (s : Settings) (forest : List Node) : Framework → List Artifact
  | html => Html.artifacts s forest
  | tailwind => Tailwind.artifacts s forest
  | flutter => Dart.artifacts s forest
  | swiftUI => Swift.artifacts s forest

/-- What of a forest is missing from the artifacts. -/
def warnings (forest : List Node) : Framework → List Warning
  | html => Html.warnings forest
  | tailwind => Tailwind.warnings forest
  | flutter => Dart.listWarnings forest
  | swiftUI => Swift.listWarnings forest

/-- The definitions of text styles. -/
def textStyles (s : Settings) (groups : List TextGroup) : Framework → String
  | html => Html.textStyles s groups
  | tailwind => Tailwind.textStyles s groups
  | flutter => Dart.textStyles groups
  | swiftUI => Swift.textStyles groups

/-- The language of the text styles. -/
def textStylesLanguage (s : Settings) : Framework → Language
  | html => if s.jsx then .javascript else .css
  | tailwind => .css
  | flutter => .dart
  | swiftUI => .swift

/-- A color as the target writes it. -/
def colorText (c : ColorRef) : Framework → String
  | html => c.color.css
  | tailwind => Tailwind.color c
  | flutter => Dart.color c
  | swiftUI => Swift.color c

/-- A linear gradient as the target writes it. -/
def gradientText (angle : Float) (stops : List GradientStop) : Framework → String
  | html => Css.linearGradient angle stops
  | tailwind => " ".intercalate (Tailwind.names (Tailwind.gradient angle stops))
  | flutter => (Dart.linearGradient angle stops).render 0
  | swiftUI => Swift.linearGradient angle stops

end Framework

end Handoff
