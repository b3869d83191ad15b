import Handoff.Color.Perceptual
import Handoff.Design.UsedColors
import Handoff.Target

/-!
# Colors on show

The colors and gradients of a design as they are shown beside the code, with their names,
their contrast and the way the target writes them; and the artifact that lists the colors,
one a line.
-/

namespace Handoff

open Design (ColorRef Gradient UsedColors)

/-- What is said about a color whose palette entry is not the same color. -/
def nearestMatch : String := "nearest match"

/-- The remark on the palette entry of a color. -/
def Design.ColorRef.remark (c : ColorRef) : Option String :=
  match c.palette with
  | some p => if p.exact then none else some nearestMatch
  | none => none

/-- A color on show. -/
structure SolidColor where
  hex : String
  /-- The palette name, or the hexadecimal text of a color without one. -/
  name : String
  /-- The color as the target writes it. -/
  exported : String
  contrastWhite : Float
  contrastBlack : Float
  remark : Option String

namespace SolidColor

/-- A contrast to two places. -/
def contrast (c other : Color) : Float :=
  Decimal.roundHundredths (Decimal.widen (c.contrast other))

/-- A color of a design for a target. -/
def ofColor (f : Framework) (c : ColorRef) : SolidColor where
  hex := c.color.hexAlpha
  name := (c.palette.map (·.name)).getD c.color.hexAlpha
  exported := f.colorText c
  contrastWhite := contrast c.color .white
  contrastBlack := contrast c.color .black
  remark := c.remark

/-- Every field under its name. -/
def toJson (c : SolidColor) : Json :=
  .obj [
    ("hex", .str c.hex),
    ("colorName", .str c.name),
    ("exportValue", .str c.exported),
    ("contrastWhite", .double c.contrastWhite),
    ("contrastBlack", .double c.contrastBlack),
    ("meta", .ofOption .str c.remark)]

end SolidColor

/-- A linear gradient on show. -/
structure LinearGradient where
  css : String
  /-- The gradient as the target writes it. -/
  exported : String

namespace LinearGradient

/-- A gradient of a design for a target. -/
def ofGradient (f : Framework) (g : Gradient) : LinearGradient :=
  ⟨g.css, f.gradientText g.angle g.stops⟩

/-- Both texts under their names. -/
def toJson (g : LinearGradient) : Json :=
  .obj [("cssPreview", .str g.css), ("exportValue", .str g.exported)]

end LinearGradient

namespace Design.UsedColors

/-- The colors on show for a target. -/
def solidColors (f : Framework) (used : UsedColors) : List SolidColor :=
  used.solids.map (.ofColor f)

/-- The gradients on show for a target. -/
def linearGradients (f : Framework) (used : UsedColors) : List LinearGradient :=
  used.gradients.map (.ofGradient f)

/-- A color on a line: its hexadecimal text, its palette name if that says more, and the
remark on it. -/
def line (c : ColorRef) : String :=
  let name := match c.palette with
    | some p => if p.name = c.color.hexAlpha then "" else " // " ++ p.name
    | none => ""
  let remark := match c.remark with
    | some text => " (" ++ text ++ ")"
    | none => ""
  c.color.hexAlpha ++ ";" ++ name ++ remark

/-- The colors of a design, one a line. -/
def artifact (f : Framework) (used : UsedColors) : Artifact :=
  let code := "\n".intercalate (used.solids.map line)
  match f with
  | .tailwind => ⟨"Tailwind Colors", code, .javascript⟩
  | .html | .flutter | .swiftUI => ⟨"Colors", code, .plaintext⟩

end Design.UsedColors

end Handoff
