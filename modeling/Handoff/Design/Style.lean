import Handoff.Design.Enumeration
import Handoff.Palette.Basic
import Handoff.Text.Case

/-!
# Style

What a node of a design looks like: fills, strokes, effects, corners, and for a text its
characters and typography.  Paints are listed from bottom to top.
-/

namespace Handoff.Design

/-- A color with the palette entry that it may be called by. -/
structure ColorRef where
  color : Color
  palette : Option Palette.Match
deriving BEq

/-- A color at a position between zero and one of a gradient. -/
structure GradientStop where
  position : Float
  color : ColorRef
deriving BEq

/-- How a layer mixes with what lies under it. -/
inductive BlendMode where
  | normal
  | multiply
  | screen
  | overlay
  | darken
  | lighten
  | colorDodge
  | colorBurn
  | hardLight
  | softLight
  | difference
  | exclusion
  | hue
  | saturation
  | color
  | luminosity
deriving DecidableEq, Repr, Inhabited

instance : Enumeration BlendMode where
  word
    | .normal => "normal"
    | .multiply => "multiply"
    | .screen => "screen"
    | .overlay => "overlay"
    | .darken => "darken"
    | .lighten => "lighten"
    | .colorDodge => "color_dodge"
    | .colorBurn => "color_burn"
    | .hardLight => "hard_light"
    | .softLight => "soft_light"
    | .difference => "difference"
    | .exclusion => "exclusion"
    | .hue => "hue"
    | .saturation => "saturation"
    | .color => "color"
    | .luminosity => "luminosity"
  all := [
    .normal, .multiply, .screen, .overlay, .darken, .lighten, .colorDodge, .colorBurn,
    .hardLight, .softLight, .difference, .exclusion, .hue, .saturation, .color, .luminosity]
  find_word a := by cases a <;> rfl

/-- How an image fills its bounds. -/
inductive ScaleMode where
  | fill
  | fit
  | crop
  | tile
deriving DecidableEq, Repr, Inhabited

instance : Enumeration ScaleMode where
  word
    | .fill => "fill"
    | .fit => "fit"
    | .crop => "crop"
    | .tile => "tile"
  all := [.fill, .fit, .crop, .tile]
  find_word a := by cases a <;> rfl

/-- What a paint is made of. -/
inductive Fill where
  | solid (color : ColorRef)
  /-- An angle in degrees, zero pointing up and ninety to the right, and the stops. -/
  | linearGradient (angle : Float) (stops : List GradientStop)
  | image (imageRef : String) (scaleMode : ScaleMode)
deriving BEq

/-- A layer of paint. -/
structure Paint where
  fill : Fill
  /-- The opacity of the layer, already part of the colors of solids and stops. -/
  opacity : Float
  blendMode : BlendMode
deriving BEq

/-- The color of a paint of one color. -/
def Paint.solid? (p : Paint) : Option ColorRef :=
  match p.fill with
  | .solid c => some c
  | _ => none

/-- Where a stroke lies relative to the edge. -/
inductive StrokeAlign where
  | inside
  | center
  | outside
deriving DecidableEq, Repr, Inhabited

instance : Enumeration StrokeAlign where
  word
    | .inside => "inside"
    | .center => "center"
    | .outside => "outside"
  all := [.inside, .center, .outside]
  find_word a := by cases a <;> rfl

/-- The line of a stroke; its paints are listed apart. -/
structure Stroke where
  weight : Float
  align : StrokeAlign
deriving BEq

/-- The rounding of the corners. -/
inductive CornerRadius where
  | none
  | uniform (radius : Float)
  | perCorner (topLeft topRight bottomRight bottomLeft : Float)
deriving BEq

/-- A shadow. -/
structure Shadow where
  color : ColorRef
  offsetX : Float
  offsetY : Float
  blur : Float
  spread : Float
deriving BEq

/-- A shadow or blur. -/
inductive Effect where
  | dropShadow (shadow : Shadow)
  | innerShadow (shadow : Shadow)
  | layerBlur (radius : Float)
  | backgroundBlur (radius : Float)
deriving BEq

/-- The horizontal alignment of text. -/
inductive TextAlign where
  | left
  | center
  | right
  | justified
deriving DecidableEq, Repr, Inhabited

instance : Enumeration TextAlign where
  word
    | .left => "left"
    | .center => "center"
    | .right => "right"
    | .justified => "justified"
  all := [.left, .center, .right, .justified]
  find_word a := by cases a <;> rfl

/-- The vertical alignment of text. -/
inductive TextAlignVertical where
  | top
  | center
  | bottom
deriving DecidableEq, Repr, Inhabited

instance : Enumeration TextAlignVertical where
  word
    | .top => "top"
    | .center => "center"
    | .bottom => "bottom"
  all := [.top, .center, .bottom]
  find_word a := by cases a <;> rfl

/-- The case transform of text. -/
inductive TextCase where
  | original
  | upper
  | lower
  | title
deriving DecidableEq, Repr, Inhabited

instance : Enumeration TextCase where
  word
    | .original => "original"
    | .upper => "upper"
    | .lower => "lower"
    | .title => "title"
  all := [.original, .upper, .lower, .title]
  find_word a := by cases a <;> rfl

/-- The line drawn with text. -/
inductive TextDecoration where
  | none
  | underline
  | strikethrough
deriving DecidableEq, Repr, Inhabited

instance : Enumeration TextDecoration where
  word
    | .none => "none"
    | .underline => "underline"
    | .strikethrough => "strikethrough"
  all := [.none, .underline, .strikethrough]
  find_word a := by cases a <;> rfl

/-- The text that a case transform makes of a text. -/
def TextCase.apply : TextCase → String → String
  | original, text => text
  | upper, text => Text.upper text
  | lower, text => Text.lower text
  | title, text => Text.capitalizeWords text

/-- How text is set.  Texts of equal typography share a text style; color is not part of
it. -/
structure Typography where
  family : String
  /-- From one to a thousand, four hundred being regular. -/
  weight : Nat
  italic : Bool
  size : Float
  /-- In pixels; none stands for the natural height of the font. -/
  lineHeight : Option Float
  letterSpacing : Float
  align : TextAlign
  alignVertical : TextAlignVertical
  textCase : TextCase
  decoration : TextDecoration
deriving BEq

/-- A text and how it is set. -/
structure TextStyle where
  characters : String
  typography : Typography
deriving BEq

/-- The look of a node. -/
structure Style where
  fills : List Paint
  strokes : List Paint
  /-- Present when there is a stroke paint. -/
  stroke : Option Stroke
  effects : List Effect
  cornerRadius : CornerRadius
  opacity : Float
  clipsContent : Bool
  /-- Present on text. -/
  text : Option TextStyle
deriving BEq

namespace Style

/-- The look of a node that draws nothing. -/
def plain : Style := ⟨[], [], none, [], .none, 1.0, false, none⟩

/-- The color of the topmost fill of one color. -/
def topSolidFill? (s : Style) : Option ColorRef :=
  s.fills.reverse.findSome? Paint.solid?

/-- The color of the topmost stroke of one color. -/
def topSolidStroke? (s : Style) : Option ColorRef :=
  s.strokes.reverse.findSome? Paint.solid?

end Style

end Handoff.Design
