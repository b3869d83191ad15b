import Handoff.Json.Decode

/-!
# The vocabulary of scenes

The enumerated values of a scene, each written as one upper-case word.  A word that is
not known is read as `unknown`, so that a scene from a newer design tool still reads;
`Vocabulary.ofWord_word` says that a known value reads back as itself.
-/

namespace Handoff.Scene

/-- A type whose values are written as words. -/
class Vocabulary (α : Type) where
  /-- The word of a value. -/
  word : α → String
  /-- The values with a word of their own. -/
  known : List α
  /-- The value of every other word. -/
  unknown : α
  /-- The word of a value is looked up as that value. -/
  find_word : ∀ a, (known.find? fun b => word b == word a).getD unknown = a

namespace Vocabulary

variable {α : Type} [Vocabulary α]

/-- The value of a word. -/
def ofWord (s : String) : α :=
  ((known : List α).find? fun a => word a == s).getD unknown

/-- Writing a value and reading its word gives the value back. -/
@[simp]
theorem ofWord_word (a : α) : ofWord (word a) = a :=
  find_word a

/-- A value as its word. -/
def toJson (a : α) : Json := .str (word a)

/-- The value of a written word, known or not. -/
def ofJson? : Json.Decoder α := fun json => (Json.tag? json).map ofWord

end Vocabulary

/-- What a paint is filled with. -/
inductive PaintType where
  | solid
  | gradientLinear
  | gradientRadial
  | gradientAngular
  | gradientDiamond
  | image
  | video
  | unknown
deriving DecidableEq, Repr, Inhabited

instance : Vocabulary PaintType where
  word
    | .solid => "SOLID"
    | .gradientLinear => "GRADIENT_LINEAR"
    | .gradientRadial => "GRADIENT_RADIAL"
    | .gradientAngular => "GRADIENT_ANGULAR"
    | .gradientDiamond => "GRADIENT_DIAMOND"
    | .image => "IMAGE"
    | .video => "VIDEO"
    | .unknown => "UNKNOWN"
  known := [
    .solid, .gradientLinear, .gradientRadial, .gradientAngular, .gradientDiamond, .image, .video]
  unknown := .unknown
  find_word a := by cases a <;> rfl

/-- What an effect does. -/
inductive EffectType where
  | dropShadow
  | innerShadow
  | layerBlur
  | backgroundBlur
  | noise
  | texture
  | unknown
deriving DecidableEq, Repr, Inhabited

instance : Vocabulary EffectType where
  word
    | .dropShadow => "DROP_SHADOW"
    | .innerShadow => "INNER_SHADOW"
    | .layerBlur => "LAYER_BLUR"
    | .backgroundBlur => "BACKGROUND_BLUR"
    | .noise => "NOISE"
    | .texture => "TEXTURE"
    | .unknown => "UNKNOWN"
  known := [.dropShadow, .innerShadow, .layerBlur, .backgroundBlur, .noise, .texture]
  unknown := .unknown
  find_word a := by cases a <;> rfl

/-- How a layer mixes with what lies under it. -/
inductive BlendMode where
  | normal
  | passThrough
  | darken
  | multiply
  | colorBurn
  | lighten
  | screen
  | colorDodge
  | overlay
  | softLight
  | hardLight
  | difference
  | exclusion
  | hue
  | saturation
  | color
  | luminosity
  | unknown
deriving DecidableEq, Repr, Inhabited

instance : Vocabulary BlendMode where
  word
    | .normal => "NORMAL"
    | .passThrough => "PASS_THROUGH"
    | .darken => "DARKEN"
    | .multiply => "MULTIPLY"
    | .colorBurn => "COLOR_BURN"
    | .lighten => "LIGHTEN"
    | .screen => "SCREEN"
    | .colorDodge => "COLOR_DODGE"
    | .overlay => "OVERLAY"
    | .softLight => "SOFT_LIGHT"
    | .hardLight => "HARD_LIGHT"
    | .difference => "DIFFERENCE"
    | .exclusion => "EXCLUSION"
    | .hue => "HUE"
    | .saturation => "SATURATION"
    | .color => "COLOR"
    | .luminosity => "LUMINOSITY"
    | .unknown => "UNKNOWN"
  known := [
    .normal, .passThrough, .darken, .multiply, .colorBurn, .lighten, .screen, .colorDodge,
    .overlay, .softLight, .hardLight, .difference, .exclusion, .hue, .saturation, .color,
    .luminosity]
  unknown := .unknown
  find_word a := by cases a <;> rfl

/-- How an image fills its bounds. -/
inductive ScaleMode where
  | fill
  | fit
  | crop
  | tile
  | unknown
deriving DecidableEq, Repr, Inhabited

instance : Vocabulary ScaleMode where
  word
    | .fill => "FILL"
    | .fit => "FIT"
    | .crop => "CROP"
    | .tile => "TILE"
    | .unknown => "UNKNOWN"
  known := [.fill, .fit, .crop, .tile]
  unknown := .unknown
  find_word a := by cases a <;> rfl

/-- Where a stroke lies relative to the edge. -/
inductive StrokeAlign where
  | inside
  | outside
  | center
  | unknown
deriving DecidableEq, Repr, Inhabited

instance : Vocabulary StrokeAlign where
  word
    | .inside => "INSIDE"
    | .outside => "OUTSIDE"
    | .center => "CENTER"
    | .unknown => "UNKNOWN"
  known := [.inside, .outside, .center]
  unknown := .unknown
  find_word a := by cases a <;> rfl

/-- The direction of an auto-layout, if there is one. -/
inductive LayoutMode where
  | none
  | horizontal
  | vertical
  | unknown
deriving DecidableEq, Repr, Inhabited

instance : Vocabulary LayoutMode where
  word
    | .none => "NONE"
    | .horizontal => "HORIZONTAL"
    | .vertical => "VERTICAL"
    | .unknown => "UNKNOWN"
  known := [.none, .horizontal, .vertical]
  unknown := .unknown
  find_word a := by cases a <;> rfl

/-- Whether an auto-layout wraps. -/
inductive LayoutWrap where
  | noWrap
  | wrap
  | unknown
deriving DecidableEq, Repr, Inhabited

instance : Vocabulary LayoutWrap where
  word
    | .noWrap => "NO_WRAP"
    | .wrap => "WRAP"
    | .unknown => "UNKNOWN"
  known := [.noWrap, .wrap]
  unknown := .unknown
  find_word a := by cases a <;> rfl

/-- How items are spread along the direction of an auto-layout. -/
inductive PrimaryAlign where
  | min
  | center
  | max
  | spaceBetween
  | unknown
deriving DecidableEq, Repr, Inhabited

instance : Vocabulary PrimaryAlign where
  word
    | .min => "MIN"
    | .center => "CENTER"
    | .max => "MAX"
    | .spaceBetween => "SPACE_BETWEEN"
    | .unknown => "UNKNOWN"
  known := [.min, .center, .max, .spaceBetween]
  unknown := .unknown
  find_word a := by cases a <;> rfl

/-- How items are aligned across the direction of an auto-layout. -/
inductive CounterAlign where
  | min
  | center
  | max
  | baseline
  | unknown
deriving DecidableEq, Repr, Inhabited

instance : Vocabulary CounterAlign where
  word
    | .min => "MIN"
    | .center => "CENTER"
    | .max => "MAX"
    | .baseline => "BASELINE"
    | .unknown => "UNKNOWN"
  known := [.min, .center, .max, .baseline]
  unknown := .unknown
  find_word a := by cases a <;> rfl

/-- How a node asks to be sized on an axis. -/
inductive AxisSizing where
  | fixed
  | hug
  | fill
  | unknown
deriving DecidableEq, Repr, Inhabited

instance : Vocabulary AxisSizing where
  word
    | .fixed => "FIXED"
    | .hug => "HUG"
    | .fill => "FILL"
    | .unknown => "UNKNOWN"
  known := [.fixed, .hug, .fill]
  unknown := .unknown
  find_word a := by cases a <;> rfl

/-- Whether a node takes part in the auto-layout around it. -/
inductive Positioning where
  | auto
  | absolute
  | unknown
deriving DecidableEq, Repr, Inhabited

instance : Vocabulary Positioning where
  word
    | .auto => "AUTO"
    | .absolute => "ABSOLUTE"
    | .unknown => "UNKNOWN"
  known := [.auto, .absolute]
  unknown := .unknown
  find_word a := by cases a <;> rfl

/-- How a node asks to be aligned in the auto-layout around it. -/
inductive LayoutAlign where
  | inherit
  | stretch
  | min
  | center
  | max
  | unknown
deriving DecidableEq, Repr, Inhabited

instance : Vocabulary LayoutAlign where
  word
    | .inherit => "INHERIT"
    | .stretch => "STRETCH"
    | .min => "MIN"
    | .center => "CENTER"
    | .max => "MAX"
    | .unknown => "UNKNOWN"
  known := [.inherit, .stretch, .min, .center, .max]
  unknown := .unknown
  find_word a := by cases a <;> rfl

/-- The unit of a line height. -/
inductive LineHeightUnit where
  | auto
  | pixels
  | percent
  | unknown
deriving DecidableEq, Repr, Inhabited

instance : Vocabulary LineHeightUnit where
  word
    | .auto => "AUTO"
    | .pixels => "PIXELS"
    | .percent => "PERCENT"
    | .unknown => "UNKNOWN"
  known := [.auto, .pixels, .percent]
  unknown := .unknown
  find_word a := by cases a <;> rfl

/-- The unit of a letter spacing. -/
inductive LetterSpacingUnit where
  | pixels
  | percent
  | unknown
deriving DecidableEq, Repr, Inhabited

instance : Vocabulary LetterSpacingUnit where
  word
    | .pixels => "PIXELS"
    | .percent => "PERCENT"
    | .unknown => "UNKNOWN"
  known := [.pixels, .percent]
  unknown := .unknown
  find_word a := by cases a <;> rfl

/-- The horizontal alignment of text. -/
inductive TextAlign where
  | left
  | center
  | right
  | justified
  | unknown
deriving DecidableEq, Repr, Inhabited

instance : Vocabulary TextAlign where
  word
    | .left => "LEFT"
    | .center => "CENTER"
    | .right => "RIGHT"
    | .justified => "JUSTIFIED"
    | .unknown => "UNKNOWN"
  known := [.left, .center, .right, .justified]
  unknown := .unknown
  find_word a := by cases a <;> rfl

/-- The vertical alignment of text. -/
inductive TextAlignVertical where
  | top
  | center
  | bottom
  | unknown
deriving DecidableEq, Repr, Inhabited

instance : Vocabulary TextAlignVertical where
  word
    | .top => "TOP"
    | .center => "CENTER"
    | .bottom => "BOTTOM"
    | .unknown => "UNKNOWN"
  known := [.top, .center, .bottom]
  unknown := .unknown
  find_word a := by cases a <;> rfl

/-- The case transform of text. -/
inductive TextCase where
  | original
  | upper
  | lower
  | title
  | unknown
deriving DecidableEq, Repr, Inhabited

instance : Vocabulary TextCase where
  word
    | .original => "ORIGINAL"
    | .upper => "UPPER"
    | .lower => "LOWER"
    | .title => "TITLE"
    | .unknown => "UNKNOWN"
  known := [.original, .upper, .lower, .title]
  unknown := .unknown
  find_word a := by cases a <;> rfl

/-- The line drawn with text. -/
inductive TextDecoration where
  | none
  | underline
  | strikethrough
  | unknown
deriving DecidableEq, Repr, Inhabited

instance : Vocabulary TextDecoration where
  word
    | .none => "NONE"
    | .underline => "UNDERLINE"
    | .strikethrough => "STRIKETHROUGH"
    | .unknown => "UNKNOWN"
  known := [.none, .underline, .strikethrough]
  unknown := .unknown
  find_word a := by cases a <;> rfl

/-- How a text box follows its text. -/
inductive TextAutoResize where
  | none
  | widthAndHeight
  | height
  | truncate
  | unknown
deriving DecidableEq, Repr, Inhabited

instance : Vocabulary TextAutoResize where
  word
    | .none => "NONE"
    | .widthAndHeight => "WIDTH_AND_HEIGHT"
    | .height => "HEIGHT"
    | .truncate => "TRUNCATE"
    | .unknown => "UNKNOWN"
  known := [.none, .widthAndHeight, .height, .truncate]
  unknown := .unknown
  find_word a := by cases a <;> rfl

end Handoff.Scene
