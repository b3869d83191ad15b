import Handoff.Dart.Expr
import Handoff.Design.Node
import Handoff.Text.Escape
import Handoff.Text.Hexadecimal
import Handoff.Text.Lines
import Handoff.Text.Words

/-!
# Dart values

The values that widgets take: numbers, colors, gradients, radii, insets and text styles.
-/

namespace Handoff.Dart

open Handoff.Dart.Expr (raw call list)

/-- A floating-point literal. -/
def number (v : Float) : Expr := raw (Decimal.pointed v)

/-- A string literal. -/
def literal (s : String) : String := "'" ++ Text.dart s ++ "'"

/-! ## Colors -/

/-- The hexadecimal digits of bytes in upper case. -/
def upperHex (bytes : List Nat) : String :=
  String.ofList ((bytes.flatMap Text.hexPair).map Char.toUpper)

/-- A color: a palette entry, with its opacity unless it is opaque, or four bytes with
alpha in front. -/
def color (c : Design.ColorRef) : String :=
  match c.palette with
  | some p =>
    if c.color.isOpaque then p.name
    else p.name ++ ".withOpacity(" ++ Decimal.plain (Decimal.widen c.color.a) ++ ")"
  | none =>
    let q := c.color.bytes
    "Color(0x" ++ upperHex [q.a, q.r, q.g, q.b] ++ ")"

/-! ## Gradients -/

/-- The names of the points on the edge of a box at multiples of one. -/
def alignmentNames : List ((Int × Int) × String) := [
  ((-1, -1), "topLeft"), ((0, -1), "topCenter"), ((1, -1), "topRight"),
  ((-1, 0), "centerLeft"), ((1, 0), "centerRight"),
  ((-1, 1), "bottomLeft"), ((0, 1), "bottomCenter"), ((1, 1), "bottomRight")]

/-- A point of a box, from minus one to one on each axis. -/
def alignment (x y : Float) : String :=
  let name :=
    if Decimal.isWhole x ∧ Decimal.isWhole y then
      alignmentNames.lookup (Decimal.toInt32 x, Decimal.toInt32 y)
    else none
  match name with
  | some name => "Alignment." ++ name
  | none => "Alignment(" ++ Decimal.plain x ++ ", " ++ Decimal.plain y ++ ")"

/-- Zero for a zero of either sign. -/
def unsignedZero (v : Float) : Float := if v == 0.0 then 0.0 else v

/-- The direction of an angle, zero pointing up, stretched to the edge of the box that
reaches from minus one to one; two decimals. -/
def edgePoint (angle : Float) : Float × Float :=
  let dx := (Decimal.radians angle).sin
  let dy := -(Decimal.radians angle).cos
  let scale := Decimal.larger dx.abs dy.abs
  let place (v : Float) : Float :=
    unsignedZero (Decimal.roundHalfAway (v / scale * 100.0) / 100.0)
  (place dx, place dy)

/-- A gradient between opposite points on the edge of the box. -/
def linearGradient (angle : Float) (stops : List Design.GradientStop) : Expr :=
  let (x, y) := edgePoint angle
  call "LinearGradient"
    (arg "begin" (raw (alignment (unsignedZero (-x)) (unsignedZero (-y)))) ++
      arg "end" (raw (alignment x y)) ++
      arg "colors" (list (stops.map fun s => raw (color s.color))) ++
      arg "stops" (list (stops.map fun s => number s.position)))

/-! ## Shapes -/

/-- A circular radius. -/
def circular (r : Float) : Expr := raw ("Radius.circular(" ++ Decimal.pointed r ++ ")")

/-- The radii of the corners. -/
def borderRadius? : Design.CornerRadius → Option Expr
  | .none => none
  | .uniform r => some (raw ("BorderRadius.circular(" ++ Decimal.pointed r ++ ")"))
  | .perCorner tl tr br bl =>
    some (call "BorderRadius.only"
      (arg "topLeft" (circular tl) ++ arg "topRight" (circular tr) ++
        arg "bottomRight" (circular br) ++ arg "bottomLeft" (circular bl)))

/-- The insets of a padding, as short as its symmetry allows. -/
def edgeInsets (p : Design.Padding) : Expr :=
  let n := Decimal.pointed
  raw <|
    if p.isUniform then "EdgeInsets.all(" ++ n p.top ++ ")"
    else if p.isSymmetric then
      "EdgeInsets.symmetric(horizontal: " ++ n p.left ++ ", vertical: " ++ n p.top ++ ")"
    else
      "EdgeInsets.only(left: " ++ n p.left ++ ", top: " ++ n p.top ++ ", right: " ++ n p.right ++
        ", bottom: " ++ n p.bottom ++ ")"

/-- An offset. -/
def offset (x y : Float) : Expr :=
  raw ("Offset(" ++ Decimal.pointed x ++ ", " ++ Decimal.pointed y ++ ")")

/-- A blur of the given radius. -/
def blurFilter (radius : Float) : Expr :=
  let sigma := Decimal.pointed (radius / 2.0)
  raw ("ImageFilter.blur(sigmaX: " ++ sigma ++ ", sigmaY: " ++ sigma ++ ")")

/-- The blend mode of a paint. -/
def blendMode (m : Design.BlendMode) : Expr :=
  raw ("BlendMode." ++ Text.camel (Design.Enumeration.word m))

/-! ## Text -/

/-- A weight rounded to a hundred from one to nine. -/
def fontWeight (weight : Nat) : Expr :=
  let hundreds := Decimal.roundDiv .awayFromZero weight 100
  raw ("FontWeight.w" ++ toString (max 1 (min 9 hundreds) * 100))

/-- The decoration of text. -/
def textDecoration? : Design.TextDecoration → Option Expr
  | .none => .none
  | .underline => some (raw "TextDecoration.underline")
  | .strikethrough => some (raw "TextDecoration.lineThrough")

/-- The arguments of the text style of a typography; the color is not among them. -/
def textStyleArgs (t : Design.Typography) : List Arg :=
  arg "fontFamily" (raw (literal t.family)) ++
  arg "fontSize" (number t.size) ++
  arg "fontWeight" (fontWeight t.weight) ++
  argOpt "fontStyle" (if t.italic then some (raw "FontStyle.italic") else none) ++
  argOpt "height"
    (if t.size > 0.0 then t.lineHeight.map fun h => raw (Decimal.plain (h / t.size)) else none) ++
  argOpt "letterSpacing" (if t.letterSpacing != 0.0 then some (number t.letterSpacing) else none) ++
  argOpt "decoration" (textDecoration? t.decoration)

end Handoff.Dart
