import Handoff.Design.Node
import Handoff.Text.Escape

/-!
# Swift values

The values that views and modifiers take: colors, gradients, shapes, fonts and paddings.
-/

namespace Handoff.Swift

open Decimal (plain)

/-- A string literal. -/
def literal (s : String) : String := "\"" ++ Text.swift s ++ "\""

/-- The address of an image as a string literal; it needs no escapes. -/
def placeholder (b : Design.Box) : String := "\"" ++ b.placeholder ++ "\""

/-! ## Colors -/

/-- A color channel with three decimals. -/
def component (c : Float32) : String := Decimal.atMost 3 (Decimal.widen c)

/-- A color: a palette entry or its channels, with opacity unless it is opaque. -/
def color (c : Design.ColorRef) : String :=
  let opacity := plain (Decimal.widen c.color.a)
  match c.palette with
  | some p => if c.color.isOpaque then p.name else p.name ++ ".opacity(" ++ opacity ++ ")"
  | none =>
    "Color(red: " ++ component c.color.r ++ ", green: " ++ component c.color.g ++
      ", blue: " ++ component c.color.b ++
      (if c.color.isOpaque then ")" else ", opacity: " ++ opacity ++ ")")

/-! ## Gradients -/

/-- The names of the points of the unit square at multiples of one half. -/
def pointNames : List ((Int × Int) × String) := [
  ((0, 0), ".topLeading"), ((1, 0), ".top"), ((2, 0), ".topTrailing"),
  ((0, 1), ".leading"), ((1, 1), ".center"), ((2, 1), ".trailing"),
  ((0, 2), ".bottomLeading"), ((1, 2), ".bottom"), ((2, 2), ".bottomTrailing")]

/-- The number of halves in a coordinate. -/
def halves (v : Float) : Int :=
  Decimal.toInt32 (Decimal.roundHalfAway (v * 2.0))

/-- A point of the unit square. -/
def unitPoint (x y : Float) : String :=
  let name :=
    if Decimal.isWhole (x * 2.0) ∧ Decimal.isWhole (y * 2.0) then
      pointNames.lookup (halves x, halves y)
    else none
  match name with
  | some name => name
  | none => "UnitPoint(x: " ++ plain x ++ ", y: " ++ plain y ++ ")"

/-- A stop of a gradient. -/
def stop (s : Design.GradientStop) : String :=
  ".init(color: " ++ color s.color ++ ", location: " ++ plain s.position ++ ")"

/-- A gradient between opposite points on the edge of the unit square, along an angle for
which zero points up. -/
def linearGradient (angle : Float) (stops : List Design.GradientStop) : String :=
  let dx := (Decimal.radians angle).sin
  let dy := -(Decimal.radians angle).cos
  let scale := Decimal.larger dx.abs dy.abs * 2.0
  let round (v : Float) : Float := Decimal.roundHundredths v + 0.0
  let start := unitPoint (round (0.5 - dx / scale)) (round (0.5 - dy / scale))
  let finish := unitPoint (round (0.5 + dx / scale)) (round (0.5 + dy / scale))
  "LinearGradient(stops: [" ++ ", ".intercalate (stops.map stop) ++ "], startPoint: " ++ start ++
    ", endPoint: " ++ finish ++ ")"

/-! ## Shapes -/

/-- The outline of a node, for fills, strokes and clipping. -/
def shape (b : Design.Box) : String :=
  if b.kind = .vector .ellipse then "Ellipse()"
  else
    match b.style.cornerRadius with
    | .none => "Rectangle()"
    | .uniform r => "RoundedRectangle(cornerRadius: " ++ plain r ++ ")"
    | .perCorner tl tr br bl =>
      "UnevenRoundedRectangle(topLeadingRadius: " ++ plain tl ++ ", bottomLeadingRadius: " ++
        plain bl ++ ", bottomTrailingRadius: " ++ plain br ++ ", topTrailingRadius: " ++
        plain tr ++ ")"

/-- Whether the outline of a node is a plain rectangle. -/
def isRectangle (b : Design.Box) : Bool := shape b == "Rectangle()"

/-- What a shape is filled with. -/
def fillStyle (b : Design.Box) : Design.Fill → String
  | .solid c => color c
  | .linearGradient angle stops => linearGradient angle stops
  | .image _ _ => "ImagePaint(image: Image(" ++ placeholder b ++ "))"

/-! ## Text -/

/-- The name of a font weight. -/
def fontWeight (weight : Nat) : String :=
  if weight < 150 then ".ultraLight"
  else if weight < 250 then ".thin"
  else if weight < 350 then ".light"
  else if weight < 450 then ".regular"
  else if weight < 550 then ".medium"
  else if weight < 650 then ".semibold"
  else if weight < 750 then ".bold"
  else if weight < 850 then ".heavy"
  else ".black"

/-- The modifier of a decoration. -/
def textDecoration : Design.TextDecoration → List String
  | .none => []
  | .underline => ["underline()"]
  | .strikethrough => ["strikethrough()"]

/-- The modifiers of a typography. -/
def typography (t : Design.Typography) : List String :=
  ["font(.custom(" ++ literal t.family ++ ", size: " ++ plain t.size ++ ").weight(" ++
    fontWeight t.weight ++ "))"] ++
  (if t.italic then ["italic()"] else []) ++
  (match t.lineHeight with
    | some h => if h > t.size then ["lineSpacing(" ++ plain (h - t.size) ++ ")"] else []
    | none => []) ++
  (if t.letterSpacing != 0.0 then ["tracking(" ++ plain t.letterSpacing ++ ")"] else []) ++
  textDecoration t.decoration

/-! ## Paddings -/

/-- A modifier that is only written when there is some space. -/
def paddingAlong (edges : String) (v : Float) : List String :=
  if v > 0.0 then ["padding(" ++ edges ++ ", " ++ plain v ++ ")"] else []

/-- The modifiers of a padding, as few as its symmetry allows. -/
def padding (p : Design.Padding) : List String :=
  if p.isZero then []
  else if p.isUniform then ["padding(" ++ plain p.top ++ ")"]
  else if p.isSymmetric then paddingAlong ".horizontal" p.left ++ paddingAlong ".vertical" p.top
  else
    ["padding(EdgeInsets(top: " ++ plain p.top ++ ", leading: " ++ plain p.left ++ ", bottom: " ++
      plain p.bottom ++ ", trailing: " ++ plain p.right ++ "))"]

end Handoff.Swift
