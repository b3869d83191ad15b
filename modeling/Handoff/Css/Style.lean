import Handoff.Css.Declaration
import Handoff.Design.Style

/-!
# Gradients and typography in CSS

The text of a linear gradient, which is also what tells two gradients of a design apart, and
the declarations of a typography, for a text node or for a text style on its own.
-/

namespace Handoff.Css

/-! ## Gradients -/

/-- A stop: its color and its position in percent. -/
def stop (s : Design.GradientStop) : String :=
  s.color.color.css ++ " " ++ Decimal.plain (s.position * 100.0) ++ "%"

/-- `linear-gradient(...)` of an angle and stops. -/
def linearGradient (angle : Float) (stops : List Design.GradientStop) : String :=
  "linear-gradient(" ++ Decimal.plain angle ++ "deg, " ++ ", ".intercalate (stops.map stop) ++ ")"

/-! ## Typography -/

/-- A length in pixels. -/
def px (v : Float) : String := Decimal.plain v ++ "px"

/-- A family name, in quotes if it has a space. -/
def family (name : String) : String :=
  if name.toList.contains ' ' then "'" ++ name ++ "'" else name

/-- The keyword of a horizontal alignment other than left. -/
def textAlign? : Design.TextAlign → Option String
  | .left => none
  | .center => some "center"
  | .right => some "right"
  | .justified => some "justify"

/-- The keyword of a case transform. -/
def textTransform? : Design.TextCase → Option String
  | .original => none
  | .upper => some "uppercase"
  | .lower => some "lowercase"
  | .title => some "capitalize"

/-- The keyword of a decoration. -/
def textDecoration? : Design.TextDecoration → Option String
  | .none => .none
  | .underline => some "underline"
  | .strikethrough => some "line-through"

/-- A declaration that is only made if there is a value. -/
def optional (property : String) (value : Option String) : List Declaration :=
  value.toList.map fun v => ⟨property, v⟩

/-- The declarations of a typography. -/
def typography (t : Design.Typography) : List Declaration :=
  [⟨"font-family", family t.family⟩,
    ⟨"font-size", px t.size⟩,
    ⟨"font-weight", toString t.weight⟩] ++
  (if t.italic then [⟨"font-style", "italic"⟩] else []) ++
  optional "line-height" (t.lineHeight.map px) ++
  (if t.letterSpacing != 0.0 then [⟨"letter-spacing", px t.letterSpacing⟩] else []) ++
  optional "text-align" (textAlign? t.align) ++
  optional "text-transform" (textTransform? t.textCase) ++
  optional "text-decoration" (textDecoration? t.decoration)

end Handoff.Css
