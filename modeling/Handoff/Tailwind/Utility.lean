import Handoff.Css.Style
import Handoff.Tailwind.Scale

/-!
# Utility classes

A utility class is a stem and perhaps a suffix.  This module has the classes that do not
depend on a node: colors, gradients, opacities and rotations.

CSS inside a class must not contain spaces; `arbitrary` writes them as underscores.
-/

namespace Handoff.Tailwind

/-- A class: `stem` or `stem-suffix`. -/
structure Utility where
  stem : String
  suffix : Suffix

namespace Utility

/-- The text of a class. -/
def text (u : Utility) : String :=
  u.suffix.after u.stem

/-- A class without a suffix. -/
def bare (stem : String) : Utility := ⟨stem, .nothing⟩

/-- A class with a word as its suffix. -/
def named (stem word : String) : Utility := ⟨stem, .word word⟩

end Utility

/-- CSS as a class can contain it: no space after a comma, underscores for other
spaces. -/
def arbitraryChars : List Char → List Char
  | [] => []
  | ',' :: ' ' :: cs => ',' :: arbitraryChars cs
  | c :: cs => (if c = ' ' then '_' else c) :: arbitraryChars cs

/-- CSS as a class can contain it. -/
def arbitrary (css : String) : String :=
  String.ofList (arbitraryChars css.toList)

/-- A share as a whole number of percent if that is a multiple of five, in brackets
otherwise. -/
def percent (v : Float) : String :=
  let whole := Decimal.roundHalfAway (v * 100.0)
  let n := Decimal.toClampedInt Int64.minValue.toInt Int64.maxValue.toInt whole
  if (v * 100.0 - whole).abs < 0.01 ∧ n % 5 = 0 then toString n
  else "[" ++ Decimal.plain v ++ "]"

/-- A color: its palette name or digits, and its opacity unless it is opaque. -/
def color (c : Design.ColorRef) : String :=
  let name := match c.palette with
    | some p => p.name
    | none => "[" ++ c.color.hex ++ "]"
  if c.color.isOpaque then name
  else name ++ "/" ++ percent (Decimal.widen c.color.a)

/-- The class of a rotation in degrees clockwise. -/
def rotation (degrees : Float) : Utility :=
  let magnitude := degrees.abs
  if rotationScale.any fun r => (r - magnitude).abs < 0.01 then
    .named (if degrees < 0.0 then "-rotate" else "rotate") (Decimal.plain magnitude)
  else .named "rotate" ("[" ++ Decimal.plain degrees ++ "deg]")

/-- The words for the eight directions, clockwise from the top. -/
def directions : List String := ["t", "tr", "r", "br", "b", "bl", "l", "tl"]

/-- The word for the direction of an angle that is a multiple of forty-five degrees. -/
def direction? (angle : Float) : Option String :=
  let step := Decimal.wrap angle 360 / 45.0
  let whole := Decimal.roundHalfAway step
  if (step - whole).abs > 0.01 then none
  else directions[Decimal.toClampedNat (UInt32.size - 1) whole % 8]?

/-- Whether stops lie at the start and the end and, if there are three, in the middle. -/
def evenlySpaced : List Design.GradientStop → Bool
  | [a, b] => a.position == 0.0 && b.position == 1.0
  | [a, b, c] => a.position == 0.0 && (b.position - 0.5).abs < 0.001 && c.position == 1.0
  | _ => false

/-- The classes of the stops of a gradient. -/
def stopClasses : List Design.GradientStop → List Utility
  | [a, b] => [.named "from" (color a.color), .named "to" (color b.color)]
  | [a, b, c] =>
    [.named "from" (color a.color), .named "via" (color b.color), .named "to" (color c.color)]
  | _ => []

/-- The classes of a gradient: a direction and colors where the classes can say it, the
CSS otherwise. -/
def gradient (angle : Float) (stops : List Design.GradientStop) : List Utility :=
  match direction? angle, evenlySpaced stops with
  | some direction, true => .named "bg-gradient-to" direction :: stopClasses stops
  | _, _ => [.named "bg" ("[" ++ arbitrary (Css.linearGradient angle stops) ++ "]")]

end Handoff.Tailwind
