import Handoff.Color.Basic
import Handoff.Decimal.Power

/-!
# How colors look

The coordinates of a color in the CIE L*a*b* space and the distance between two colors
in it, the relative luminance of a color, and the contrast ratio of two.  All arithmetic
is in single precision; alpha plays no part.
-/

namespace Handoff

/-- Lightness and the two color axes. -/
structure Lab where
  l : Float32
  a : Float32
  b : Float32

namespace Lab

/-- The companding function of the space: a cube root with a straight line near zero. -/
def compand (t : Float32) : Float32 :=
  let delta : Float32 := 6.0 / 29.0
  if t > delta * delta * delta then Decimal.power t (1.0 / 3.0)
  else t / (3.0 * delta * delta) + 4.0 / 29.0

/-- The straight-line distance of two points (CIE76). -/
def distance (p q : Lab) : Float32 :=
  let dl := p.l - q.l
  let da := p.a - q.a
  let db := p.b - q.b
  (dl * dl + da * da + db * db).sqrt

end Lab

namespace Color

/-- A channel in linear light. -/
def linear (c : Float32) : Float32 :=
  let c := Decimal.clampUnit32 c
  if c ≤ 0.04045 then c / 12.92
  else Decimal.power ((c + 0.055) / 1.055) 2.4

/-- The color in L*a*b* under the D65 white point. -/
def lab (c : Color) : Lab :=
  let r := linear c.r
  let g := linear c.g
  let b := linear c.b
  let x := (r * 0.4124564 + g * 0.3575761 + b * 0.1804375) * 100.0
  let y := (r * 0.2126729 + g * 0.7151522 + b * 0.0721750) * 100.0
  let z := (r * 0.0193339 + g * 0.1191920 + b * 0.9503041) * 100.0
  let fx := Lab.compand (x / 95.047)
  let fy := Lab.compand (y / 100.0)
  let fz := Lab.compand (z / 108.883)
  ⟨116.0 * fy - 16.0, 500.0 * (fx - fy), 200.0 * (fy - fz)⟩

/-- The perceptual distance of two colors. -/
def deltaE (c d : Color) : Float32 :=
  c.lab.distance d.lab

/-- The relative luminance of a color. -/
def luminance (c : Color) : Float32 :=
  0.2126 * linear c.r + 0.7152 * linear c.g + 0.0722 * linear c.b

/-- The contrast ratio of two colors, from one to twenty-one. -/
def contrast (c d : Color) : Float32 :=
  let lc := c.luminance
  let ld := d.luminance
  if lc ≥ ld then (lc + 0.05) / (ld + 0.05) else (ld + 0.05) / (lc + 0.05)

end Color

end Handoff
