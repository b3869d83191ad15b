import Handoff.Color.Basic
import Handoff.Decimal.Shortest
import Handoff.Text.Hexadecimal

/-!
# Colors as text

`Color.hex` and `Color.hexAlpha` write a color as pairs of hexadecimal digits,
`Color.ofHex?` reads such a text, and `Color.css` is the form in style sheets.

A pair of digits may also be a plus sign and one digit, so the texts that are read are
more than those that are written.
-/

namespace Handoff.Color

open Text (hexPair hexValue?)

/-- `#rrggbb`. -/
def hex (c : Color) : String :=
  let q := c.bytes
  String.ofList ('#' :: hexPair q.r ++ hexPair q.g ++ hexPair q.b)

/-- `#rrggbb`, with the alpha pair unless the color is opaque. -/
def hexAlpha (c : Color) : String :=
  let q := c.bytes
  String.ofList
    ('#' :: hexPair q.r ++ hexPair q.g ++ hexPair q.b ++
      (if q.a = 255 then [] else hexPair q.a))

/-- `#rrggbb` for an opaque color, `rgba(...)` with two decimals of alpha otherwise. -/
def css (c : Color) : String :=
  if c.isOpaque then c.hex
  else
    let q := c.bytes
    let alpha := Decimal.roundHalfAway32 (c.a * 100.0) / 100.0
    "rgba(" ++ toString q.r ++ ", " ++ toString q.g ++ ", " ++ toString q.b ++ ", " ++
      Decimal.singleNumeral alpha ++ ")"

/-- The byte of a pair of characters; the first may be a plus sign. -/
def pairValue? (first second : Char) : Option Nat :=
  if first = '+' then hexValue? second
  else do
    let high ← hexValue? first
    let low ← hexValue? second
    return high * 16 + low

/-- The color of six or eight digit characters. -/
def ofDigits? : List Char → Option Color
  | [r1, r0, g1, g0, b1, b0] => do
    let r ← pairValue? r1 r0
    let g ← pairValue? g1 g0
    let b ← pairValue? b1 b0
    return ofBytes r g b
  | [r1, r0, g1, g0, b1, b0, a1, a0] => do
    let r ← pairValue? r1 r0
    let g ← pairValue? g1 g0
    let b ← pairValue? b1 b0
    let a ← pairValue? a1 a0
    return { ofBytes r g b with a := channel a }
  | _ => none

/-- Reads a hexadecimal color; hash signs at the front are skipped. -/
def ofHex? (s : String) : Option Color :=
  ofDigits? (s.toList.dropWhile (· == '#'))

end Handoff.Color
