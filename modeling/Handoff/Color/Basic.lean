import Handoff.Json.Decode

/-!
# Colors

A color has four channels, singles between zero and one; out-of-range channels are kept
and only clamped when a color is turned into bytes.  `Color.bytes` is the rounding to 8
bits a channel that every written form of a color goes through.
-/

namespace Handoff

/-- A color with an alpha channel. -/
structure Color where
  r : Float32
  g : Float32
  b : Float32
  a : Float32
deriving BEq, Inhabited

/-- A color rounded to eight bits a channel. -/
structure Rgba8 where
  r : Nat
  g : Nat
  b : Nat
  a : Nat
deriving DecidableEq, Repr

namespace Color

/-- An opaque color. -/
def rgb (r g b : Float32) : Color := ⟨r, g, b, 1.0⟩

/-- Opaque white. -/
def white : Color := rgb 1.0 1.0 1.0

/-- Opaque black. -/
def black : Color := rgb 0.0 0.0 0.0

/-- The channel of a byte. -/
def channel (byte : Nat) : Float32 := Float32.ofNat byte / 255.0

/-- The opaque color of three bytes. -/
def ofBytes (r g b : Nat) : Color := rgb (channel r) (channel g) (channel b)

/-- A channel clamped to the unit interval and rounded to a byte. -/
def byte (c : Float32) : Nat :=
  Decimal.toClampedNat32 255 (Decimal.roundHalfAway32 (Decimal.clampUnit32 c * 255.0))

/-- The color rounded to bytes. -/
def bytes (c : Color) : Rgba8 := ⟨byte c.r, byte c.g, byte c.b, byte c.a⟩

/-- Whether alpha rounds to fully opaque. -/
def isOpaque (c : Color) : Bool := byte c.a == 255

/-- The color under a layer of the given opacity. -/
def withOpacity (c : Color) (opacity : Float32) : Color :=
  { c with a := Decimal.clampUnit32 (c.a * opacity) }

/-! ## JSON -/

/-- The channels by name. -/
def toJson (c : Color) : Json :=
  .obj [("r", .single c.r), ("g", .single c.g), ("b", .single c.b), ("a", .single c.a)]

/-- Alpha may be missing and is then one. -/
def ofJson? : Json.Decoder Color := fun json => do
  let f ← Json.fields? ["r", "g", "b", "a"] json
  let r ← f.required "r" Json.single?
  let g ← f.required "g" Json.single?
  let b ← f.required "b" Json.single?
  let a ← f.withDefault "a" 1.0 Json.single?
  return ⟨r, g, b, a⟩

end Color

end Handoff
