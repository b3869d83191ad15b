import Handoff.Decimal.Rounding

/-!
# Binary floating point, exactly

A finite float is `±mantissa · 2 ^ exponent`.  `Layout` describes how such a number is
packed into a word, `Layout.unpack?` reads a word and `Layout.pack` finds the word
nearest to a number.  The two layouts in use are `Layout.double` and `Layout.single`;
`widen` and `narrow` move between them.

The rounding functions of this module (`roundHalfAway`, `remainder`, `toClampedNat`)
are computed on the unpacked number, so that every one of them is a statement about
naturals.
-/

namespace Handoff.Decimal

/-- The finite number `±mantissa · 2 ^ exponent`; zero keeps its sign. -/
structure Binary where
  negative : Bool
  mantissa : Nat
  exponent : Int
deriving DecidableEq, Repr

/-- The magnitude as a quotient: numerator and denominator. -/
def Binary.ratio (b : Binary) : Nat × Nat :=
  -- Written out, a power is the built-in one also where other monoids are known.
  (b.mantissa * Nat.pow 2 b.exponent.toNat, Nat.pow 2 (-b.exponent).toNat)

/-- The natural nearest to the magnitude times `scale`. -/
def Binary.roundScaled (tie : Tie) (scale : Nat) (b : Binary) : Nat :=
  roundDiv tie (b.ratio.1 * scale) b.ratio.2

/-- The magnitude without its fraction. -/
def Binary.truncate (b : Binary) : Nat :=
  b.ratio.1 / b.ratio.2

/-- How a number is packed into a word: fraction bits, then exponent bits, then the
sign. -/
structure Layout where
  fractionBits : Nat
  exponentBits : Nat

/-- The 64-bit layout. -/
def Layout.double : Layout := ⟨52, 11⟩

/-- The 32-bit layout. -/
def Layout.single : Layout := ⟨23, 8⟩

/-- The exponent field of infinities and NaNs. -/
def Layout.topField (l : Layout) : Nat := Nat.pow 2 l.exponentBits - 1

/-- The exponent of the smallest positive number. -/
def Layout.leastExponent (l : Layout) : Int :=
  2 - Nat.pow 2 (l.exponentBits - 1) - l.fractionBits

/-- The finite number packed in a word, if it is finite. -/
def Layout.unpack? (l : Layout) (word : Nat) : Option Binary :=
  let fraction := word % Nat.pow 2 l.fractionBits
  let field := word / Nat.pow 2 l.fractionBits % Nat.pow 2 l.exponentBits
  let negative := word / Nat.pow 2 (l.fractionBits + l.exponentBits) % 2 == 1
  if field = l.topField then none
  else if field = 0 then some ⟨negative, fraction, l.leastExponent⟩
  else some ⟨negative, fraction + Nat.pow 2 l.fractionBits, l.leastExponent + field - 1⟩

/-- The word of the number nearest to `b`, ties to the even mantissa; a magnitude past
the largest finite number becomes infinity. -/
def Layout.pack (l : Layout) (b : Binary) : Nat :=
  let sign := if b.negative then Nat.pow 2 (l.fractionBits + l.exponentBits) else 0
  if b.mantissa = 0 then sign
  else
    let bits := b.mantissa.log2 + 1
    let quantum := max (b.exponent + bits - l.fractionBits - 1) l.leastExponent
    let shift := b.exponent - quantum
    let rounded :=
      roundDiv .toEven (b.mantissa * Nat.pow 2 shift.toNat) (Nat.pow 2 (-shift).toNat)
    let field := (quantum - l.leastExponent).toNat
    let hidden := Nat.pow 2 l.fractionBits
    sign + min (rounded + field * hidden) (l.topField * hidden)

/-- The finite number of a double. -/
def Binary.ofFloat? (x : Float) : Option Binary :=
  Layout.double.unpack? x.toBits.toNat

/-- The finite number of a single. -/
def Binary.ofFloat32? (x : Float32) : Option Binary :=
  Layout.single.unpack? x.toBits.toNat

/-- The double nearest to a number. -/
def Binary.toFloat (b : Binary) : Float :=
  Float.ofBits (UInt64.ofNat (Layout.double.pack b))

/-- The single nearest to a number. -/
def Binary.toFloat32 (b : Binary) : Float32 :=
  Float32.ofBits (UInt32.ofNat (Layout.single.pack b))

/-! ## Between the two precisions -/

/-- The double that equals a single. -/
def widen (x : Float32) : Float :=
  match Binary.ofFloat32? x with
  | some b => b.toFloat
  | none =>
    if x.isNaN then 0.0 / 0.0
    else if x < 0 then -1.0 / 0.0 else 1.0 / 0.0

/-- The single nearest to a double. -/
def narrow (x : Float) : Float32 :=
  match Binary.ofFloat? x with
  | some b => b.toFloat32
  | none =>
    if x.isNaN then 0.0 / 0.0
    else if x < 0 then -1.0 / 0.0 else 1.0 / 0.0

/-! ## Rounding to integers -/

/-- The nearest integer, halves away from zero; infinities and NaN stay. -/
def roundHalfAway (x : Float) : Float :=
  match Binary.ofFloat? x with
  | some b => (⟨b.negative, b.roundScaled .awayFromZero 1, 0⟩ : Binary).toFloat
  | none => x

/-- The nearest integer of a single, halves away from zero; infinities and NaN stay. -/
def roundHalfAway32 (x : Float32) : Float32 :=
  match Binary.ofFloat32? x with
  | some b => (⟨b.negative, b.roundScaled .awayFromZero 1, 0⟩ : Binary).toFloat32
  | none => x

/-- `v` rounded to two decimal places through a multiplication by one hundred. -/
def roundHundredths (v : Float) : Float :=
  roundHalfAway (v * 100.0) / 100.0

/-- The integer part of `x`, kept within `lo` and `hi`; NaN counts as zero. -/
def toClampedInt (lo hi : Int) (x : Float) : Int :=
  match Binary.ofFloat? x with
  | some b => max lo (min hi (if b.negative then -(b.truncate : Int) else b.truncate))
  | none => if x.isNaN then 0 else if x < 0 then lo else hi

/-- The integer part of `x`, kept within zero and `hi`; NaN counts as zero. -/
def toClampedNat (hi : Nat) (x : Float) : Nat :=
  (toClampedInt 0 hi x).toNat

/-- The integer part of `x`, kept within the integers of 32 bits; NaN counts as zero. -/
def toInt32 (x : Float) : Int :=
  toClampedInt Int32.minValue.toInt Int32.maxValue.toInt x

/-- The integer part of a single, kept within zero and `hi`; NaN counts as zero. -/
def toClampedNat32 (hi : Nat) (x : Float32) : Nat :=
  match Binary.ofFloat32? x with
  | some b => if b.negative then 0 else min hi b.truncate
  | none => if x.isNaN then 0 else if x < 0 then 0 else hi

/-- Whether `x` is a whole number. -/
def isWhole (x : Float) : Bool :=
  match Binary.ofFloat? x with
  | some b => b.ratio.1 % b.ratio.2 == 0
  | none => false

/-- What is left of `x` after taking away as many whole multiples of `modulus` as fit,
with the sign of `x`; exact. -/
def remainder (x : Float) (modulus : Nat) : Float :=
  match Binary.ofFloat? x with
  | some b =>
    let (num, den) := b.ratio
    (⟨b.negative, num % (modulus * den), -(den.log2 : Int)⟩ : Binary).toFloat
  | none => 0.0 / 0.0

/-- The remainder of `x` brought into the range from zero to `modulus` by one addition. -/
def wrap (x : Float) (modulus : Nat) : Float :=
  let r := remainder x modulus
  if r < 0.0 then r + Float.ofNat modulus else r

/-! ## Angles -/

/-- Half a turn in radians. -/
def pi : Float := 3.14159265358979323846

/-- The radians of an angle in degrees. -/
def radians (degrees : Float) : Float := degrees * (pi / 180.0)

/-- The degrees of an angle in radians. -/
def degrees (radians : Float) : Float := radians * (180.0 / pi)

/-! ## Comparing -/

/-- The larger of two doubles; `y` when `x` is NaN. -/
def larger (x y : Float) : Float :=
  if x > y then x else y

/-- `x` kept within `lo` and `hi`; NaN stays. -/
def clamp (x lo hi : Float) : Float :=
  let raised := if x < lo then lo else x
  if raised > hi then hi else raised

/-- `x` kept within zero and one; NaN stays. -/
def clampUnit32 (x : Float32) : Float32 :=
  let raised := if x < 0.0 then 0.0 else x
  if raised > 1.0 then 1.0 else raised

end Handoff.Decimal
