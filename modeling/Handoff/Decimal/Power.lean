import Handoff.Decimal.Binary

/-!
# Powers of singles

`power x y` is `x ^ y` in single precision, as `2 ^ (y * log2 x)`.  Logarithm and exponential are
polynomials around the nearest entry of a table, evaluated in fixed point.  They are exact enough
for the result to be within 0.52 units in its last place.
-/

namespace Handoff.Decimal

/-! ## Fixed point -/

namespace Fixed

/-- The number one; 64 bits are the fraction. -/
def one : Int := 0x10000000000000000

/-- The product of two numbers. -/
def mul (a b : Int) : Int := a * b / one

/-- A number to a natural power. -/
def pow (a : Int) : Nat → Int
  | 0 => one
  | n + 1 => mul (pow a n) a

/-- The value of a polynomial; the coefficients begin with the constant one. -/
def polynomial (coefficients : List Int) (r : Int) : Int :=
  coefficients.foldr (fun c value => c + mul value r) 0

/-- The multiple of a number by a finite one. -/
def scale (a : Int) (b : Binary) : Int :=
  let magnitude := (a * b.mantissa) <<< b.exponent.toNat >>> (-b.exponent).toNat
  if b.negative then -magnitude else magnitude

end Fixed

/-! ## Logarithm -/

/-- The mantissas from 0.7 to 1.4 in sixteen parts, by a number in the middle of each: its inverse
and its binary logarithm. -/
def logTable : List (Int × Int) := [
  (0x1661ec79f8f3be000, -0x7bfb196e58c06400),
  (0x1571ed4aaf883d000, -0x6c2da0cb53f29000),
  (0x149539f0f010b0000, -0x5d062c287eddec00),
  (0x13c995b0b80385000, -0x4e77a469b73dec00),
  (0x130d190c8864a5000, -0x40766fcfcad8c400),
  (0x125e227b0b8ea0000, -0x32f83a3676f5e000),
  (0x11bb4a4a1a343f000, -0x25f3c7275e793e00),
  (0x112358f08ae5ba000, -0x1960cbbf788d5c00),
  (0x10953f419900a7000, -0xd37cedb23afe700),
  (0x10000000000000000, 0x0),
  (0xf30467ecd23d6000, 0x1338ca9f24f53d00),
  (0xe52598f813550000, 0x28ed52a871237400),
  (0xd901b2bb57e73000, 0x3d08169589c9a400),
  (0xce168b1d0d516800, 0x501917c319947000),
  (0xc437301bc20f6800, 0x623a70b06e7fe000),
  (0xbb3ee7aa9a431000, 0x7382913ac5ef3000)]

/-- The binary logarithm of `1 + r`, as a polynomial in `r`. -/
def logCoefficients : List Int :=
  [0, 0x171547652ab82b000, -0xb8aa3a45f7b64000, 0x7b1c29b29eeb7400, -0x5c65a681d719e800,
    0x49d85b2525b82c00]

/-- The binary logarithm of a multiple of the least positive single whose first bit is in the given
place. -/
def log2From (bits n : Nat) : Int :=
  let fraction := n <<< 23 >>> bits - 0x800000
  -- From 1.4 on, a mantissa counts as half of it in the next octave.
  let octave := if fraction < 0x330000 then 0 else 1
  let z : Int := ((fraction + 0x800000) <<< (41 - octave) : Nat)
  let center := logTable[(fraction + 0x4d0000) % 0x800000 / 0x80000]?.getD (Fixed.one, 0)
  let r := Fixed.mul z center.1 - Fixed.one
  ((bits + octave : Nat) - 149) * Fixed.one + center.2 + Fixed.polynomial logCoefficients r

/-- The binary logarithm of a positive multiple of the least positive single. -/
def log2 (n : Nat) : Int :=
  log2From n.log2 n

/-! ## Exponential -/

/-- The thirty-second root of two. -/
def rootOfTwo : Int := 0x1059b0d31585743ae

/-- Two to the power `r`, as a polynomial in `r`. -/
def expCoefficients : List Int :=
  [Fixed.one, 0xb17217f86296b000, 0x3d7f9ca1f589e600, 0xe357c25c891ca00]

/-- Two to the power `t`, as a binary number. -/
def twoTo (t : Int) : Binary :=
  let steps := (t + 0x400000000000000) / 0x800000000000000
  let r := t - steps * 0x800000000000000
  let mantissa :=
    Fixed.mul (Fixed.polynomial expCoefficients r) (Fixed.pow rootOfTwo (steps % 32).toNat)
  ⟨false, mantissa.toNat, steps / 32 - 64⟩

/-- The single nearest to two to the power `t`. -/
def exp2 (t : Int) : Float32 :=
  (twoTo t).toFloat32

/-! ## Powers -/

/-- `x` to the power `y`. -/
def power (x y : Float32) : Float32 :=
  match Binary.ofFloat32? x, Binary.ofFloat32? y with
  | some base, some exponent =>
    if base.negative ∨ base.mantissa = 0 then Float32.pow x y
    else exp2 (Fixed.scale (log2 (base.mantissa <<< (base.exponent + 149).toNat)) exponent)
  | _, _ => Float32.pow x y

end Handoff.Decimal
