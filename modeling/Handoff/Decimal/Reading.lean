import Handoff.Decimal.Binary

/-!
# Reading decimal digits

A number with a fraction or an exponent is read in three steps: the leading digits that
fit into 64 bits become one integer, the integer becomes a double, and the double is
multiplied or divided once by a power of ten.  Each of the last two steps rounds, so a
number of more than fifteen digits may end up one place off the nearest double.

`Significand` holds the digits kept and the power of ten still owed.
-/

namespace Handoff.Decimal

/-- Digits read so far: `value · 10 ^ exponent`, digits that no longer fit being
dropped. -/
structure Significand where
  value : Nat
  exponent : Int
deriving DecidableEq, Repr

namespace Significand

/-- The integers that a significand may hold. -/
def bound : Nat := UInt64.size

/-- Appends the digits before the point; the first that does not fit and all after it
only raise the exponent. -/
def pushWhole (s : Significand) : List Nat → Significand
  | [] => s
  | d :: ds =>
    if s.value * 10 + d < bound then pushWhole { s with value := s.value * 10 + d } ds
    else { s with exponent := s.exponent + (d :: ds).length }

/-- Appends the digits after the point; the first that does not fit and all after it are
dropped. -/
def pushFraction (s : Significand) : List Nat → Significand
  | [] => s
  | d :: ds =>
    if s.value * 10 + d < bound then
      pushFraction ⟨s.value * 10 + d, s.exponent - 1⟩ ds
    else s

/-- The largest power of ten that a double holds. -/
def greatestPower : Nat := 308

/-- The double nearest to a power of ten. -/
def powerOfTen (e : Nat) : Float :=
  Float.ofScientific 1 false e

/-- `x / 10 ^ down`, dividing by the largest power first. -/
def scaleDown (x : Float) (down : Nat) : Float :=
  if greatestPower < down then
    if x == 0.0 then x
    else scaleDown (x / powerOfTen greatestPower) (down - greatestPower)
  else x / powerOfTen down
termination_by down
decreasing_by
  simp only [greatestPower] at *
  omega

/-- The double of a significand; none when it is too large. -/
def toFloat? (s : Significand) : Option Float :=
  let x := Float.ofNat s.value
  if s.exponent < 0 then some (scaleDown x (-s.exponent).toNat)
  else if s.exponent.toNat ≤ greatestPower then
    let scaled := x * powerOfTen s.exponent.toNat
    if scaled.isInf then none else some scaled
  else if s.value = 0 then some x
  else none

end Significand

end Handoff.Decimal
