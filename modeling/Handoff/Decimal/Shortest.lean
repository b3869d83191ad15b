import Handoff.Decimal.Numeral

/-!
# The shortest decimal that reads back

A float stands for every real number that rounds to it.  `shortest?` finds the decimal
with the fewest digits in that interval and, of those, the one nearest to the float; a
tie goes to the even digit.

The search is exact: all comparisons are between naturals, after the float, the two ends
of its interval and the candidate are brought to one denominator.  `Positional` says
between which leading exponents the digits are written without an exponent.
-/

namespace Handoff.Decimal

/-- The decimal `digits · 10 ^ exponent`. -/
structure Scientific where
  digits : Nat
  exponent : Int
deriving DecidableEq, Repr

/-- How many decimal digits `n` has. -/
def digitCount (n : Nat) : Nat :=
  (Nat.toDigits 10 n).length

/-- The exponent of the leading decimal digit of `num / den`, both positive. -/
def leadingExponent (num den : Nat) : Int :=
  if den ≤ num then digitCount (num / den) - 1
  else -(digitCount ((den - 1) / num) : Int)

/-- The numbers that round to a float, in units of a quarter of its last place: the
float itself is `4 * mantissa`. -/
structure Neighbourhood where
  low : Nat
  centre : Nat
  high : Nat
  /-- Whether the two ends round to the float as well. -/
  closed : Bool

/-- The interval of a positive float; below a power of two the next float is only half
as far away. -/
def Layout.neighbourhood (l : Layout) (b : Binary) : Neighbourhood where
  low := 4 * b.mantissa -
    (if b.mantissa = Nat.pow 2 l.fractionBits ∧ l.leastExponent < b.exponent then 1 else 2)
  centre := 4 * b.mantissa
  high := 4 * b.mantissa + 2
  closed := b.mantissa % 2 == 0

/-- The decimal of `count` digits nearest to a float whose leading digit is at `lead`,
if it reads back as the float. -/
def Neighbourhood.withDigits? (n : Neighbourhood) (unit lead : Int) (count : Nat) :
    Option Scientific :=
  let exponent := lead - count + 1
  let step := Nat.pow 10 exponent.toNat * Nat.pow 2 (-unit).toNat
  let scale := Nat.pow 2 unit.toNat * Nat.pow 10 (-exponent).toNat
  let inside (candidate : Nat) : Bool :=
    let at_ := candidate * step
    if n.closed then n.low * scale ≤ at_ && at_ ≤ n.high * scale
    else n.low * scale < at_ && at_ < n.high * scale
  let nearest := roundDiv .toEven (n.centre * scale) step
  let below := n.centre * scale / step
  if inside nearest then some ⟨nearest, exponent⟩
  else if inside below then some ⟨below, exponent⟩
  else if inside (below + 1) then some ⟨below + 1, exponent⟩
  else none

/-- The shortest decimal that reads back as a positive float; seventeen digits always
suffice for a double and nine for a single. -/
def shortest? (l : Layout) (b : Binary) : Option Scientific :=
  let (num, den) := b.ratio
  let lead := leadingExponent num den
  ((List.range 17).map (· + 1)).findSome?
    ((l.neighbourhood b).withDigits? (b.exponent - 2) lead)

/-- The leading exponents whose numbers are written without an exponent. -/
structure Positional where
  least : Int
  greatest : Int

/-- Doubles are positional from `1e-5` up to below `1e16`. -/
def Positional.double : Positional := ⟨-5, 15⟩

/-- Singles are positional from `1e-6` up to below `1e13`. -/
def Positional.single : Positional := ⟨-6, 12⟩

/-- The text of a decimal, always with a point or an exponent. -/
def Positional.text (p : Positional) (s : Scientific) : String :=
  let digits := Nat.toDigits 10 s.digits
  let lead : Int := s.exponent + digits.length - 1
  if lead < p.least ∨ p.greatest < lead then
    let head := digits.take 1
    let tail := digits.drop 1
    String.ofList (if tail.isEmpty then head else head ++ '.' :: tail) ++ "e" ++ toString lead
  else if lead < 0 then
    "0." ++ String.ofList (List.replicate (-lead - 1).toNat '0' ++ digits)
  else if 0 ≤ s.exponent then
    String.ofList (digits ++ List.replicate s.exponent.toNat '0') ++ ".0"
  else
    let whole := (lead + 1).toNat
    String.ofList (digits.take whole) ++ "." ++ String.ofList (digits.drop whole)

/-- The text of a finite number under a layout. -/
def Positional.binaryText (p : Positional) (l : Layout) (b : Binary) : String :=
  let sign := if b.negative then "-" else ""
  if b.mantissa = 0 then sign ++ "0.0"
  else match shortest? l b with
    | some s => sign ++ p.text s
    | none => sign

/-- The shortest text of a finite double; none for an infinity or NaN. -/
def doubleText? (x : Float) : Option String :=
  (Binary.ofFloat? x).map (Positional.double.binaryText .double)

/-- The shortest text of a finite single; none for an infinity or NaN. -/
def singleText? (x : Float32) : Option String :=
  (Binary.ofFloat32? x).map (Positional.single.binaryText .single)

/-- The shortest decimal without an exponent and without a fraction of zero. -/
def Scientific.numeralText (s : Scientific) : String :=
  if 0 ≤ s.exponent then
    String.ofList (Nat.toDigits 10 s.digits ++ List.replicate s.exponent.toNat '0')
  else (⟨s.exponent - 1, s.exponent + digitCount s.digits⟩ : Positional).text s

/-- The shortest numeral of a single, never with an exponent. -/
def singleNumeral (x : Float32) : String :=
  match Binary.ofFloat32? x with
  | none => if x.isNaN then "NaN" else if x < 0.0 then "-inf" else "inf"
  | some b =>
    let sign := if b.negative then "-" else ""
    if b.mantissa = 0 then sign ++ "0"
    else match shortest? .single b with
      | some s => sign ++ s.numeralText
      | none => sign

end Handoff.Decimal
