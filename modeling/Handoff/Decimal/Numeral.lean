import Handoff.Decimal.Binary

/-!
# Decimal numerals

The library writes a number with at most so many decimal places and without trailing
zeros.  A `Numeral` is what is left to print once the rounding is done: a sign, a whole
part and the digits after the point.

`Numeral.ofScaled` builds the numeral of `scaled / 10 ^ places`; its fraction never
ends in zero and zero never has a sign, so equal numbers have equal numerals.
-/

namespace Handoff.Decimal

/-- The last `places` decimal digits of `n`, the most significant first. -/
def lowDigits : (places n : Nat) → List Nat
  | 0, _ => []
  | places + 1, n => lowDigits places (n / 10) ++ [n % 10]

@[simp]
theorem length_lowDigits (places n : Nat) : (lowDigits places n).length = places := by
  induction places generalizing n with
  | zero => rfl
  | succ places ih => simp [lowDigits, ih]

theorem lt_ten_of_mem_lowDigits {d places n : Nat} (h : d ∈ lowDigits places n) : d < 10 := by
  induction places generalizing n with
  | zero => simp [lowDigits] at h
  | succ places ih =>
    rcases List.mem_append.1 h with h | h
    · exact ih h
    · rw [List.mem_singleton.1 h]
      exact Nat.mod_lt _ (by decide)

/-- The digits without the zeros at the end. -/
def withoutTrailingZeros (digits : List Nat) : List Nat :=
  (digits.reverse.dropWhile (· == 0)).reverse

theorem lt_ten_of_mem_withoutTrailingZeros {digits : List Nat} (small : ∀ d ∈ digits, d < 10) :
    ∀ d ∈ withoutTrailingZeros digits, d < 10 := by
  intro d member
  rw [withoutTrailingZeros, List.mem_reverse] at member
  exact small d (List.mem_reverse.mp (List.dropWhile_subset _ member))

/-- A printed decimal number: sign, whole part, digits after the point. -/
structure Numeral where
  negative : Bool
  whole : Nat
  fraction : List Nat
deriving DecidableEq, Repr

namespace Numeral

/-- The numeral of `±scaled / 10 ^ places`; zero has no sign. -/
def ofScaled (negative : Bool) (places scaled : Nat) : Numeral where
  negative := negative && scaled != 0
  whole := scaled / Nat.pow 10 places
  fraction := withoutTrailingZeros (lowDigits places scaled)

/-- The numeral of a finite number rounded to `places` decimal places, ties to even. -/
def ofBinary (places : Nat) (b : Binary) : Numeral :=
  ofScaled b.negative places (b.roundScaled .toEven (Nat.pow 10 places))

/-- The sign and the whole part. -/
def wholeText (n : Numeral) : String :=
  (if n.negative then "-" else "") ++ Nat.repr n.whole

/-- The digits of a list, each as its character. -/
def digitsText (digits : List Nat) : String :=
  String.ofList (digits.map Nat.digitChar)

/-- The numeral with a point only when a digit follows it. -/
def text (n : Numeral) : String :=
  match n.fraction with
  | [] => n.wholeText
  | digits => n.wholeText ++ "." ++ digitsText digits

/-- The numeral with a point and at least one digit after it. -/
def pointedText (n : Numeral) : String :=
  match n.fraction with
  | [] => n.wholeText ++ ".0"
  | digits => n.wholeText ++ "." ++ digitsText digits

end Numeral

/-- The word for a number that has no numeral. -/
def nonFiniteText (x : Float) : String :=
  if x.isNaN then "NaN" else if x < 0.0 then "-inf" else "inf"

/-- `x` with at most `places` decimal places. -/
def atMost (places : Nat) (x : Float) : String :=
  match Binary.ofFloat? x with
  | some b => (Numeral.ofBinary places b).text
  | none => nonFiniteText x

/-- `x` with at most two decimal places: the form of every length, angle and percentage. -/
def plain (x : Float) : String :=
  atMost 2 x

/-- `x` with at most two decimal places and always a point, as a floating-point literal. -/
def pointed (x : Float) : String :=
  match Binary.ofFloat? x with
  | some b => (Numeral.ofBinary 2 b).pointedText
  | none => nonFiniteText x ++ ".0"

/-- `x` with exactly `places` decimal places, at least one; zero has no sign. -/
def exactly (places : Nat) (x : Float) : String :=
  match Binary.ofFloat? x with
  | some b =>
    let scaled := b.roundScaled .toEven (Nat.pow 10 places)
    let n := Numeral.ofScaled b.negative places scaled
    n.wholeText ++ "." ++ Numeral.digitsText (lowDigits places scaled)
  | none => nonFiniteText x

end Handoff.Decimal
