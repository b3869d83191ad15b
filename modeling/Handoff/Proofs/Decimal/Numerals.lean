import Handoff.Decimal.Numeral
import Handoff.Proofs.Decimal.Nearest

/-!
What numerals stand for.

A numeral is read back as its digits (`Spelling.ofChars?`), and they stand for a rational number.
A rounded number is written as the only numeral of its value without superfluous digits or signs
(`canonical_ofInteger`, `value_ofInteger`), so numbers are written alike just if they are rounded to
the same one.  The main statement is `writtenExactly_of_value`.
-/

namespace Handoff.Decimal

/-! ## Spellings -/

/-- The number that digits stand for. -/
def digitsValue (digits : List Char) : ℕ := Nat.ofDigitChars 10 digits 0

/-- A numeral taken apart: its sign, the digits before the point and those after it. -/
structure Spelling where
  negative : Bool
  whole : List Char
  fraction : List Char
deriving DecidableEq

namespace Spelling

/-- The characters after the sign; a point is written if a digit follows. -/
def unsigned (s : Spelling) : List Char :=
  s.whole ++ if s.fraction = [] then [] else '.' :: s.fraction

def chars (s : Spelling) : List Char :=
  if s.negative then '-' :: s.unsigned else s.unsigned

/-- The number without its sign. -/
def magnitude (s : Spelling) : ℚ :=
  digitsValue s.whole + digitsValue s.fraction / 10 ^ s.fraction.length

def value (s : Spelling) : ℚ := if s.negative then -s.magnitude else s.magnitude

/-- There are digits only, and at least one before the point. -/
def IsNumeral (s : Spelling) : Prop :=
  s.whole ≠ [] ∧ (∀ c ∈ s.whole, c.isDigit = true) ∧ ∀ c ∈ s.fraction, c.isDigit = true

instance : DecidablePred IsNumeral := fun _ => inferInstanceAs (Decidable (_ ∧ _))

/-- The numeral that a text is. -/
def ofChars? (cs : List Char) : Option Spelling :=
  let negative := cs.head? == some '-'
  let rest := if negative then cs.tail else cs
  let s : Spelling := ⟨negative, rest.takeWhile Char.isDigit, (rest.dropWhile Char.isDigit).drop 1⟩
  if s.IsNumeral ∧ s.chars = cs then some s else none

/-- A numeral of at most so many places without superfluous digits or signs. -/
structure Canonical (places : ℕ) (s : Spelling) : Prop where
  isNumeral : s.IsNumeral
  /-- The only zero in front of other characters is the one before the point. -/
  leading : s.whole = ['0'] ∨ s.whole.head? ≠ some '0'
  trailing : s.fraction.getLast? ≠ some '0'
  length_le : s.fraction.length ≤ places
  /-- Zero has no sign. -/
  signed : s.negative = true → ¬(s.whole = ['0'] ∧ s.fraction = [])

theorem takeWhile_unsigned {s : Spelling} (numeral : s.IsNumeral) :
    s.unsigned.takeWhile Char.isDigit = s.whole ∧
      (s.unsigned.dropWhile Char.isDigit).drop 1 = s.fraction := by
  obtain ⟨-, digits, -⟩ := numeral
  unfold unsigned
  split
  · rename_i none
    rw [List.append_nil, List.takeWhile_eq_self_iff.mpr digits,
      List.dropWhile_eq_nil_iff.mpr digits, none]
    exact ⟨rfl, rfl⟩
  · rw [List.takeWhile_append_of_pos digits, List.dropWhile_append_of_pos digits,
      List.takeWhile_cons_of_neg (by decide), List.dropWhile_cons_of_neg (by decide)]
    exact ⟨List.append_nil _, rfl⟩

theorem head?_unsigned_ne {s : Spelling} (numeral : s.IsNumeral) :
    s.unsigned.head? ≠ some '-' := by
  obtain ⟨present, digits, -⟩ := numeral
  obtain ⟨c, rest, whole⟩ := List.exists_cons_of_ne_nil present
  rw [whole] at digits
  have digit := digits c List.mem_cons_self
  rw [unsigned, whole, List.cons_append, List.head?_cons]
  rintro ⟨⟩
  exact absurd digit (by decide)

/-- A numeral is read as what it was written for. -/
theorem ofChars?_chars {s : Spelling} (numeral : s.IsNumeral) : ofChars? s.chars = some s := by
  obtain ⟨whole, fraction⟩ := takeWhile_unsigned numeral
  have sign : (s.chars.head? == some '-') = s.negative := by
    unfold chars
    cases s.negative with
    | true => rfl
    | false => exact beq_eq_false_iff_ne.mpr (head?_unsigned_ne numeral)
  have rest : (if s.negative then s.chars.tail else s.chars) = s.unsigned := by
    unfold chars
    cases s.negative <;> rfl
  rw [ofChars?]
  simp only [sign, rest, whole, fraction]
  exact if_pos ⟨numeral, trivial⟩

end Spelling

/-- The number that a text is a numeral of. -/
def denoted? (text : String) : Option ℚ :=
  (Spelling.ofChars? text.toList).map Spelling.value

/-! ## Digits -/

theorem digitsValue_append (first later : List Char) :
    digitsValue (first ++ later) = digitsValue first * 10 ^ later.length + digitsValue later := by
  rw [digitsValue, Nat.ofDigitChars_append, Nat.ofDigitChars_eq_ofDigitChars_zero, Nat.mul_comm]
  rfl

theorem digitsValue_toDigits (n : ℕ) : digitsValue (Nat.toDigits 10 n) = n :=
  Nat.ofDigitChars_ten_toDigits

theorem digitsValue_zero : digitsValue ['0'] = 0 := by
  decide

theorem digitsValue_lowDigits (places n : ℕ) :
    digitsValue ((lowDigits places n).map Nat.digitChar) = n % 10 ^ places := by
  induction places generalizing n with
  | zero =>
      rw [Nat.pow_zero, Nat.mod_one]
      rfl
  | succ places ih =>
      have last : digitsValue [Nat.digitChar (n % 10)] = n % 10 := by
        rw [digitsValue, Nat.ofDigitChars_cons_digitChar_of_lt_ten (Nat.mod_lt _ (by decide)),
          Nat.ofDigitChars_nil]
        omega
      rw [lowDigits, List.map_append, digitsValue_append, ih, List.map_singleton, last,
        List.length_singleton, Nat.pow_one, Nat.pow_succ', Nat.mod_mul]
      omega

/-- All zeros at the end are dropped. -/
theorem eq_withoutTrailingZeros_append (digits : List ℕ) :
    ∃ n, digits = withoutTrailingZeros digits ++ List.replicate n 0 := by
  have split := List.takeWhile_append_dropWhile (p := (· == 0)) (l := digits.reverse)
  have zeros : digits.reverse.takeWhile (· == 0) =
      List.replicate (digits.reverse.takeWhile (· == 0)).length 0 := by
    refine List.eq_replicate_length.mpr fun d member => ?_
    exact beq_iff_eq.mp (List.mem_takeWhile_imp (p := (· == 0)) member)
  refine ⟨(digits.reverse.takeWhile (· == 0)).length, ?_⟩
  rw [withoutTrailingZeros, ← List.reverse_replicate, ← zeros, ← List.reverse_append, split,
    List.reverse_reverse]

theorem getLast?_withoutTrailingZeros (digits : List ℕ) :
    (withoutTrailingZeros digits).getLast? ≠ some 0 := by
  intro last
  rw [withoutTrailingZeros, List.getLast?_reverse] at last
  have other := List.head?_dropWhile_not (· == 0) digits.reverse
  rw [last] at other
  exact absurd other (by decide)

theorem length_withoutTrailingZeros_le (digits : List ℕ) :
    (withoutTrailingZeros digits).length ≤ digits.length := by
  obtain ⟨n, split⟩ := eq_withoutTrailingZeros_append digits
  have total := congrArg List.length split
  rw [List.length_append] at total
  omega

/-- Zeros at the end of a fraction do not count. -/
theorem fraction_withoutTrailingZeros (digits : List ℕ) :
    (digitsValue ((withoutTrailingZeros digits).map Nat.digitChar) : ℚ) /
        10 ^ (withoutTrailingZeros digits).length =
      digitsValue (digits.map Nat.digitChar) / 10 ^ digits.length := by
  obtain ⟨n, split⟩ := eq_withoutTrailingZeros_append digits
  generalize withoutTrailingZeros digits = kept at split
  have zeros : digitsValue (List.replicate n '0') = 0 := by
    rw [digitsValue, Nat.ofDigitChars_replicate_zero, Nat.mul_zero]
  rw [split, List.map_append, List.map_replicate, digitsValue_append, List.length_replicate,
    List.length_append, List.length_replicate, show Nat.digitChar 0 = '0' from rfl, zeros]
  push_cast
  rw [add_zero, pow_add, mul_div_mul_right _ _ (by positivity)]

theorem head?_toDigits_ne_zero {n : ℕ} (positive : 0 < n) :
    (Nat.toDigits 10 n).head? ≠ some '0' := by
  induction n using Nat.strongRecOn with
  | _ n ih =>
      by_cases small : n < 10
      · rw [Nat.toDigits_of_lt_base small, List.head?_cons]
        intro zero
        have := Nat.digitChar_eq_zero.mp (Option.some.inj zero)
        omega
      · have before := ih (n / 10) (by omega) (by omega)
        rw [Nat.toDigits_of_base_le (by decide) (by omega), List.head?_append_of_ne_nil _ Nat.toDigits_ne_nil]
        exact before

/-! ## Rounded numbers -/

namespace Numeral

def spelling (n : Numeral) : Spelling :=
  ⟨n.negative, Nat.toDigits 10 n.whole, n.fraction.map Nat.digitChar⟩

/-- A numeral with at least one digit after the point. -/
def pointedSpelling (n : Numeral) : Spelling :=
  if n.fraction = [] then { n.spelling with fraction := ['0'] } else n.spelling

theorem toList_wholeText (n : Numeral) : n.wholeText.toList =
    if n.negative then '-' :: Nat.toDigits 10 n.whole else Nat.toDigits 10 n.whole := by
  rw [wholeText, String.toList_append, Nat.toList_repr]
  cases n.negative <;> rfl

theorem toList_text (n : Numeral) : n.text.toList = n.spelling.chars := by
  obtain ⟨negative, whole, fraction⟩ := n
  cases fraction with
  | nil =>
      refine (toList_wholeText _).trans ?_
      simp only [spelling, Spelling.chars, Spelling.unsigned, List.map_nil, if_true, List.append_nil]
  | cons d ds =>
      have parts : (Numeral.mk negative whole (d :: ds)).text =
          (Numeral.mk negative whole (d :: ds)).wholeText ++ "." ++ digitsText (d :: ds) := rfl
      rw [parts, String.toList_append, String.toList_append, toList_wholeText, digitsText,
        String.toList_ofList]
      cases negative <;> simp [spelling, Spelling.chars, Spelling.unsigned]

theorem toList_pointedText (n : Numeral) : n.pointedText.toList = n.pointedSpelling.chars := by
  obtain ⟨negative, whole, fraction⟩ := n
  cases fraction with
  | nil =>
      have parts : (Numeral.mk negative whole []).pointedText =
          (Numeral.mk negative whole []).wholeText ++ ".0" := rfl
      rw [parts, String.toList_append, toList_wholeText]
      cases negative <;> simp [pointedSpelling, spelling, Spelling.chars, Spelling.unsigned]
  | cons d ds => exact toList_text ⟨negative, whole, d :: ds⟩

/-- The numeral of a whole number of units in the last place. -/
def ofInteger (places : ℕ) (n : ℤ) : Numeral :=
  ofScaled (decide (n < 0)) places n.natAbs

theorem ofBinary_eq (places : ℕ) (b : Binary) :
    ofBinary places b = ofInteger places (b.roundSigned (10 ^ places)) := by
  rw [ofBinary, ofInteger, Binary.roundSigned, Nat.pow_eq]
  generalize b.roundScaled .toEven (10 ^ places) = n
  unfold ofScaled
  cases b.negative
  · simp
  · by_cases zero : n = 0
    · simp [zero]
    · have sign : (n != 0) = true ∧ -(n : ℤ) < 0 := ⟨bne_iff_ne.mpr zero, by omega⟩
      rw [if_pos rfl, Int.natAbs_neg, Int.natAbs_natCast, sign.1, decide_eq_true sign.2]

section

variable (places : ℕ) (n : ℤ)

theorem isNumeral_ofInteger : (ofInteger places n).spelling.IsNumeral := by
  refine ⟨Nat.toDigits_ne_nil, fun c member => ?_, fun c member => ?_⟩
  · exact Nat.isDigit_of_mem_toDigits (by decide) (by decide) member
  · obtain ⟨d, among, rfl⟩ := List.mem_map.mp member
    rw [Nat.isDigit_digitChar]
    exact decide_eq_true
      (lt_ten_of_mem_withoutTrailingZeros (fun _ => lt_ten_of_mem_lowDigits) d among)

theorem magnitude_ofInteger :
    (ofInteger places n).spelling.magnitude = (n.natAbs : ℚ) / 10 ^ places := by
  have fraction : (digitsValue (ofInteger places n).spelling.fraction : ℚ) /
      10 ^ (ofInteger places n).spelling.fraction.length =
        (n.natAbs % 10 ^ places : ℕ) / 10 ^ places := by
    rw [spelling, List.length_map, ofInteger, ofScaled, fraction_withoutTrailingZeros,
      digitsValue_lowDigits, length_lowDigits]
  have whole : digitsValue (ofInteger places n).spelling.whole = n.natAbs / 10 ^ places :=
    digitsValue_toDigits _
  have split : (n.natAbs / 10 ^ places : ℕ) * (10 : ℚ) ^ places + (n.natAbs % 10 ^ places : ℕ) =
      n.natAbs := by
    exact_mod_cast Nat.div_add_mod' n.natAbs (10 ^ places)
  rw [Spelling.magnitude, fraction, whole, eq_div_iff (by positivity), add_mul,
    div_mul_cancel₀ _ (by positivity)]
  exact split

theorem value_ofInteger : (ofInteger places n).spelling.value = (n : ℚ) / 10 ^ places := by
  have sign : (ofInteger places n).spelling.negative = decide (n < 0) := by
    by_cases negative : n < 0
    · have other : (n.natAbs != 0) = true := bne_iff_ne.mpr (by omega)
      simp only [spelling, ofInteger, ofScaled, other, Bool.and_true]
    · simp only [spelling, ofInteger, ofScaled, negative, decide_false, Bool.false_and]
  rw [Spelling.value, magnitude_ofInteger, sign, Nat.cast_natAbs]
  by_cases negative : n < 0
  · rw [if_pos (decide_eq_true negative), abs_of_neg negative]
    push_cast
    ring
  · rw [decide_eq_false negative, if_neg Bool.false_ne_true, abs_of_nonneg (not_lt.mp negative)]

theorem canonical_ofInteger : (ofInteger places n).spelling.Canonical places where
  isNumeral := isNumeral_ofInteger places n
  leading := by
    rcases Nat.eq_zero_or_pos (ofInteger places n).whole with zero | positive
    · left
      rw [spelling, zero]
      rfl
    · exact .inr (head?_toDigits_ne_zero positive)
  trailing := by
    intro last
    rw [spelling, List.getLast?_map, Option.map_eq_some_iff] at last
    obtain ⟨d, last, zero⟩ := last
    obtain rfl := Nat.digitChar_eq_zero.mp zero
    exact getLast?_withoutTrailingZeros _ last
  length_le := by
    rw [spelling, List.length_map]
    exact (length_withoutTrailingZeros_le _).trans_eq (length_lowDigits _ _)
  signed := by
    rintro negative ⟨whole, fraction⟩
    have magnitude := magnitude_ofInteger places n
    have none : (ofInteger places n).spelling.magnitude = 0 := by
      rw [Spelling.magnitude, whole, fraction, digitsValue_zero]
      norm_num [digitsValue]
    rw [none, eq_comm, div_eq_zero_iff, or_iff_left (by positivity), Nat.cast_eq_zero] at magnitude
    simp [spelling, ofInteger, ofScaled, magnitude] at negative

end

end Numeral

/-! ## Numerals of floats -/

/-- A number is rounded to so many decimal places, ties to even. -/
def RoundsTo (places : ℕ) (q r : ℚ) : Prop :=
  ∃ n : ℤ, IsNearest (q * 10 ^ places) n ∧ r = n / 10 ^ places

theorem RoundsTo.unique {places : ℕ} {q r t : ℚ} (first : RoundsTo places q r)
    (second : RoundsTo places q t) : r = t := by
  obtain ⟨n, nearest, rfl⟩ := first
  obtain ⟨m, nearest', rfl⟩ := second
  rw [nearest.unique nearest']

/-- A whole number is not rounded. -/
theorem RoundsTo.natCast (places n : ℕ) : RoundsTo places n n := by
  refine ⟨n * 10 ^ places, ?_, ?_⟩
  · exact_mod_cast IsNearest.intCast (n * 10 ^ places)
  · push_cast
    rw [mul_div_cancel_right₀ _ (by positivity)]

/-- Rounding moves a number by half a unit in the last place at most. -/
theorem RoundsTo.abs_sub_le {places : ℕ} {q r : ℚ} (rounded : RoundsTo places q r) :
    |r - q| ≤ 1 / 2 / 10 ^ places := by
  obtain ⟨n, nearest, rfl⟩ := rounded
  have scale : (0 : ℚ) < 10 ^ places := by positivity
  have same : |(n : ℚ) / 10 ^ places - q| = |q * 10 ^ places - n| / 10 ^ places := by
    rw [abs_sub_comm, ← abs_of_pos scale, ← abs_div, sub_div, abs_of_pos scale,
      mul_div_cancel_right₀ _ scale.ne']
  rw [same]
  gcongr
  exact nearest.near

section

variable {x y : Float} {q r : ℚ}

/-- A finite number is written as the numeral of the integer that it is rounded to, in units of the
last place. -/
theorem exists_atMost (value : HasValue x q) (places : ℕ) :
    ∃ n : ℤ, IsNearest (q * 10 ^ places) n ∧
      atMost places x = (Numeral.ofInteger places n).text := by
  obtain ⟨b, read, rfl⟩ := value
  have nearest := b.isNearest_roundSigned (10 ^ places)
  push_cast at nearest
  refine ⟨_, nearest, ?_⟩
  rw [atMost, read, ← Numeral.ofBinary_eq]

theorem ofChars?_text (places : ℕ) (n : ℤ) :
    Spelling.ofChars? (Numeral.ofInteger places n).text.toList =
      some (Numeral.ofInteger places n).spelling := by
  rw [Numeral.toList_text, Spelling.ofChars?_chars (Numeral.isNumeral_ofInteger places n)]

theorem denoted?_text (places : ℕ) (n : ℤ) :
    denoted? (Numeral.ofInteger places n).text = some ((n : ℚ) / 10 ^ places) := by
  rw [denoted?, ofChars?_text, Option.map_some, Numeral.value_ofInteger]

theorem exists_denoted?_atMost (value : HasValue x q) (places : ℕ) :
    ∃ r, RoundsTo places q r ∧ denoted? (atMost places x) = some r := by
  obtain ⟨n, nearest, text⟩ := exists_atMost value places
  exact ⟨_, ⟨n, nearest, rfl⟩, text ▸ denoted?_text places n⟩

/-- Numbers are written alike if they are rounded to the same number, and only then. -/
theorem atMost_eq_iff (hx : HasValue x q) (hy : HasValue y r) (places : ℕ) :
    atMost places x = atMost places y ↔ ∃ t, RoundsTo places q t ∧ RoundsTo places r t := by
  constructor
  · intro same
    obtain ⟨t, rounded, read⟩ := exists_denoted?_atMost hx places
    obtain ⟨t', rounded', read'⟩ := exists_denoted?_atMost hy places
    rw [same, read', Option.some_inj] at read
    exact ⟨t, rounded, read ▸ rounded'⟩
  · rintro ⟨t, ⟨n, nearest, rfl⟩, n', nearest', same⟩
    obtain ⟨m, own, text⟩ := exists_atMost hx places
    obtain ⟨m', own', text'⟩ := exists_atMost hy places
    have scale : (10 : ℚ) ^ places ≠ 0 := by positivity
    rw [div_left_inj' scale, Int.cast_inj] at same
    rw [text, text', own.unique nearest, own'.unique nearest', same]

/-- How a finite float is written. -/
structure WrittenExactly (x : Float) (q : ℚ) : Prop where
  /-- With any number of places it is written as a numeral without superfluous digits or signs,
  which stands for what the number is rounded to. -/
  canonical : ∀ places, ∃ s, Spelling.ofChars? (atMost places x).toList = some s ∧
    s.Canonical places ∧ RoundsTo places q s.value
  /-- It is written as another one just if both are rounded to the same number. -/
  alike_iff : ∀ places y r, HasValue y r →
    (atMost places x = atMost places y ↔ ∃ t, RoundsTo places q t ∧ RoundsTo places r t)
  /-- As a literal it is written with digits on both sides of the point, and is the same number. -/
  pointed : ∃ s, Spelling.ofChars? (pointed x).toList = some s ∧ s.fraction ≠ [] ∧
    denoted? (plain x) = some s.value

theorem Numeral.isNumeral_pointedSpelling {n : Numeral} (numeral : n.spelling.IsNumeral) :
    n.pointedSpelling.IsNumeral ∧ n.pointedSpelling.fraction ≠ [] ∧
      n.pointedSpelling.value = n.spelling.value := by
  unfold pointedSpelling
  split
  · rename_i none
    have zero : ∀ c ∈ ['0'], c.isDigit = true := List.forall_mem_singleton.mpr rfl
    refine ⟨⟨numeral.1, numeral.2.1, zero⟩, List.cons_ne_nil _ _, ?_⟩
    have nothing : digitsValue [] = 0 := rfl
    simp only [Spelling.value, Spelling.magnitude, spelling, none, List.map_nil, nothing,
      digitsValue_zero, Nat.cast_zero, zero_div]
  · rename_i some
    exact ⟨numeral, fun none => some (List.map_eq_nil_iff.mp none), rfl⟩

/-- Every finite float is written exactly. -/
theorem writtenExactly_of_value (value : HasValue x q) : WrittenExactly x q where
  canonical places := by
    obtain ⟨n, nearest, text⟩ := exists_atMost value places
    refine ⟨_, text ▸ ofChars?_text places n, Numeral.canonical_ofInteger places n, n, nearest, ?_⟩
    exact Numeral.value_ofInteger places n
  alike_iff places _ _ other := atMost_eq_iff value other places
  pointed := by
    obtain ⟨b, read, -⟩ := value
    have numeral := Numeral.isNumeral_ofInteger 2 (b.roundSigned (10 ^ 2))
    obtain ⟨pointedNumeral, digits, same⟩ := Numeral.isNumeral_pointedSpelling numeral
    have literal : Decimal.pointed x = (Numeral.ofBinary 2 b).pointedText := by
      rw [Decimal.pointed, read]
    have short : plain x = (Numeral.ofBinary 2 b).text := by rw [plain, atMost, read]
    refine ⟨_, ?_, digits, ?_⟩
    · rw [literal, Numeral.ofBinary_eq, Numeral.toList_pointedText,
        Spelling.ofChars?_chars pointedNumeral]
    · rw [short, Numeral.ofBinary_eq, denoted?, ofChars?_text, Option.map_some, same]

end

/-- Minus one eighth lies halfway between two numbers of two places. -/
theorem hasValue_eighth : HasValue (-0.125) (-1 / 8) := by
  refine ⟨⟨true, 4503599627370496, -55⟩, by decide +kernel, ?_⟩
  norm_num [Binary.value, Binary.magnitude, zpow_neg]

theorem writtenExactly_eighth :
    HasValue (-0.125) (-1 / 8) ∧ WrittenExactly (-0.125) (-1 / 8) :=
  ⟨hasValue_eighth, writtenExactly_of_value hasValue_eighth⟩

end Handoff.Decimal
