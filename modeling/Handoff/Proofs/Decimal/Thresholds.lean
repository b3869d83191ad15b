import Handoff.Proofs.Decimal.Order
import Handoff.Proofs.Decimal.Unpacked

/-!
Which lengths are written as zero.

A length is written with two decimal places, so it is written as `0` if it is less than half a
hundredth (`plain_eq_zero_iff`).  The comparisons are made on the unpacked numbers, where a length
is infinite or has a mantissa and an exponent (`positive_cases`).

A number is written as its magnitude after its sign (`plain_eq_abs`).
-/

namespace Handoff.Decimal

open Float.Model (UnpackedFloat)

/-! ## Comparisons -/

/-- The sign of zero does not show in a comparison. -/
theorem compare_unsignedZero (x y : UnpackedFloat) : x.compare (unsignedZero y) = x.compare y := by
  cases y with
  | zero s => rcases x with (_ | _) | _ | _ | ⟨_ | _, _, _, _⟩ <;> rfl
  | _ => rfl

/-- Equal floats are at least as large as the same. -/
theorem le_congr {a b : Float} (same : (a == b) = true) (x : Float) : x ≤ a ↔ x ≤ b := by
  have unpacked := (beq_iff.mp same).1
  rw [le_iff, le_iff, UnpackedFloat.le, UnpackedFloat.le, ← compare_unsignedZero _ a.toModel.unpack,
    unpacked, compare_unsignedZero]

theorem unpack_hundredth :
    (0.01 : Float).toModel.unpack = .finite .positive 5764607523034235 (-59) (by decide) := by
  rfl

theorem unpack_half_hundredth :
    (0.005 : Float).toModel.unpack = .finite .positive 5764607523034235 (-60) (by decide) := by
  rfl

theorem not_hundredth_le_zero : ¬(0.01 : Float) ≤ 0.0 := by
  rw [le_iff, unpack_hundredth, unpack_zero]
  decide

theorem not_half_hundredth_le_zero : ¬(0.005 : Float) ≤ 0.0 := by
  rw [le_iff, unpack_half_hundredth, unpack_zero]
  decide

/-- A positive float is infinite or has a mantissa and an exponent. -/
theorem positive_cases {v : Float} (positive : 0.0 < v) :
    v.toModel.unpack = .infinity .positive ∨
      ∃ m e h, v.toModel.unpack = .finite .positive m e h := by
  rw [lt_iff, unpack_zero] at positive
  rcases unpacked : v.toModel.unpack with (_ | _) | _ | _ | ⟨_ | _, m, e, h⟩
  case infinity.positive => exact .inl rfl
  case finite.positive => exact .inr ⟨m, e, h, rfl⟩
  all_goals
    rw [unpacked] at positive
    cases positive

/-- Positive numbers are compared by their exponents first. -/
theorem finite_le_iff {m n : Nat} {e f : Int} (hm : 0 < m) (hn : 0 < n) :
    (UnpackedFloat.finite .positive m e hm).le (.finite .positive n f hn) = true ↔
      e < f ∨ e = f ∧ m ≤ n := by
  change ((compare e f).then (compare m n)).isLE = true ↔ _
  rcases Int.lt_trichotomy e f with less | rfl | more
  · simp [Int.compare_eq_lt.mpr less, less]
  · simp [Nat.isLE_compare]
  · rw [Int.compare_eq_gt.mpr more]
    exact iff_of_false (by simp) (by omega)

theorem finite_lt_iff {m n : Nat} {e f : Int} (hm : 0 < m) (hn : 0 < n) :
    (UnpackedFloat.finite .positive m e hm).lt (.finite .positive n f hn) = true ↔
      e < f ∨ e = f ∧ m < n := by
  change (some ((compare e f).then (compare m n)) == some .lt) = true ↔ _
  rcases Int.lt_trichotomy e f with less | rfl | more
  · simp [Int.compare_eq_lt.mpr less, less]
  · simp [Nat.compare_eq_lt]
  · rw [Int.compare_eq_gt.mpr more]
    exact iff_of_false (by simp) (by omega)

/-- What is not less than a hundredth is at least one. -/
theorem not_lt_hundredth {v : Float} (positive : 0.0 < v) : ¬v < 0.01 ↔ 0.01 ≤ v := by
  rw [lt_iff, le_iff, unpack_hundredth]
  rcases positive_cases positive with infinite | ⟨m, e, h, finite⟩
  · rw [infinite]
    decide
  · rw [finite, finite_le_iff, finite_lt_iff]
    omega

/-- A hundredth is more than half a hundredth. -/
theorem half_hundredth_le {v : Float} (positive : 0.0 < v) (large : 0.01 ≤ v) : 0.005 ≤ v := by
  rw [le_iff, unpack_hundredth] at large
  rw [le_iff, unpack_half_hundredth]
  rcases positive_cases positive with infinite | ⟨m, e, h, finite⟩
  · rw [infinite]
    decide
  · rw [finite, finite_le_iff] at large ⊢
    omega

/-! ## Numerals that read zero -/

theorem repr_eq_zero {n : Nat} (zero : Nat.repr n = "0") : n = 0 := by
  have chars := congrArg String.toList zero
  rw [Nat.toList_repr] at chars
  have value := congrArg (Nat.ofDigitChars 10 · 0) chars
  rw [Nat.ofDigitChars_ten_toDigits] at value
  exact value

/-- If there are only zeros behind the point, the number is whole. -/
theorem hundred_dvd_of_fraction {scaled : Nat}
    (none : withoutTrailingZeros (lowDigits 2 scaled) = []) : scaled % 100 = 0 := by
  have digits : ([scaled % 10, scaled / 10 % 10].dropWhile (· == 0)).reverse = [] := none
  have ones : scaled % 10 = 0 :=
    Decidable.byContradiction fun other => by simp [other] at digits
  have tens : scaled / 10 % 10 = 0 :=
    Decidable.byContradiction fun other => by simp [ones, other] at digits
  omega

theorem Numeral.text_ofScaled_eq_zero_iff (negative : Bool) (scaled : Nat) :
    (Numeral.ofScaled negative 2 scaled).text = "0" ↔ scaled = 0 := by
  constructor
  · intro zero
    rw [Numeral.text] at zero
    split at zero
    · rename_i none
      have rest := hundred_dvd_of_fraction none
      have whole : scaled / 100 = 0 := by
        refine repr_eq_zero ?_
        simp only [Numeral.wholeText] at zero
        split at zero
        · have sign : '-' ∈ ("0" : String).toList := by
            rw [← zero]
            simp
          exact absurd sign (by decide)
        · rwa [String.empty_append] at zero
      omega
    · have point : '.' ∈ ("0" : String).toList := by
        rw [← zero]
        simp
      exact absurd point (by decide)
  · rintro rfl
    cases negative <;> decide

theorem roundDiv_eq_zero {tie : Tie} {num den : Nat} (small : 2 * num < den) :
    roundDiv tie num den = 0 := by
  have whole : num / den = 0 := Nat.div_eq_of_lt (by omega)
  have rest : num % den = num := Nat.mod_eq_of_lt (by omega)
  have stays : roundsUp tie num den = false := by
    simp only [roundsUp, rest]
    rw [if_neg (by omega), decide_eq_false (by omega)]
  rw [roundDiv, whole, stays]
  rfl

theorem roundDiv_ne_zero {tie : Tie} {num den : Nat} (positive : 0 < den) (large : den < 2 * num) :
    roundDiv tie num den ≠ 0 := by
  intro zero
  have := le_two_mul_roundDiv tie num den positive
  rw [zero] at this
  omega

/-- A length is written as zero if it is less than half a hundredth. -/
theorem plain_eq_zero_iff {v : Float} (positive : 0.0 < v) : plain v = "0" ↔ ¬0.005 ≤ v := by
  have canonical := canonical_float v
  rw [le_iff, unpack_half_hundredth, plain, atMost, ofFloat?_eq]
  rcases positive_cases positive with infinite | ⟨m, e, h, finite⟩
  · have word : nonFiniteText v ≠ "0" := by
      unfold nonFiniteText
      repeat' split
      all_goals decide
    rw [infinite]
    exact iff_of_false word (by decide)
  · rw [finite] at canonical ⊢
    rw [finite_le_iff]
    obtain ⟨fits, least, greatest, leading⟩ := canonical
    refine (Numeral.text_ofScaled_eq_zero_iff _ _).trans ?_
    change roundDiv .toEven (m * 2 ^ e.toNat * 100) (2 ^ (-e).toNat) = 0 ↔ _
    rcases Int.lt_trichotomy e (-60) with less | rfl | more
    · have small : 2 * (m * 2 ^ e.toNat * 100) < 2 ^ (-e).toNat := by
        have power : 2 ^ 61 ≤ 2 ^ (-e).toNat := Nat.pow_le_pow_right (by decide) (by omega)
        have whole : e.toNat = 0 := by omega
        rw [whole]
        omega
      exact iff_of_true (roundDiv_eq_zero small) (by omega)
    · change roundDiv .toEven (m * 1 * 100) 1152921504606846976 = 0 ↔ _
      by_cases large : 5764607523034235 ≤ m
      · exact iff_of_false (roundDiv_ne_zero (by decide) (by omega)) (by omega)
      · exact iff_of_true (roundDiv_eq_zero (by omega)) (by omega)
    · have large : 2 ^ (-e).toNat < 2 * (m * 2 ^ e.toNat * 100) := by
        have power : 2 ^ (-e).toNat ≤ 2 ^ 59 := Nat.pow_le_pow_right (by decide) (by omega)
        have mantissa : m * 1 ≤ m * 2 ^ e.toNat := Nat.mul_le_mul_left m (Nat.two_pow_pos _)
        omega
      exact iff_of_false (roundDiv_ne_zero (Nat.two_pow_pos _) large) (by omega)

/-! ## Signs -/

/-- A numeral that is not zero has its sign first. -/
theorem Numeral.text_ofScaled_negative {scaled : Nat} (other : scaled ≠ 0) :
    (Numeral.ofScaled true 2 scaled).text = "-" ++ (Numeral.ofScaled false 2 scaled).text := by
  have signed : (Numeral.ofScaled true 2 scaled).wholeText =
      "-" ++ (Numeral.ofScaled false 2 scaled).wholeText := by
    simp [Numeral.wholeText, Numeral.ofScaled, other]
  have fraction : (Numeral.ofScaled true 2 scaled).fraction =
      (Numeral.ofScaled false 2 scaled).fraction := rfl
  rw [Numeral.text, Numeral.text, fraction, signed]
  split <;> simp only [String.append_assoc]

theorem Numeral.text_ofBinary_negative (m : Nat) (e : Int) :
    (Numeral.ofBinary 2 ⟨true, m, e⟩).text =
      if (Numeral.ofBinary 2 ⟨false, m, e⟩).text = "0" then "0"
      else "-" ++ (Numeral.ofBinary 2 ⟨false, m, e⟩).text := by
  have magnitude : Binary.roundScaled .toEven (Nat.pow 10 2) ⟨true, m, e⟩ =
      Binary.roundScaled .toEven (Nat.pow 10 2) ⟨false, m, e⟩ := rfl
  simp only [Numeral.ofBinary, magnitude, text_ofScaled_eq_zero_iff]
  split
  · rename_i none
    exact (text_ofScaled_eq_zero_iff true _).mpr none
  · exact text_ofScaled_negative ‹_›

/-- A number is written as its magnitude, after a sign if it is negative and not written as
zero. -/
theorem plain_eq_abs (x : Float) : plain x =
    if x < 0.0 then if plain x.abs = "0" then "0" else "-" ++ plain x.abs else plain x.abs := by
  simp only [plain, atMost, ofFloat?_eq, unpack_abs, lt_iff, unpack_zero, nonFiniteText,
    Float.isNaN, Float.Model.isNaN]
  rcases x.toModel.unpack with (_ | _) | _ | (_ | _) | ⟨_ | _, m, e, h⟩
  case finite.negative => exact Numeral.text_ofBinary_negative m e
  case finite.positive => rfl
  all_goals decide +kernel

end Handoff.Decimal

