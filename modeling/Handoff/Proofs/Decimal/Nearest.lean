import Mathlib
import Handoff.Decimal.Binary

/-!
Nearest integers and the values of finite numbers.

`IsNearest` says which integer a rational number is rounded to, ties going to the even one.  There
is only one (`IsNearest.unique`), and rounding keeps the order (`IsNearest.le_of_le`).  `roundDiv`
finds it for a quotient of naturals (`isNearest_roundDiv`), so `Binary.roundScaled` finds it for the
value of a finite number (`Binary.isNearest_roundSigned`).
-/

namespace Handoff.Decimal

/-! ## Nearest integers -/

/-- An integer that no other is nearer to a number than; of two, the even one. -/
structure IsNearest (x : ℚ) (n : ℤ) : Prop where
  near : |x - n| ≤ 1 / 2
  even_of_tie : |x - n| = 1 / 2 → Even n

namespace IsNearest

variable {x y : ℚ} {m n : ℤ}

theorem intCast (n : ℤ) : IsNearest n n := by
  constructor <;> simp

theorem neg (nearest : IsNearest x n) : IsNearest (-x) (-n) := by
  have same : |-x - ((-n : ℤ) : ℚ)| = |x - n| := by
    rw [← abs_neg]
    congr 1
    push_cast
    ring
  exact ⟨same ▸ nearest.near, fun tie => (nearest.even_of_tie (same ▸ tie)).neg⟩

/-- A greater number is not rounded to a lesser integer. -/
theorem le_of_le (hx : IsNearest x m) (hy : IsNearest y n) (le : x ≤ y) : m ≤ n := by
  by_contra less
  have next : (n : ℚ) + 1 ≤ m := by exact_mod_cast (not_le.mp less)
  obtain ⟨lower, -⟩ := abs_le.mp hx.near
  obtain ⟨-, upper⟩ := abs_le.mp hy.near
  -- There is just room for one number between the two, halfway.
  have middle : x - m = -(1 / 2) := by linarith
  have middle' : y - n = 1 / 2 := by linarith
  have even := hx.even_of_tie (by rw [middle]; norm_num)
  have even' := hy.even_of_tie (by rw [middle']; norm_num)
  have step : m = n + 1 := by
    have : (m : ℚ) = (n + 1 : ℤ) := by
      push_cast
      linarith
    exact_mod_cast this
  rw [step, Int.even_add_one] at even
  exact even even'

theorem unique (first : IsNearest x m) (second : IsNearest x n) : m = n :=
  le_antisymm (first.le_of_le second le_rfl) (second.le_of_le first le_rfl)

/-- A number less than half a unit from an integer is rounded to it. -/
theorem of_abs_sub_lt (near : |x - n| < 1 / 2) : IsNearest x n :=
  ⟨near.le, fun tie => absurd tie near.ne⟩

end IsNearest

/-! ## Quotients -/

/-- Rounding a quotient, in whole numbers. -/
theorem isNearest_div_iff {num den n : ℤ} (positive : 0 < den) :
    IsNearest ((num : ℚ) / den) n ↔
      |2 * (num - n * den)| ≤ den ∧ (|2 * (num - n * den)| = den → Even n) := by
  have scale : (0 : ℚ) < den := Int.cast_pos.mpr positive
  have distance : |(num : ℚ) / den - n| = (|2 * (num - n * den)| : ℤ) / (2 * den) := by
    have same : (num : ℚ) / den - n = (2 * (num - n * den) : ℤ) / (2 * den) := by
      push_cast
      field_simp
    rw [same, abs_div, abs_of_pos (show (0 : ℚ) < 2 * den by linarith), ← Int.cast_abs]
  have near : |(num : ℚ) / den - n| ≤ 1 / 2 ↔ |2 * (num - n * den)| ≤ den := by
    rw [distance, div_le_div_iff₀ (by linarith) two_pos, one_mul, mul_comm,
      mul_le_mul_iff_right₀ two_pos]
    exact Int.cast_le
  have tie : |(num : ℚ) / den - n| = 1 / 2 ↔ |2 * (num - n * den)| = den := by
    rw [distance, div_eq_div_iff (by linarith) two_ne_zero, one_mul, mul_comm,
      mul_right_inj' two_ne_zero]
    exact Int.cast_inj
  exact ⟨fun h => ⟨near.mp h.near, fun h' => h.even_of_tie (tie.mpr h')⟩,
    fun h => ⟨near.mpr h.1, fun h' => h.2 (tie.mp h')⟩⟩

/-- A factor of both sides of a quotient does not matter. -/
theorem roundDiv_mul_right (tie : Tie) (num den : ℕ) {c : ℕ} (positive : 0 < c) :
    roundDiv tie (num * c) (den * c) = roundDiv tie num den := by
  have scale (r : ℕ) : 2 * (r * c) = 2 * r * c := (Nat.mul_assoc 2 r c).symm
  simp only [roundDiv, roundsUp, Nat.mul_div_mul_right _ _ positive, Nat.mul_mod_mul_right, scale,
    Nat.mul_left_inj positive.ne', Nat.mul_lt_mul_right positive]

/-- Equal quotients are rounded to the same natural. -/
theorem roundDiv_congr {tie : Tie} {num den num' den' : ℕ} (positive : 0 < den)
    (positive' : 0 < den') (same : num * den' = num' * den) :
    roundDiv tie num den = roundDiv tie num' den' := by
  rw [← roundDiv_mul_right tie num den positive', same, Nat.mul_comm den,
    roundDiv_mul_right tie num' den' positive]

theorem roundDiv_le_of_lt {tie : Tie} {num den bound : ℕ} (positive : 0 < den)
    (less : num < bound * den) : roundDiv tie num den ≤ bound := by
  have quotient := (Nat.div_lt_iff_lt_mul positive).mpr less
  have up := Bool.toNat_le (roundsUp tie num den)
  rw [roundDiv]
  omega

theorem roundsUp_of_tie {num den : ℕ} (tie : 2 * (num % den) = den) :
    roundsUp .toEven num den = (num / den % 2 == 1) :=
  if_pos tie

/-- The integer nearest to a quotient of naturals. -/
theorem isNearest_roundDiv (num : ℕ) {den : ℕ} (positive : 0 < den) :
    IsNearest ((num : ℚ) / den) (roundDiv .toEven num den : ℕ) := by
  have above := two_mul_roundDiv_le .toEven num den
  have below := le_two_mul_roundDiv .toEven num den positive
  have integers : (num : ℚ) / den = ((num : ℤ) : ℚ) / ((den : ℤ) : ℚ) := by
    rw [Int.cast_natCast, Int.cast_natCast]
  rw [integers]
  refine (isNearest_div_iff (Int.natCast_pos.mpr positive)).mpr ⟨?_, ?_⟩
  · rw [abs_le]
    zify at above below
    constructor <;> linarith
  · intro tie
    have sides : 2 * num = 2 * (roundDiv .toEven num den * den) + den ∨
        2 * num + den = 2 * (roundDiv .toEven num den * den) := by
      zify
      rcases (abs_eq (by positivity)).mp tie with more | less
      · exact .inl (by linarith)
      · exact .inr (by linarith)
    have split := Nat.div_add_mod' num den
    have rest := Nat.mod_lt num positive
    rw [Int.even_coe_nat, Nat.even_iff]
    cases up : roundsUp .toEven num den with
    | true =>
        have value : roundDiv .toEven num den = num / den + 1 := by rw [roundDiv, up]; rfl
        rw [value, Nat.add_one_mul (num / den)] at sides
        have tied : 2 * (num % den) = den := by omega
        rw [roundsUp_of_tie tied, beq_iff_eq] at up
        rw [value]
        omega
    | false =>
        have value : roundDiv .toEven num den = num / den := by rw [roundDiv, up]; rfl
        rw [value] at sides
        have tied : 2 * (num % den) = den := by omega
        rw [roundsUp_of_tie tied, beq_eq_false_iff_ne] at up
        rw [value]
        omega

/-! ## Finite numbers -/

/-- How large a finite number is. -/
def Binary.magnitude (b : Binary) : ℚ := b.mantissa * 2 ^ b.exponent

/-- The number itself. -/
def Binary.value (b : Binary) : ℚ := if b.negative then -b.magnitude else b.magnitude

/-- A float is finite and stands for a rational number. -/
def HasValue (x : Float) (q : ℚ) : Prop := ∃ b, Binary.ofFloat? x = some b ∧ b.value = q

namespace Binary

theorem ratio_pos (b : Binary) : 0 < b.ratio.2 :=
  Nat.two_pow_pos _

theorem two_zpow_eq (e : ℤ) : (2 : ℚ) ^ e = 2 ^ e.toNat / 2 ^ (-e).toNat := by
  rw [← zpow_natCast, ← zpow_natCast, ← zpow_sub₀ two_ne_zero]
  congr 1
  omega

theorem magnitude_eq_ratio (b : Binary) : b.magnitude = b.ratio.1 / b.ratio.2 := by
  rw [magnitude, two_zpow_eq, ratio]
  push_cast [Nat.pow_eq]
  ring

/-- A magnitude times a whole number is rounded to the nearest integer. -/
theorem isNearest_roundScaled (b : Binary) (scale : ℕ) :
    IsNearest (b.magnitude * scale) (b.roundScaled .toEven scale : ℕ) := by
  have product : b.magnitude * scale = ((b.ratio.1 * scale : ℕ) : ℚ) / b.ratio.2 := by
    rw [magnitude_eq_ratio]
    push_cast
    ring
  rw [product]
  exact isNearest_roundDiv _ b.ratio_pos

/-- The multiple of a number that is rounded, with its sign. -/
def roundSigned (scale : ℕ) (b : Binary) : ℤ :=
  if b.negative then -(b.roundScaled .toEven scale : ℕ) else (b.roundScaled .toEven scale : ℕ)

theorem isNearest_roundSigned (b : Binary) (scale : ℕ) :
    IsNearest (b.value * scale) (b.roundSigned scale) := by
  rw [value, roundSigned]
  split
  · rw [neg_mul]
    exact (b.isNearest_roundScaled scale).neg
  · exact b.isNearest_roundScaled scale

end Binary

/-- The whole number that a float is. -/
def whole? (v : Float) : Option ℕ :=
  (Binary.ofFloat? v).bind fun b =>
    if b.negative = false ∧ b.ratio.1 % b.ratio.2 = 0 then some b.truncate else none

theorem hasValue_of_whole? {v : Float} {n : ℕ} (whole : whole? v = some n) : HasValue v n := by
  obtain ⟨b, read, whole⟩ := Option.bind_eq_some_iff.mp whole
  split at whole
  · rename_i parts
    obtain rfl := Option.some.inj whole
    refine ⟨b, read, ?_⟩
    have scale : (0 : ℚ) < b.ratio.2 := Nat.cast_pos.mpr b.ratio_pos
    rw [Binary.value, parts.1, if_neg Bool.false_ne_true, Binary.magnitude_eq_ratio,
      div_eq_iff scale.ne', Binary.truncate]
    exact_mod_cast (Nat.div_mul_cancel (Nat.dvd_of_mod_eq_zero parts.2)).symm
  · cases whole

end Handoff.Decimal
