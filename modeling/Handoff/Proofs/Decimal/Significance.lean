import Handoff.Proofs.Decimal.Nearest
import Handoff.Proofs.Decimal.Vanishing

/-!
The double nearest to a magnitude.

A double keeps fifty-three bits of a magnitude, or fewer if those would end below `2 ^ -1074`
(`LastBit`).  A magnitude is rounded to the last of them (`RoundsInBinary`), and those that have no
further bits, the magnitudes of doubles, are left as they are.  So what is rounded stays on the same
side of every double (`RoundsInBinary.le_of_le`, `RoundsInBinary.le_of_ge`).

`UnpackedFloat.roundWithAccuracy` gets a mantissa together with the bits that tell where the exact
number is in relation to the middle between that mantissa and the next (`Locates`).  Shifts keep
what the bits tell, so it finds the double nearest to the exact number
(`isRounded_roundWithAccuracy`).
-/

namespace Handoff.Decimal

open Float.Model (UnpackedFloat Format totalExponent)
open Float.Model.UnpackedFloat (Sign Accuracy ExtendedMantissa roundWithAccuracy
  accuracyOfFraction)

/-! ## Mantissas and exponents -/

theorem mul_two_zpow_lt {k : ℕ} (fits : k < 2 ^ 53) (f : ℤ) : (k : ℚ) * 2 ^ f < 2 ^ (f + 53) := by
  have mantissa : (k : ℚ) < 2 ^ (53 : ℤ) := by exact_mod_cast fits
  rw [zpow_add₀ two_ne_zero, mul_comm]
  gcongr

theorem two_zpow_le_mul {k : ℕ} (leading : 2 ^ 52 ≤ k) (f : ℤ) :
    (2 : ℚ) ^ (f + 52) ≤ k * 2 ^ f := by
  have mantissa : (2 : ℚ) ^ (52 : ℤ) ≤ k := by exact_mod_cast leading
  rw [zpow_add₀ two_ne_zero, mul_comm]
  gcongr

/-- A lesser exponent needs a longer mantissa. -/
theorem mul_two_pow_mul_zpow (k : ℕ) {e f : ℤ} (le : f ≤ e) :
    ((k * 2 ^ (e - f).toNat : ℕ) : ℚ) * 2 ^ f = k * 2 ^ e := by
  push_cast
  rw [mul_assoc, ← zpow_natCast, ← zpow_add₀ two_ne_zero, Int.toNat_of_nonneg (by omega),
    Int.sub_add_cancel]

/-! ## Rounding to bits -/

/-- The last bit that a double keeps of a magnitude. -/
structure LastBit (q : ℚ) (t : ℤ) : Prop where
  least : -1074 ≤ t
  below : q < 2 ^ (t + 53)
  leading : t = -1074 ∨ 2 ^ (t + 52) ≤ q

/-- There is only one last bit. -/
theorem LastBit.unique {q : ℚ} {t t' : ℤ} (first : LastBit q t) (second : LastBit q t') :
    t = t' := by
  have le {t t' : ℤ} (first : LastBit q t) (second : LastBit q t') : t' ≤ t := by
    by_contra less
    have leading := second.leading.resolve_left (by have := first.least; omega)
    have exponents := (zpow_lt_zpow_iff_right₀ one_lt_two).mp (leading.trans_lt first.below)
    omega
  exact le_antisymm (le second first) (le first second)

/-- A magnitude is rounded to the last bit that a double keeps of it, ties to even. -/
def RoundsInBinary (q u : ℚ) : Prop :=
  ∃ t n : ℤ, LastBit q t ∧ IsNearest (q / 2 ^ t) n ∧ u = n * 2 ^ t

/-- The magnitude of a finite double. -/
def IsDouble (c : ℚ) : Prop :=
  ∃ (k : ℕ) (f : ℤ), k < 2 ^ 53 ∧ -1074 ≤ f ∧ f ≤ 971 ∧ c = k * 2 ^ f

/-- The least power of two that is too large for a double. -/
@[irreducible]
def overflow : ℚ := 2 ^ (1024 : ℤ)

theorem overflow_pos : 0 < overflow := by
  rw [overflow]
  positivity

theorem IsDouble.lt_overflow {c : ℚ} (double : IsDouble c) : c < overflow := by
  obtain ⟨k, f, fits, -, greatest, rfl⟩ := double
  calc (k : ℚ) * 2 ^ f < 2 ^ (f + 53) := mul_two_zpow_lt fits f
    _ ≤ 2 ^ (1024 : ℤ) := zpow_le_zpow_right₀ one_le_two (by omega)
    _ = overflow := by rw [overflow]

namespace RoundsInBinary

variable {q u c : ℚ}

/-- What is at most a double is not rounded past it. -/
theorem le_of_le (rounded : RoundsInBinary q u) (double : IsDouble c) (le : q ≤ c) : u ≤ c := by
  obtain ⟨t, n, last, nearest, rfl⟩ := rounded
  obtain ⟨k, f, fits, least, -, rfl⟩ := double
  have coarse : t ≤ f := by
    by_contra finer
    have leading := last.leading.resolve_left (by omega)
    have power : (2 : ℚ) ^ (f + 53) ≤ 2 ^ (t + 52) := zpow_le_zpow_right₀ one_le_two (by omega)
    linarith [mul_two_zpow_lt fits f]
  have positive : (0 : ℚ) < 2 ^ t := by positivity
  -- The double is a whole number of last bits.
  rw [← mul_two_pow_mul_zpow k coarse, ← Int.cast_natCast] at le ⊢
  have upper := nearest.le_of_le (IsNearest.intCast _) ((div_le_iff₀ positive).mpr le)
  exact mul_le_mul_of_nonneg_right (Int.cast_le.mpr upper) positive.le

/-- What is at least a double is not rounded past it. -/
theorem le_of_ge (rounded : RoundsInBinary q u) (double : IsDouble c) (ge : c ≤ q) : c ≤ u := by
  obtain ⟨t, n, last, nearest, rfl⟩ := rounded
  obtain ⟨k, f, fits, least, -, rfl⟩ := double
  have positive : (0 : ℚ) < 2 ^ t := by positivity
  have above {m : ℤ} (le : m * 2 ^ t ≤ q) : (m : ℚ) * 2 ^ t ≤ n * 2 ^ t := by
    have lower := (IsNearest.intCast m).le_of_le nearest ((le_div_iff₀ positive).mpr le)
    exact mul_le_mul_of_nonneg_right (Int.cast_le.mpr lower) positive.le
  rcases le_or_gt t f with coarse | fine
  · rw [← mul_two_pow_mul_zpow k coarse, ← Int.cast_natCast] at ge ⊢
    exact above ge
  · -- The double is less than the least magnitude with this last bit.
    have leading := last.leading.resolve_left (by omega)
    have split : (2 : ℚ) ^ (t + 52) = ((2 ^ 52 : ℤ) : ℚ) * 2 ^ t := by
      rw [zpow_add₀ two_ne_zero, mul_comm]
      norm_num
    calc (k : ℚ) * 2 ^ f ≤ 2 ^ (f + 53) := (mul_two_zpow_lt fits f).le
      _ ≤ 2 ^ (t + 52) := zpow_le_zpow_right₀ one_le_two (by omega)
      _ = ((2 ^ 52 : ℤ) : ℚ) * 2 ^ t := split
      _ ≤ n * 2 ^ t := above (split ▸ leading)

/-- A whole number of last bits is left as it is. -/
theorem of_lastBit {m : ℕ} {t : ℤ} (last : LastBit (m * 2 ^ t) t) :
    RoundsInBinary (m * 2 ^ t) (m * 2 ^ t) := by
  refine ⟨t, m, last, ?_, by push_cast; rfl⟩
  rw [mul_div_cancel_right₀ _ (by positivity)]
  exact_mod_cast IsNearest.intCast m

end RoundsInBinary

/-! ## Extended mantissas -/

/-- Where a number is: the mantissa is what it is without its fraction, and the bits compare the
fraction with zero and with one half. -/
def Locates : ExtendedMantissa → ℚ → Prop
  | ⟨m, false, false⟩, y => y = m
  | ⟨m, false, true⟩, y => m < y ∧ y < m + 1 / 2
  | ⟨m, true, false⟩, y => y = m + 1 / 2
  | ⟨m, true, true⟩, y => m + 1 / 2 < y ∧ y < m + 1

namespace Locates

variable {em : ExtendedMantissa} {y : ℚ}

theorem exact (m : ℕ) : Locates (.ofMantissaAndAccuracy m .exact) m := rfl

theorem mantissa_le (located : Locates em y) : em.mantissa ≤ y ∧ y < em.mantissa + 1 := by
  obtain ⟨m, _ | _, _ | _⟩ := em <;> simp only [Locates] at located ⊢ <;>
    constructor <;> linarith

/-- A quotient is located by what is left over by division. -/
theorem quotient (m : ℕ) {d : ℕ} (positive : 0 < d) :
    Locates (.ofMantissaAndAccuracy (m / d) (accuracyOfFraction (m % d) d)) ((m : ℚ) / d) := by
  have scale : (0 : ℚ) < d := Nat.cast_pos.mpr positive
  have split : (m : ℚ) / d = (m / d : ℕ) + (m % d : ℕ) / d := by
    rw [← Nat.div_add_mod m d, Nat.cast_add, Nat.cast_mul]
    simp only [Nat.div_add_mod]
    rw [add_div, mul_div_cancel_left₀ _ scale.ne']
  have rest := Nat.mod_lt m positive
  rw [split]
  generalize m / d = w
  generalize m % d = r at rest
  have fraction : (r : ℚ) / d < 1 := (div_lt_one scale).mpr (Nat.cast_lt.mpr rest)
  unfold accuracyOfFraction
  split
  · rename_i none
    rw [none, Nat.cast_zero, zero_div, add_zero]
    exact exact w
  · rename_i some
    have more : (0 : ℚ) < (r : ℚ) / d := div_pos (Nat.cast_pos.mpr (Nat.pos_of_ne_zero some)) scale
    rcases Nat.lt_trichotomy (2 * r) d with less | same | greater
    · rw [Nat.compare_eq_lt.mpr less]
      have half : (r : ℚ) / d < 1 / 2 := by
        rw [div_lt_div_iff₀ scale two_pos]
        exact_mod_cast (by omega : r * 2 < 1 * d)
      exact ⟨by linarith, by linarith⟩
    · rw [Nat.compare_eq_eq.mpr same]
      have half : (r : ℚ) / d = 1 / 2 := by
        rw [div_eq_div_iff scale.ne' two_ne_zero]
        exact_mod_cast (by omega : r * 2 = 1 * d)
      exact congrArg _ half
    · rw [Nat.compare_eq_gt.mpr greater]
      have half : (1 : ℚ) / 2 < r / d := by
        rw [div_lt_div_iff₀ two_pos scale]
        exact_mod_cast (by omega : 1 * d < r * 2)
      exact ⟨by linarith, by linarith⟩

/-- A shift by one bit divides the number. -/
theorem shiftRightOne (located : Locates em y) : Locates em.shiftRightOne (y / 2) := by
  obtain ⟨m, round, sticky⟩ := em
  have split : (m : ℚ) = 2 * (m / 2 : ℕ) + (m % 2 : ℕ) := by
    exact_mod_cast (Nat.div_add_mod m 2).symm
  rcases Nat.mod_two_eq_zero_or_one m with even | odd
  · rw [even] at split
    have bit : ExtendedMantissa.shiftRightOne ⟨m, round, sticky⟩ =
        ⟨m / 2, false, round || sticky⟩ := by rw [ExtendedMantissa.shiftRightOne, even]; rfl
    rw [bit]
    cases round <;> cases sticky <;> simp only [Locates, Bool.or_true, Bool.or_false,
      Nat.cast_zero] at located split ⊢
    all_goals first | constructor <;> linarith | linarith
  · rw [odd] at split
    have bit : ExtendedMantissa.shiftRightOne ⟨m, round, sticky⟩ =
        ⟨m / 2, true, round || sticky⟩ := by rw [ExtendedMantissa.shiftRightOne, odd]; rfl
    rw [bit]
    cases round <;> cases sticky <;> simp only [Locates, Bool.or_true, Bool.or_false,
      Nat.cast_one] at located split ⊢
    all_goals first | constructor <;> linarith | linarith

theorem shiftRight (located : Locates em y) (n : ℕ) : Locates (em >>> n) (y / 2 ^ n) := by
  change Locates (n.repeat ExtendedMantissa.shiftRightOne em) _
  induction n with
  | zero =>
      rw [pow_zero, div_one]
      exact located
  | succ n ih =>
      rw [pow_succ, ← div_div]
      exact ih.shiftRightOne

/-- A mantissa is rounded to the integer nearest to the number. -/
theorem isNearest (located : Locates em y) : IsNearest y (em.roundedMantissa : ℕ) := by
  obtain ⟨m, _ | _, _ | _⟩ := em <;> simp only [Locates] at located
  case false.false =>
    rw [located]
    exact_mod_cast IsNearest.intCast m
  case false.true =>
    refine .of_abs_sub_lt ?_
    change |y - ((m : ℤ) : ℚ)| < 1 / 2
    rw [Int.cast_natCast, abs_lt]
    constructor <;> linarith
  case true.false =>
    change IsNearest y ((m + m % 2 : ℕ) : ℤ)
    have distance : |y - (((m + m % 2 : ℕ) : ℤ) : ℚ)| = 1 / 2 := by
      rcases Nat.mod_two_eq_zero_or_one m with even | odd
      · rw [even, located]
        norm_num
      · rw [odd, located]
        push_cast
        norm_num
    refine ⟨distance.le, fun _ => ?_⟩
    rw [Int.even_coe_nat, Nat.even_iff]
    omega
  case true.true =>
    refine .of_abs_sub_lt ?_
    change |y - ((m + 1 : ℕ) : ℤ)| < 1 / 2
    push_cast
    rw [abs_lt]
    constructor <;> linarith

end Locates

/-! ## The nearest double -/

/-- A number with as many bits as a double can have, but perhaps too large for one. -/
structure FullBits (m : ℕ) (e : ℤ) : Prop where
  fits : m < 2 ^ 53
  least : -1074 ≤ e
  leading : e = -1074 ∨ 2 ^ 52 ≤ m

/-- What a magnitude is rounded to, before it is packed. -/
def IsRounded (q : ℚ) : UnpackedFloat → Prop
  | .zero _ => RoundsInBinary q 0
  | .finite _ m e _ => RoundsInBinary q (m * 2 ^ e) ∧ FullBits m e
  | .infinity _ | .notANumber => False

theorem FullBits.lastBit {m : ℕ} {e : ℤ} (full : FullBits m e) : LastBit (m * 2 ^ e) e where
  least := full.least
  below := mul_two_zpow_lt full.fits e
  leading := full.leading.imp_right fun leading => two_zpow_le_mul leading e

/-- The exponent that a mantissa is shifted to leaves the number no more than `p` bits, and no less
unless it is the least exponent. -/
theorem bits_of_mantissa {m p : ℕ} {e least : ℤ} {y : ℚ} (located : m ≤ y ∧ y < m + 1)
    (several : 1 < p) (fine : e ≤ max (totalExponent m e - p) least) :
    y * 2 ^ e < 2 ^ (max (totalExponent m e - p) least + p) ∧
      (max (totalExponent m e - p) least = least ∨
        2 ^ (max (totalExponent m e - p) least + p - 1) ≤ y * 2 ^ e) := by
  have positive : (0 : ℚ) < 2 ^ e := by positivity
  rw [totalExponent] at fine ⊢
  have below : y < 2 ^ ((m.log2 : ℤ) + 1) := by
    have bits : m + 1 ≤ 2 ^ (m.log2 + 1) := Nat.lt_log2_self
    have bits' : (m : ℚ) + 1 ≤ 2 ^ ((m.log2 : ℤ) + 1) := by exact_mod_cast bits
    linarith [located.2]
  constructor
  · calc y * 2 ^ e < 2 ^ ((m.log2 : ℤ) + 1) * 2 ^ e := by gcongr
      _ = 2 ^ ((m.log2 : ℤ) + 1 + e) := (zpow_add₀ two_ne_zero _ _).symm
      _ ≤ _ := zpow_le_zpow_right₀ one_le_two (by omega)
  · rcases le_or_gt ((m.log2 : ℤ) + 1 + e - p) least with bottom | above
    · exact .inl (by omega)
    · -- A number that is not at the bottom has its leading bit, so it is not zero.
      right
      have nonzero : m ≠ 0 := by
        rintro rfl
        rw [Nat.log2_zero] at fine above
        omega
      have bits : (2 : ℚ) ^ (m.log2 : ℤ) ≤ m := by exact_mod_cast Nat.log2_self_le nonzero
      have exponent : max ((m.log2 : ℤ) + 1 + e - p) least + p - 1 = m.log2 + e := by omega
      rw [exponent, zpow_add₀ two_ne_zero]
      gcongr
      exact bits.trans located.1

/-- The exponent that a mantissa is shifted to is that of the last bit of the number. -/
theorem lastBit_of_mantissa {m : ℕ} {e : ℤ} {y : ℚ} (located : m ≤ y ∧ y < m + 1)
    (fine : e ≤ max (totalExponent m e - 53) (-1074)) :
    LastBit (y * 2 ^ e) (max (totalExponent m e - 53) (-1074)) := by
  obtain ⟨below, leading⟩ := bits_of_mantissa (p := 53) located (by decide) fine
  refine ⟨le_max_right _ _, below, leading.imp_right fun leading => ?_⟩
  rwa [Nat.cast_ofNat, add_sub_assoc] at leading

/-- A quotient is worked out to an exponent that leaves it enough bits. -/
theorem filled_div {m m' wide p : ℕ} {e e' target least : ℤ} (positive : 0 < m') (some : 0 < p)
    (nonzero : 0 < wide) (bits : wide.log2 = m.log2 + (e - e' - target).toNat)
    (chosen : target = min (e - e') (max (totalExponent m e - totalExponent m' e' - p) least)) :
    target ≤ max (totalExponent (wide / m') target - p) least := by
  rw [totalExponent, totalExponent] at chosen
  rw [totalExponent]
  rcases le_or_gt target least with bottom | above
  · omega
  · have large : 2 ^ (p - 1) ≤ wide / m' := by
      rw [Nat.le_div_iff_mul_le positive]
      calc 2 ^ (p - 1) * m' ≤ 2 ^ (p - 1) * 2 ^ (m'.log2 + 1) :=
            Nat.mul_le_mul_left _ (Nat.le_of_lt Nat.lt_log2_self)
        _ = 2 ^ (p - 1 + (m'.log2 + 1)) := (Nat.pow_add ..).symm
        _ ≤ 2 ^ wide.log2 := Nat.pow_le_pow_right (by decide) (by omega)
        _ ≤ wide := Nat.log2_self_le (Nat.ne_of_gt nonzero)
    have length := (Nat.le_log2 (Nat.ne_of_gt ((Nat.two_pow_pos _).trans_le large))).mpr large
    omega

/-- Rounding leaves no more than the bits of a double, or carries to the next power of two. -/
theorem LastBit.bounds {q : ℚ} {t n : ℤ} (last : LastBit q t) (nearest : IsNearest (q / 2 ^ t) n) :
    n ≤ 2 ^ 53 ∧ (t = -1074 ∨ 2 ^ 52 ≤ n) := by
  have positive : (0 : ℚ) < 2 ^ t := by positivity
  constructor
  · have below : q / 2 ^ t ≤ ((2 ^ 53 : ℤ) : ℚ) := by
      rw [div_le_iff₀ positive]
      push_cast
      refine last.below.le.trans_eq ?_
      rw [zpow_add₀ two_ne_zero, mul_comm]
      norm_num
    exact nearest.le_of_le (IsNearest.intCast _) below
  · refine last.leading.imp_right fun leading => ?_
    have above : ((2 ^ 52 : ℤ) : ℚ) ≤ q / 2 ^ t := by
      rw [le_div_iff₀ positive]
      push_cast
      refine leading.trans_eq' ?_
      rw [zpow_add₀ two_ne_zero, mul_comm]
      norm_num
    exact (IsNearest.intCast _).le_of_le nearest above

/-- A rounded mantissa is shifted once more if it was carried to one bit more. -/
theorem isRounded_of_isNearest {q : ℚ} {t : ℤ} {r n : ℕ} (s : Sign) (last : LastBit q t)
    (nearest : IsNearest (q / 2 ^ t) r)
    (amount : n = (max (totalExponent r t - 53) (-1074) - t).toNat) :
    IsRounded q (if h : r / 2 ^ n = 0 then .zero s
      else .finite s (r / 2 ^ n) (t + n) (Nat.pos_of_ne_zero h)) := by
  have rounded : RoundsInBinary q (r * 2 ^ t) := ⟨t, r, last, nearest, by push_cast; rfl⟩
  have least := last.least
  obtain ⟨carried, leading⟩ := last.bounds nearest
  rw [totalExponent] at amount
  rcases (show r < 2 ^ 53 ∨ r = 2 ^ 53 by omega) with fits | next
  · have none : n = 0 := by
      rcases Nat.eq_zero_or_pos r with rfl | positive
      · rw [Nat.log2_zero] at amount
        omega
      · have length := (Nat.log2_lt (Nat.ne_of_gt positive)).mpr fits
        omega
    rw [none, Nat.pow_zero, Nat.div_one, Nat.cast_zero, Int.add_zero]
    split
    · rename_i zero
      rw [zero, Nat.cast_zero, zero_mul] at rounded
      exact rounded
    · exact ⟨rounded, fits, least, by omega⟩
  · have length : (2 ^ 53 : ℕ).log2 = 53 := Nat.log2_two_pow
    rw [next, length] at amount
    have one : n = 1 := by omega
    have half : r / 2 ^ n = 2 ^ 52 := by
      rw [next, one]
      decide
    have same : (r : ℚ) * 2 ^ t = (2 ^ 52 : ℕ) * 2 ^ (t + 1) := by
      rw [next, zpow_add_one₀ two_ne_zero]
      push_cast
      ring
    rw [same] at rounded
    rw [one] at half ⊢
    simp only [half]
    rw [dif_neg (by decide)]
    exact ⟨rounded, by decide, by omega, .inr le_rfl⟩

/-- A number is rounded to the nearest double. -/
theorem isRounded_roundWithAccuracy {m : ℕ} {e : ℤ} {a : Accuracy} {y : ℚ} (s : Sign)
    (located : Locates (.ofMantissaAndAccuracy m a) y)
    (fine : e ≤ max (totalExponent m e - 53) (-1074)) :
    IsRounded (y * 2 ^ e) (roundWithAccuracy .binary64 s m e a) := by
  have bounds := located.mantissa_le
  rw [mantissa_ofMantissaAndAccuracy] at bounds
  have last := lastBit_of_mantissa bounds fine
  obtain ⟨t, target⟩ : ∃ t, t = max (totalExponent m e - 53) (-1074) := ⟨_, rfl⟩
  obtain ⟨n, amount⟩ : ∃ n : ℕ, n = (t - e).toNat := ⟨_, rfl⟩
  rw [← target] at last fine
  have shifted : t = e + n := by omega
  have scale : y * 2 ^ e / 2 ^ t = y / 2 ^ n := by
    rw [shifted, zpow_add₀ two_ne_zero, zpow_natCast, mul_comm (2 ^ e : ℚ),
      mul_div_mul_right _ _ (by positivity)]
  have nearest := (located.shiftRight n).isNearest
  rw [← scale] at nearest
  rw [roundWithAccuracy_shifted .binary64 s (amount.trans (target ▸ rfl)) rfl rfl, ← shifted]
  exact isRounded_of_isNearest s last nearest rfl

end Handoff.Decimal
