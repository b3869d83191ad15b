import Handoff.Proofs.Decimal.Results
import Handoff.Proofs.Decimal.Thresholds

/-!
How far doubles are from whole numbers.

The difference of a double and a small whole number has the bits of the double, so it is exact if it
is not larger than the double (`HasValue.isDouble_sub`).  What is compared with a hundredth or with
fifteen percent is rounded, and so are these two.  Still the comparisons come out as those of the
exact numbers (`distance_lt_hundredth_iff`, `share_le_iff`): no double is that close to either bound,
for the second as long as the whole number is `Separated`.  Of two distances the shorter one is found
too, as long as one of them is short (`distance_le_iff`).
-/

namespace Handoff.Decimal

/-! ## Halfway -/

section

variable {q u : ℚ} {k : ℕ} {f : ℤ}

/-- Between two mantissas with their leading bits, numbers have the last bit of the first. -/
theorem lastBit_of_between (least : -1074 ≤ f) (leading : 2 ^ 52 ≤ k) (fits : k < 2 ^ 53)
    (above : k * 2 ^ f ≤ q) (below : q < (k + 1 : ℕ) * 2 ^ f) : LastBit q f where
  least := least
  below := by
    have mantissa : ((k + 1 : ℕ) : ℚ) ≤ 2 ^ (53 : ℤ) := by exact_mod_cast fits
    rw [zpow_add₀ two_ne_zero, mul_comm]
    exact below.trans_le (by gcongr)
  leading := .inr ((two_zpow_le_mul leading f).trans above)

/-- What is rounded to at most an odd mantissa is less than halfway to the next. -/
theorem RoundsInBinary.le_iff_of_odd (rounded : RoundsInBinary q u) (least : -1074 ≤ f)
    (greatest : f ≤ 971) (leading : 2 ^ 52 ≤ k) (fits : k + 1 < 2 ^ 53) (odd : k % 2 = 1) :
    u ≤ k * 2 ^ f ↔ q < (k + 1 / 2) * 2 ^ f := by
  have positive : (0 : ℚ) < 2 ^ f := by positivity
  have next : ((k + 1 : ℕ) : ℚ) = k + 1 := Nat.cast_succ k
  rcases lt_or_ge q (k * 2 ^ f) with less | above
  · have double : IsDouble (k * 2 ^ f) := ⟨k, f, by omega, least, greatest, rfl⟩
    exact iff_of_true (rounded.le_of_le double less.le) (by linarith)
  rcases le_or_gt (((k + 1 : ℕ) : ℚ) * 2 ^ f) q with more | below
  · have double : IsDouble ((k + 1 : ℕ) * 2 ^ f) := ⟨k + 1, f, fits, least, greatest, rfl⟩
    have raised := rounded.le_of_ge double more
    rw [next] at more raised
    exact iff_of_false (by linarith) (by linarith)
  obtain ⟨t, n, last, nearest, rfl⟩ := rounded
  obtain rfl := last.unique (lastBit_of_between least leading (by omega) above below)
  rw [mul_le_mul_iff_left₀ positive, ← div_lt_iff₀ positive]
  have middle : IsNearest ((k : ℚ) + 1 / 2) ((k + 1 : ℕ) : ℤ) := by
    have distance : |(k : ℚ) + 1 / 2 - (((k + 1 : ℕ) : ℤ) : ℚ)| = 1 / 2 := by
      push_cast
      norm_num
    refine ⟨distance.le, fun _ => ?_⟩
    rw [Int.even_coe_nat, Nat.even_iff]
    omega
  constructor
  · intro le
    by_contra half
    have raised := middle.le_of_le nearest (not_lt.mp half)
    have mantissa : ((k + 1 : ℕ) : ℤ) ≤ k := raised.trans (by exact_mod_cast le)
    omega
  · intro half
    have lower := (abs_le.mp nearest.near).1
    have mantissa : (n : ℚ) < (k : ℤ) + 1 := by
      push_cast
      linarith
    have mantissa' : n ≤ k := Int.lt_add_one_iff.mp (by exact_mod_cast mantissa)
    exact_mod_cast mantissa'

end

/-! ## Bits -/

/-- A double is an integer times the power of its last bit. -/
theorem HasValue.exists_fullBits {v : Float} {x : ℚ} (value : HasValue v x) :
    ∃ k e : ℤ, x = k * 2 ^ e ∧ FullBits k.natAbs e ∧ e ≤ 971 := by
  have number := value.isNumber
  have canonical := canonical_float v
  generalize v.toModel.unpack = y at number canonical
  cases y with
  | zero s =>
      refine ⟨0, -1074, ?_, ⟨by decide, le_rfl, .inl rfl⟩, by decide⟩
      rw [Int.cast_zero, zero_mul]
      exact number
  | finite s m e h =>
      refine ⟨s.apply m, e, number, ?_, canonical.2.2.1⟩
      rw [natAbs_apply]
      exact canonical.fullBits
  | _ => exact number.elim

section

variable {v : Float} {x : ℚ}

theorem abs_intCast_mul_zpow (k e : ℤ) : |(k : ℚ) * 2 ^ e| = k.natAbs * 2 ^ e := by
  have positive : (0 : ℚ) < 2 ^ e := by positivity
  rw [abs_mul, abs_of_pos positive, Nat.cast_natAbs, Int.cast_abs]

/-- The bits of a double smaller than `2 ^ 53` do not end before the point, so its distances from
whole numbers have no further bits. -/
theorem HasValue.exists_distance (value : HasValue v x) (small : |x| < 2 ^ 53) :
    ∃ (k : ℤ) (f : ℕ), f ≤ 1074 ∧ k.natAbs < 2 ^ 53 ∧ x = k * 2 ^ (-(f : ℤ)) ∧
      ∀ n : ℕ, |n - x| = (n * 2 ^ f - k : ℤ).natAbs * 2 ^ (-(f : ℤ)) := by
  obtain ⟨k, e, rfl, full, -⟩ := value.exists_fullBits
  have whole : e ≤ 0 := by
    by_contra past
    have leading := full.lastBit.leading.resolve_left (by omega)
    rw [abs_intCast_mul_zpow] at small
    have power : (2 : ℚ) ^ (53 : ℤ) ≤ 2 ^ (e + 52) := zpow_le_zpow_right₀ one_le_two (by omega)
    have bound : (2 : ℚ) ^ (53 : ℤ) = 2 ^ 53 := by norm_num
    linarith
  obtain ⟨f, rfl⟩ : ∃ f : ℕ, e = -(f : ℤ) := ⟨(-e).toNat, by omega⟩
  refine ⟨k, f, by have := full.least; omega, full.fits, rfl, fun n => ?_⟩
  rw [← abs_intCast_mul_zpow]
  congr 1
  push_cast
  rw [sub_mul, mul_assoc, ← zpow_natCast, ← zpow_add₀ two_ne_zero, add_neg_cancel, zpow_zero,
    mul_one]

/-- A distance that is not larger than the double is exact. -/
theorem HasValue.isDouble_sub (value : HasValue v x) (small : |x| < 2 ^ 53) {n : ℕ}
    (within : |n - x| ≤ |x|) : IsDouble |n - x| := by
  obtain ⟨k, f, least, fits, rfl, distance⟩ := value.exists_distance small
  have positive : (0 : ℚ) < 2 ^ (-(f : ℤ)) := by positivity
  rw [distance, abs_intCast_mul_zpow, mul_le_mul_iff_left₀ positive, Nat.cast_le] at within
  rw [distance]
  exact ⟨_, _, by omega, by omega, by omega, rfl⟩

/-- Large numbers are far from small whole numbers. -/
theorem half_le_distance (large : 2 ^ 53 ≤ |x|) {n : ℕ} (bound : n ≤ 2 ^ 52) :
    |x| / 2 ≤ |n - x| := by
  have whole : (n : ℚ) ≤ 2 ^ 52 := by exact_mod_cast bound
  have sides := abs_sub_abs_le_abs_sub x n
  rw [Nat.abs_cast, abs_sub_comm] at sides
  linarith

/-- Their distances stay large when they are rounded. -/
theorem HasValue.quarter_le (value : HasValue v x) (large : 2 ^ 53 ≤ |x|) {n : ℕ}
    (bound : n ≤ 2 ^ 52) {u : ℚ} (rounded : RoundsToDouble |n - x| u) : |x| / 4 ≤ u := by
  have far := half_le_distance large bound
  obtain ⟨k, e, rfl, full, greatest⟩ := value.exists_fullBits
  rw [abs_intCast_mul_zpow] at large far ⊢
  have last := full.lastBit
  have coarse : 0 < e := by
    by_contra fine
    have power : (2 : ℚ) ^ (e + 53) ≤ 2 ^ (53 : ℤ) := zpow_le_zpow_right₀ one_le_two (by omega)
    have same : (2 : ℚ) ^ (53 : ℤ) = 2 ^ 53 := by norm_num
    linarith [last.below]
  -- A power of two lies between a quarter and a half of the number.
  have split (i : ℤ) : (2 : ℚ) ^ (e + 51 + i) = 2 ^ i * 2 ^ (e + 51) := by
    rw [zpow_add₀ two_ne_zero, mul_comm]
  have leading := last.leading.resolve_left (by omega)
  have below := last.below
  rw [show e + 52 = e + 51 + 1 by omega, split, zpow_one] at leading
  rw [show e + 53 = e + 51 + 2 by omega, split, zpow_two] at below
  have double : IsDouble (2 ^ (e + 51)) := by
    refine ⟨2 ^ 51, e, by decide, by omega, greatest, ?_⟩
    rw [zpow_add₀ two_ne_zero, mul_comm]
    norm_num
  have least := rounded.le_of_ge double (by linarith)
  linarith

/-! ## Comparisons -/

section

variable {n n' : ℕ} {u u' : ℚ}

/-- Of two distances the shorter one is found, as long as one of them is less than half the
double. -/
theorem HasValue.distance_le_iff (value : HasValue v x) (bound : n' ≤ 2 ^ 52)
    (near : |n' - x| < |x| / 2) (hn : RoundsToDouble |n - x| u)
    (hn' : RoundsToDouble |n' - x| u') :
    (u ≤ u' ↔ |n - x| ≤ |n' - x|) ∧ (u' ≤ u ↔ |n' - x| ≤ |n - x|) := by
  have small : |x| < 2 ^ 53 := by
    by_contra large
    exact (half_le_distance (not_lt.mp large) bound).not_gt near
  have size := abs_nonneg x
  have double := value.isDouble_sub small (n := n') (by linarith)
  have exact {k : ℕ} {w : ℚ} (rounded : RoundsToDouble |k - x| w) (within : |k - x| ≤ |x|) :
      w = |k - x| :=
    rounded.eq_of_isDouble (value.isDouble_sub small within)
  obtain rfl := hn'.eq_of_isDouble double
  refine ⟨⟨fun le => ?_, hn.le_of_le double⟩, ⟨fun le => ?_, hn.le_of_ge double⟩⟩
  · by_contra less
    rcases le_or_gt |n - x| |x| with within | past
    · rw [exact hn within] at le
      exact less le
    · have := hn.le_of_ge value.isDouble past.le
      linarith
  · by_contra less
    rw [exact hn (by linarith)] at le
    exact less le

end

/-! ## A hundredth -/

theorem hasSize_hundredth :
    HasSize (0.01 : Float).toModel.unpack ((5764607523034235 : ℕ) * 2 ^ (-59 : ℤ)) := by
  rw [unpack_hundredth]
  rfl

/-- No distance from a whole number is between a hundredth and the double nearest to it. -/
theorem HasValue.hundredth_gap (value : HasValue v x) {n : ℕ} (bound : n ≤ 2 ^ 52) :
    |n - x| ≤ (5764607523034234 : ℕ) * 2 ^ (-59 : ℤ) ∨
      (5764607523034235 : ℕ) * 2 ^ (-59 : ℤ) ≤ |n - x| := by
  rcases le_or_gt (2 ^ 53) |x| with large | small
  · have far := half_le_distance large bound
    right
    norm_num
    linarith
  obtain ⟨k, f, -, fits, rfl, distance⟩ := value.exists_distance small
  rcases le_or_gt f 59 with coarse | fine
  · -- The distance is a whole number of the last bits of a hundredth.
    have whole : |(n : ℚ) - k * 2 ^ (-(f : ℤ))| =
        ((n * 2 ^ f - k : ℤ).natAbs * 2 ^ (59 - f) : ℕ) * 2 ^ (-59 : ℤ) := by
      rw [distance, Nat.cast_mul, mul_assoc, Nat.cast_pow, Nat.cast_ofNat, ← zpow_natCast,
        ← zpow_add₀ two_ne_zero]
      congr 2
      omega
    have positive : (0 : ℚ) < 2 ^ (-59 : ℤ) := by positivity
    rw [whole, mul_le_mul_iff_left₀ positive, mul_le_mul_iff_left₀ positive, Nat.cast_le,
      Nat.cast_le]
    omega
  · -- The double is so small that zero is near and all others are far.
    have tiny : |(k : ℚ) * 2 ^ (-(f : ℤ))| < 2 ^ (-7 : ℤ) := by
      rw [abs_intCast_mul_zpow]
      calc (k.natAbs : ℚ) * 2 ^ (-(f : ℤ)) < 2 ^ (-(f : ℤ) + 53) := mul_two_zpow_lt fits _
        _ ≤ 2 ^ (-7 : ℤ) := zpow_le_zpow_right₀ one_le_two (by omega)
    have more : (2 : ℚ) ^ (-7 : ℤ) ≤ (5764607523034234 : ℕ) * 2 ^ (-59 : ℤ) := by norm_num
    have less : ((5764607523034235 : ℕ) : ℚ) * 2 ^ (-59 : ℤ) ≤ 1 - 2 ^ (-7 : ℤ) := by norm_num
    rcases Nat.eq_zero_or_pos n with rfl | positive
    · left
      rw [Nat.cast_zero, zero_sub, abs_neg]
      exact tiny.le.trans more
    · right
      have whole : (1 : ℚ) ≤ n := by exact_mod_cast positive
      have sides := abs_sub_abs_le_abs_sub (n : ℚ) (k * 2 ^ (-(f : ℤ)))
      rw [Nat.abs_cast] at sides
      linarith

theorem abs_hundredth : (0.01 : Float).abs = 0.01 := by
  rfl

/-- Whether a double is within a hundredth of a whole number. -/
theorem distance_lt_hundredth_iff {p : Float} {n : ℕ} (hp : HasValue p n) (value : HasValue v x)
    (bound : n ≤ 2 ^ 52) : (p - v).abs < 0.01 ↔ |n - x| < 1 / 100 := by
  obtain ⟨u, rounded, size⟩ := hp.sub value
  have comparison := abs_lt_iff size hasSize_hundredth
  rw [abs_hundredth] at comparison
  rw [comparison]
  have double (k : ℕ) (fits : k < 2 ^ 53) : IsDouble (k * 2 ^ (-59 : ℤ)) :=
    ⟨k, -59, fits, by decide, by decide, rfl⟩
  have least : ((5764607523034234 : ℕ) : ℚ) * 2 ^ (-59 : ℤ) < 1 / 100 := by norm_num
  have greatest : (1 : ℚ) / 100 < (5764607523034235 : ℕ) * 2 ^ (-59 : ℤ) := by norm_num
  rcases value.hundredth_gap bound with near | far
  · have rounded := rounded.le_of_le (double _ (by decide)) near
    exact iff_of_true ((rounded.trans_lt least).trans greatest) (near.trans_lt least)
  · have rounded := rounded.le_of_ge (double _ (by decide)) far
    exact iff_of_false rounded.not_gt (greatest.trans_le far).not_gt

end

/-! ## Fifteen percent -/

theorem unpack_fifteen :
    (0.15 : Float).toModel.unpack = .finite .positive 5404319552844595 (-55) (by decide) := by
  rfl

theorem hasSize_fifteen :
    HasSize (0.15 : Float).toModel.unpack ((5404319552844595 : ℕ) * 2 ^ (-55 : ℤ)) := by
  rw [unpack_fifteen]
  rfl

theorem isDouble_fifteen : IsDouble ((5404319552844595 : ℕ) * 2 ^ (-55 : ℤ)) :=
  ⟨_, -55, by decide, by decide, by decide, rfl⟩

theorem abs_fifteen : (0.15 : Float).abs = 0.15 := by
  rfl

/-- Mantissas so large that what rounding adds to fifteen percent of them is more than a
twentieth. -/
def IsLarge (m : ℕ) : Prop := 2 ^ 56 < 12 * m ∧ m < 2 ^ 53

instance : DecidablePred IsLarge := fun _ => inferInstanceAs (Decidable (_ ∧ _))

/-- No double is off a whole number by a share that is more than fifteen percent and still rounded
down to it. -/
def Separated (n : ℕ) : Prop :=
  ∀ m f : ℕ, IsLarge m → 20 * |(n * 2 ^ f - m : ℤ)| ≠ 3 * m + 1

/-- No double with so many places is off a whole number by such a share, above it or below it. -/
def SeparatedAt (n f : ℕ) : Prop :=
  (20 * n * 2 ^ f % 23 = 1 → ¬IsLarge (20 * n * 2 ^ f / 23)) ∧
    ((20 * n * 2 ^ f + 1) % 17 = 0 → ¬IsLarge ((20 * n * 2 ^ f + 1) / 17))

instance (n : ℕ) : DecidablePred (SeparatedAt n) := fun _ => inferInstanceAs (Decidable (_ ∧ _))

/-- With more places all such doubles are smaller than the share. -/
theorem separated_of_forall {n : ℕ} (at_places : ∀ f < 58, SeparatedAt n f) : Separated n := by
  intro m f large one
  rw [Int.abs_eq_natAbs] at one
  have sides : 20 * n * 2 ^ f = 23 * m + 1 ∨ 20 * n * 2 ^ f + 1 = 17 * m := by
    rw [Nat.mul_assoc]
    zify
    omega
  have short : f < 58 := by
    obtain ⟨-, fits⟩ := large
    by_contra long
    have power : 2 ^ 58 ≤ 2 ^ f := Nat.pow_le_pow_right (by decide) (not_lt.mp long)
    rcases Nat.eq_zero_or_pos n with rfl | positive
    · omega
    · have product : 2 ^ f ≤ 20 * n * 2 ^ f := Nat.le_mul_of_pos_left _ (by omega)
      omega
  obtain ⟨up, down⟩ := at_places f short
  rcases sides with more | less
  · refine up (by omega) ?_
    rwa [show 20 * n * 2 ^ f / 23 = m by omega]
  · refine down (by omega) ?_
    rwa [show (20 * n * 2 ^ f + 1) / 17 = m by omega]

/-- What is rounded to at most the double nearest to fifteen percent is hardly more than that. -/
theorem le_fifteen_iff {q u : ℚ} (rounded : RoundsToDouble q u) :
    u ≤ (5404319552844595 : ℕ) * 2 ^ (-55 : ℤ) ↔ q < 3 / 20 + 3 / 5 * 2 ^ (-56 : ℤ) := by
  obtain ⟨r, rounded, rfl⟩ := rounded
  have half : (((5404319552844595 : ℕ) : ℚ) + 1 / 2) * 2 ^ (-55 : ℤ) =
      3 / 20 + 3 / 5 * 2 ^ (-56 : ℤ) := by norm_num
  rw [min_le_iff, or_iff_left isDouble_fifteen.lt_overflow.not_ge, ← half]
  exact rounded.le_iff_of_odd (by decide) (by decide) (by decide) (by decide) (by decide)

/-- A distance that is hardly more than fifteen percent is not more. -/
theorem HasValue.le_fifteen_of_separated {v : Float} {x : ℚ} (value : HasValue v x)
    (small : |x| < 2 ^ 53) {n : ℕ} (separated : Separated n)
    (hardly : |n - x| < (3 / 20 + 3 / 5 * 2 ^ (-56 : ℤ)) * |x|) : |n - x| ≤ 15 / 100 * |x| := by
  obtain ⟨k, f, -, fits, rfl, distance⟩ := value.exists_distance small
  have positive : (0 : ℚ) < 2 ^ (-(f : ℤ)) := by positivity
  rw [distance, abs_intCast_mul_zpow, ← mul_assoc, mul_lt_mul_iff_left₀ positive] at hardly
  rw [distance, abs_intCast_mul_zpow, ← mul_assoc, mul_le_mul_iff_left₀ positive]
  by_contra more
  -- In twentieths of the last bit, the distance is past three times the mantissa by one at most.
  have second : 3 * k.natAbs < 20 * (n * 2 ^ f - k : ℤ).natAbs := by
    have twentieths : (3 : ℚ) * k.natAbs < 20 * (n * 2 ^ f - k : ℤ).natAbs := by linarith
    exact_mod_cast twentieths
  have first : 2 ^ 56 * (20 * (n * 2 ^ f - k : ℤ).natAbs) < (3 * 2 ^ 56 + 12) * k.natAbs := by
    have scale : ((3 : ℚ) / 20 + 3 / 5 * 2 ^ (-56 : ℤ)) * (20 * 2 ^ 56) = 3 * 2 ^ 56 + 12 := by
      norm_num
    have scaled : (2 : ℚ) ^ 56 * (20 * (n * 2 ^ f - k : ℤ).natAbs) <
        (3 * 2 ^ 56 + 12) * k.natAbs := by
      rw [← scale]
      linarith
    exact_mod_cast scaled
  have one : 20 * (n * 2 ^ f - k : ℤ).natAbs = 3 * k.natAbs + 1 := by omega
  have large : IsLarge k.natAbs := ⟨by omega, fits⟩
  have sign : k = k.natAbs := by
    have whole : (0 : ℤ) ≤ n * 2 ^ f := by positivity
    omega
  refine separated k.natAbs f large ?_
  rw [← sign, Int.abs_eq_natAbs]
  omega

/-- Whether a double is within fifteen percent of a whole number. -/
theorem share_le_iff {p v : Float} {n : ℕ} {x : ℚ} (hp : HasValue p n) (value : HasValue v x)
    (other : x ≠ 0) (bound : n ≤ 2 ^ 52) (separated : Separated n) :
    ((p - v) / v).abs ≤ 0.15 ↔ |n - x| ≤ 15 / 100 * |x| := by
  have size := abs_pos.mpr other
  obtain ⟨u, difference, hu⟩ := hp.sub value
  obtain ⟨r, hr, quotient⟩ := exists_hasSize_div hu value other
  have comparison := abs_le_iff hr hasSize_fifteen
  rw [abs_fifteen] at comparison
  rw [comparison]
  constructor
  · intro le
    have rounded : RoundsToDouble (u / |x|) r := by
      refine quotient.resolve_right ?_
      rintro ⟨-, rfl⟩
      exact isDouble_fifteen.lt_overflow.not_ge le
    have hardly := (div_lt_iff₀ size).mp ((le_fifteen_iff rounded).mp le)
    have quarter : ((3 : ℚ) / 20 + 3 / 5 * 2 ^ (-56 : ℤ)) * |x| < |x| / 4 := by
      have share : (3 : ℚ) / 20 + 3 / 5 * 2 ^ (-56 : ℤ) < 1 / 4 := by norm_num
      calc _ < 1 / 4 * |x| := by gcongr
        _ = |x| / 4 := by ring
    have small : |x| < 2 ^ 53 := by
      by_contra large
      have := value.quarter_le (not_lt.mp large) bound difference
      linarith
    have within : |n - x| ≤ |x| := by
      by_contra past
      have := difference.le_of_ge value.isDouble (not_le.mp past).le
      linarith
    obtain rfl := difference.eq_of_isDouble (value.isDouble_sub small within)
    exact value.le_fifteen_of_separated small separated hardly
  · intro near
    have small : |x| < 2 ^ 53 := by
      by_contra large
      have := half_le_distance (not_lt.mp large) bound
      linarith
    have double := value.isDouble_sub small (n := n) (by linarith)
    obtain rfl := difference.eq_of_isDouble double
    have rounded := quotient.resolve_right fun infinite => double.lt_overflow.ne infinite.1
    refine (le_fifteen_iff rounded).mpr ((div_lt_iff₀ size).mpr ?_)
    have more : (15 : ℚ) / 100 < 3 / 20 + 3 / 5 * 2 ^ (-56 : ℤ) := by norm_num
    calc |n - x| ≤ 15 / 100 * |x| := near
      _ < _ := by gcongr

end Handoff.Decimal
