import Handoff.Decimal.Power
import Handoff.Proofs.Decimal.Significance

/-!
Singles as whole numbers of units.

A single that is not negative is a whole number of units of `2 ^ -149`, the least positive single
(`IsUnits`).  Sums, differences, products and quotients of such numbers are quotients of naturals,
rounded once (`nearestUnits`), and so is the single nearest to a binary number
(`isUnits_toFloat32`).  So what a formula gives can be worked out in whole numbers (`IsUnits.add`,
`IsUnits.power` and those between them).
-/

namespace Handoff.Decimal

open Float.Model (UnpackedFloat Format totalExponent)
open Float.Model.UnpackedFloat (Sign roundWithAccuracy accuracyOfFraction)

/-! ## Rounding -/

/-- A quotient of units rounded to the last bit that a single keeps of it, ties to even. -/
def nearestUnits (num den : ℕ) : ℕ :=
  let n := (num / den).log2 - 23
  roundDiv .toEven num (den <<< n) <<< n

theorem nearestUnits_zero (den : ℕ) : nearestUnits 0 den = 0 := by
  simp [nearestUnits, roundDiv, roundsUp]

theorem nearestUnits_mul_right (num den : ℕ) {c : ℕ} (positive : 0 < c) :
    nearestUnits (num * c) (den * c) = nearestUnits num den := by
  rw [nearestUnits, nearestUnits, Nat.mul_div_mul_right _ _ positive]
  generalize (num / den).log2 - 23 = n
  have shifted : (den * c) <<< n = den <<< n * c := by
    rw [Nat.shiftLeft_eq, Nat.shiftLeft_eq, Nat.mul_right_comm]
  rw [shifted, roundDiv_mul_right _ _ _ positive]

/-- Units with few bits are left as they are. -/
theorem nearestUnits_of_lt {m : ℕ} (fits : m < 2 ^ 24) (j : ℕ) :
    nearestUnits (m * 2 ^ j) 1 = m * 2 ^ j := by
  rcases Nat.eq_zero_or_pos m with rfl | positive
  · rw [Nat.zero_mul, nearestUnits_zero]
  · have bits : (m * 2 ^ j).log2 - 23 ≤ j := by
      have length := (Nat.log2_lt (Nat.ne_of_gt positive)).mpr fits
      have total := log2_shiftLeft (n := j) positive
      rw [Nat.shiftLeft_eq] at total
      omega
    rw [nearestUnits, Nat.div_one]
    generalize (m * 2 ^ j).log2 - 23 = n at bits ⊢
    have split : m * 2 ^ j = m * 2 ^ (j - n) * 2 ^ n := by
      rw [Nat.mul_assoc, ← Nat.pow_add, Nat.sub_add_cancel bits]
    rw [Nat.shiftLeft_eq, Nat.shiftLeft_eq, Nat.one_mul, split,
      roundDiv_mul_self _ _ _ (Nat.two_pow_pos n)]

theorem roundDiv_shiftLeft_le {tie : Tie} {num den n j : ℕ} (small : num < 2 ^ (n + j) * den) :
    roundDiv tie num (den <<< n) ≤ 2 ^ j := by
  have positive : 0 < den := Nat.pos_of_lt_mul_left small
  rw [Nat.shiftLeft_eq]
  refine roundDiv_le_of_lt (Nat.mul_pos positive (Nat.two_pow_pos n)) ?_
  rwa [Nat.mul_comm den, ← Nat.mul_assoc, ← Nat.pow_add, Nat.add_comm j]

/-- Rounding does not go past a power of two. -/
theorem nearestUnits_le {num den k : ℕ} (small : num < 2 ^ k * den) :
    nearestUnits num den ≤ 2 ^ k := by
  have few : (num / den).log2 - 23 ≤ k := by
    have quotient : num / den < 2 ^ k := Nat.div_lt_of_lt_mul (Nat.mul_comm _ _ ▸ small)
    by_cases none : num / den = 0
    · rw [none, Nat.log2_zero]
      exact Nat.zero_le k
    · have := (Nat.log2_lt none).mpr quotient
      omega
  rw [nearestUnits]
  generalize (num / den).log2 - 23 = n at few
  have split : 2 ^ k = 2 ^ (k - n) * 2 ^ n := by rw [← Nat.pow_add, Nat.sub_add_cancel few]
  rw [Nat.shiftLeft_eq _ n, split]
  refine Nat.mul_le_mul_right _ (roundDiv_shiftLeft_le ?_)
  rwa [Nat.add_sub_cancel' few]

/-- The shift that leaves twenty-four bits of a quotient, unless it has fewer. -/
theorem log2_sub_eq {a d k : ℕ} (positive : 0 < d) (below : a < 2 ^ (k + 24) * d)
    (leading : k = 0 ∨ 2 ^ (k + 23) * d ≤ a) : (a / d).log2 - 23 = k := by
  have less : a / d < 2 ^ (k + 24) := (Nat.div_lt_iff_lt_mul positive).mpr below
  by_cases none : a / d = 0
  · rcases leading with rfl | leading
    · rw [none, Nat.log2_zero]
    · have large := (Nat.le_div_iff_mul_le positive).mpr leading
      have := Nat.two_pow_pos (k + 23)
      omega
  · have high := (Nat.log2_lt none).mpr less
    rcases leading with rfl | leading
    · omega
    · have low := (Nat.le_log2 none).mpr ((Nat.le_div_iff_mul_le positive).mpr leading)
      omega

/-! ## Words -/

theorem mul_two_pow_lt {m bits i j k : ℕ} (fits : m < 2 ^ bits) (place : bits + i ≤ j + k) :
    m * 2 ^ i < 2 ^ j * 2 ^ k := by
  have power := Nat.pow_le_pow_right (n := 2) (by decide) place
  rw [Nat.pow_add, Nat.pow_add] at power
  exact Nat.lt_of_lt_of_le (Nat.mul_lt_mul_of_pos_right fits (Nat.two_pow_pos _)) power

theorem two_pow_mul_le {m bits i j k : ℕ} (leading : 2 ^ bits ≤ m) (place : j + k ≤ bits + i) :
    2 ^ j * 2 ^ k ≤ m * 2 ^ i := by
  have power := Nat.pow_le_pow_right (n := 2) (by decide) place
  rw [Nat.pow_add, Nat.pow_add] at power
  exact power.trans (Nat.mul_le_mul_right _ leading)

/-- The magnitude in the word of a number is its mantissa, rounded to the last bit that is kept of
it, and the place of that bit. -/
theorem exists_pack_single (b : Binary) (nonzero : b.mantissa ≠ 0) : ∃ (quantum : ℤ) (r : ℕ),
    max (b.exponent + (b.mantissa.log2 + 1 : ℕ) - 24) (-149) = quantum ∧
      roundDiv .toEven (b.mantissa * 2 ^ (b.exponent - quantum).toNat)
        (2 ^ (-(b.exponent - quantum)).toNat) = r ∧ r ≤ 2 ^ 24 ∧
      Layout.single.pack b = (if b.negative then 2 ^ 31 else 0) +
        min (r + (quantum + 149).toNat * 2 ^ 23) (255 * 2 ^ 23) := by
  obtain ⟨quantum, chosen⟩ : ∃ quantum,
      max (b.exponent + (b.mantissa.log2 + 1 : ℕ) - 24) (-149) = quantum := ⟨_, rfl⟩
  refine ⟨quantum, _, chosen, rfl, ?_, ?_⟩
  · exact roundDiv_le_of_lt (Nat.two_pow_pos _) (mul_two_pow_lt Nat.lt_log2_self (by omega))
  · have least : Layout.single.leastExponent = -149 := rfl
    have place : max (b.exponent + (b.mantissa.log2 + 1 : ℕ) - (23 : ℕ) - 1)
        Layout.single.leastExponent = quantum := by omega
    rw [Layout.pack, if_neg nonzero]
    dsimp only [Layout.single, Nat.pow_eq] at place ⊢
    rw [place]
    rfl

/-- What is packed for a number is the nearest number of units. -/
theorem exists_word (m : ℕ) (e : ℤ) : ∃ r f : ℕ, r ≤ 2 ^ 24 ∧ (f = 0 ∨ 2 ^ 23 ≤ r) ∧
    Layout.single.pack ⟨false, m, e⟩ = min (r + f * 2 ^ 23) (255 * 2 ^ 23) ∧
    nearestUnits (m <<< (e + 149).toNat) (1 <<< (-(e + 149)).toNat) = r <<< f := by
  by_cases zero : m = 0
  · subst zero
    refine ⟨0, 0, Nat.zero_le _, .inl rfl, ?_, ?_⟩
    · rw [Layout.pack, if_pos rfl]
      simp
    · rw [Nat.zero_shiftLeft, nearestUnits_zero, Nat.zero_shiftLeft]
  obtain ⟨quantum, r, chosen, rounded, carried, word⟩ := exists_pack_single ⟨false, m, e⟩ zero
  dsimp only at chosen rounded word
  rw [if_neg Bool.false_ne_true, Nat.zero_add] at word
  obtain ⟨f, place⟩ : ∃ f, f = (quantum + 149).toNat := ⟨_, rfl⟩
  rw [← place] at word
  simp only [Nat.shiftLeft_eq, Nat.one_mul]
  have below : m * 2 ^ (e + 149).toNat < 2 ^ (f + 24) * 2 ^ (-(e + 149)).toNat :=
    mul_two_pow_lt Nat.lt_log2_self (by omega)
  have leading : f = 0 ∨ 2 ^ (f + 23) * 2 ^ (-(e + 149)).toNat ≤ m * 2 ^ (e + 149).toNat :=
    (Nat.eq_zero_or_pos f).imp_right fun later =>
      two_pow_mul_le (Nat.log2_self_le zero) (by omega)
  have same : roundDiv .toEven (m * 2 ^ (e + 149).toNat) (2 ^ (-(e + 149)).toNat * 2 ^ f) = r := by
    rw [← rounded]
    refine roundDiv_congr (Nat.mul_pos (Nat.two_pow_pos _) (Nat.two_pow_pos _))
      (Nat.two_pow_pos _) ?_
    rw [Nat.mul_assoc, Nat.mul_assoc, ← Nat.pow_add, ← Nat.pow_add, ← Nat.pow_add]
    congr 2
    omega
  refine ⟨r, f, carried, leading.imp_right fun leading => ?_, word, ?_⟩
  · rw [← same, roundDiv]
    refine Nat.le_add_right_of_le ((Nat.le_div_iff_mul_le (by positivity)).mpr ?_)
    refine le_of_eq_of_le ?_ leading
    rw [Nat.pow_add]
    ring
  · rw [nearestUnits, log2_sub_eq (Nat.two_pow_pos _) below leading, Nat.shiftLeft_eq,
      Nat.shiftLeft_eq, same]

/-- The single nearest to a number is unpacked from its word, packed and unpacked again. -/
theorem unpack_toFloat32 (b : Binary) : b.toFloat32.toModel.unpack =
    UnpackedFloat.unpack .binary32 (UnpackedFloat.pack .binary32
      (UnpackedFloat.unpack .binary32 (BitVec.ofNat 32 (Layout.single.pack b)))) := rfl

theorem unpack?_single (w : ℕ) : Layout.single.unpack? w =
    if w / 2 ^ 23 % 2 ^ 8 = 255 then none
    else if w / 2 ^ 23 % 2 ^ 8 = 0 then some ⟨w / 2 ^ 31 % 2 == 1, w % 2 ^ 23, -149⟩
    else some ⟨w / 2 ^ 31 % 2 == 1, w % 2 ^ 23 + 2 ^ 23, -149 + (w / 2 ^ 23 % 2 ^ 8 : ℕ) - 1⟩ := rfl

/-- A word stands for its mantissa in the place of the last bit, also if the mantissa has been
rounded up to a power of two. -/
theorem exists_unpack?_single {r f : ℕ} (carried : r ≤ 2 ^ 24) (leading : f = 0 ∨ 2 ^ 23 ≤ r)
    (small : f ≤ 252) : ∃ m e, Layout.single.unpack? (r + f * 2 ^ 23) = some ⟨false, m, e⟩ ∧
      m <<< (e + 149).toNat = r <<< f := by
  obtain ⟨w, word⟩ : ∃ w, w = r + f * 2 ^ 23 := ⟨_, rfl⟩
  have unpacked := unpack?_single w
  have sign : (w / 2 ^ 31 % 2 == 1) = false := beq_false_of_ne (by omega)
  rw [sign] at unpacked
  rw [← word]
  by_cases subnormal : r < 2 ^ 23
  · obtain rfl : f = 0 := leading.resolve_right (by omega)
    have field : w / 2 ^ 23 % 2 ^ 8 = 0 := by omega
    have fraction : w % 2 ^ 23 = r := by omega
    rw [if_neg (by omega), if_pos field, fraction] at unpacked
    exact ⟨r, -149, unpacked, rfl⟩
  by_cases whole : r = 2 ^ 24
  · have field : w / 2 ^ 23 % 2 ^ 8 = f + 2 := by omega
    have fraction : w % 2 ^ 23 = 0 := by omega
    rw [field, fraction, if_neg (by omega), if_neg (by omega)] at unpacked
    refine ⟨_, _, unpacked, ?_⟩
    rw [whole, show (-149 + ((f + 2 : ℕ) : ℤ) - 1 + 149).toNat = f + 1 by omega, Nat.shiftLeft_eq,
      Nat.shiftLeft_eq, Nat.pow_succ]
    omega
  · have field : w / 2 ^ 23 % 2 ^ 8 = f + 1 := by omega
    have fraction : w % 2 ^ 23 + 2 ^ 23 = r := by omega
    rw [field, fraction, if_neg (by omega), if_neg (by omega)] at unpacked
    refine ⟨_, _, unpacked, ?_⟩
    rw [show (-149 + ((f + 1 : ℕ) : ℤ) - 1 + 149).toNat = f by omega]

/-! ## Unpacked numbers -/

/-- How many units of `2 ^ -149`, the least positive single, a number is, if it is not negative. -/
def units? : UnpackedFloat → Option ℕ
  | .zero _ => some 0
  | .finite .positive m e _ => some (m <<< (e + 149).toNat)
  | .finite .negative _ _ _ | .infinity _ | .notANumber => none

/-- A number of units, with as many bits as there can be. -/
def HasUnits (u : ℕ) : UnpackedFloat → Prop
  | .zero _ => u = 0
  | .finite s m e _ => s = .positive ∧ Settled m e ∧ u = m * 2 ^ (e + 149).toNat
  | .infinity _ | .notANumber => False

/-- A power of two in units. -/
theorem two_zpow_eq_units {j : ℕ} {i : ℤ} (place : (j : ℤ) = i + 149) :
    (2 : ℚ) ^ i = 2 ^ j * 2 ^ (-149 : ℤ) := by
  rw [← zpow_natCast, place, ← zpow_add₀ two_ne_zero, Int.add_neg_cancel_right]

theorem mul_units_lt_iff {a d j : ℕ} {i : ℤ} (positive : 0 < d) (place : (j : ℤ) = i + 149) :
    (a : ℚ) / d * 2 ^ (-149 : ℤ) < 2 ^ i ↔ a < 2 ^ j * d := by
  rw [two_zpow_eq_units place, mul_lt_mul_iff_left₀ (by positivity),
    div_lt_iff₀ (Nat.cast_pos.mpr positive)]
  exact_mod_cast Iff.rfl

/-- A quotient is rounded to the nearest number of units. -/
theorem hasUnits_roundWithAccuracy {num den a d : ℕ} {e : ℤ} (hden : 0 < den) (hd : 0 < d)
    (same : (num : ℚ) / den * 2 ^ e = a / d * 2 ^ (-149 : ℤ))
    (filled : e ≤ max (totalExponent (num / den) e - 24) (-149)) :
    HasUnits (nearestUnits a d) (roundWithAccuracy .binary32 .positive (num / den) e
      (accuracyOfFraction (num % den) den)) := by
  have located := Locates.quotient num hden
  have bounds := located.mantissa_le
  rw [mantissa_ofMantissaAndAccuracy] at bounds
  obtain ⟨below, leading⟩ := bits_of_mantissa (p := 24) bounds (by decide) filled
  obtain ⟨n, amount⟩ : ∃ n : ℕ, n = (max (totalExponent (num / den) e - 24) (-149) - e).toNat :=
    ⟨_, rfl⟩
  obtain ⟨t, target⟩ : ∃ t, t = e + n := ⟨_, rfl⟩
  obtain ⟨k, place⟩ : ∃ k : ℕ, (k : ℤ) = t + 149 := ⟨(t + 149).toNat, by omega⟩
  push_cast at below leading
  rw [show max (totalExponent (num / den) e - 24) (-149) = t by omega, same] at below leading
  have below' : a < 2 ^ (k + 24) * d := (mul_units_lt_iff hd (by push_cast; omega)).mp below
  have leading' : k = 0 ∨ 2 ^ (k + 23) * d ≤ a := by
    refine leading.imp (fun bottom => by omega) fun leading => ?_
    exact not_lt.mp fun less => leading.not_gt
      ((mul_units_lt_iff hd (by push_cast; omega)).mpr less)
  have positive : 0 < d <<< k := by
    rw [Nat.shiftLeft_eq]
    exact Nat.mul_pos hd (Nat.two_pow_pos k)
  -- The mantissa that is rounded is the quotient of units without its last bits.
  have quotient : (num : ℚ) / den / 2 ^ n = a / (d <<< k : ℕ) := by
    have scaled : (num : ℚ) / den / 2 ^ n * 2 ^ t = a / d * 2 ^ (-149 : ℤ) := by
      rw [← same, target, zpow_add₀ two_ne_zero, zpow_natCast, mul_comm ((2 : ℚ) ^ e),
        ← mul_assoc, div_mul_cancel₀ _ (by positivity)]
    rw [two_zpow_eq_units place, ← mul_assoc, mul_left_inj' (by positivity)] at scaled
    rw [Nat.shiftLeft_eq, eq_div_iff (by positivity)]
    push_cast
    rw [mul_comm (d : ℚ), ← mul_assoc, scaled, div_mul_cancel₀ _ (by positivity)]
  have nearest := (located.shiftRight n).isNearest
  rw [quotient] at nearest
  have rounded := Int.natCast_inj.mp (nearest.unique (isNearest_roundDiv a positive))
  have value : nearestUnits a d = roundDiv .toEven a (d <<< k) * 2 ^ k := by
    rw [nearestUnits, log2_sub_eq hd below' leading', Nat.shiftLeft_eq _ k]
  have carried : roundDiv .toEven a (d <<< k) ≤ 2 ^ 24 := roundDiv_shiftLeft_le below'
  have bits : t = -149 ∨ 2 ^ 23 ≤ roundDiv .toEven a (d <<< k) := by
    refine leading'.imp (fun bottom => by omega) fun leading => ?_
    refine ((Nat.le_div_iff_mul_le positive).mpr ?_).trans (Nat.le_add_right _ _)
    rw [Nat.shiftLeft_eq, Nat.mul_comm d, ← Nat.mul_assoc, ← Nat.pow_add, Nat.add_comm 23]
    exact leading
  generalize roundDiv .toEven a (d <<< k) = r at rounded value carried bits
  obtain ⟨n', amount'⟩ : ∃ n' : ℕ, n' = (max (totalExponent r t - 24) (-149) - t).toNat := ⟨_, rfl⟩
  rw [roundWithAccuracy_shifted .binary32 .positive amount rounded.symm
    (amount'.trans (target ▸ rfl)), ← target, value]
  rcases Nat.eq_zero_or_pos r with rfl | some
  · rw [dif_pos (Nat.zero_div _)]
    exact Nat.zero_mul _
  · obtain ⟨whole, other, settled⟩ := settled_of_carried some carried (by omega) bits amount'
    rw [dif_neg other]
    refine ⟨rfl, settled, ?_⟩
    rw [show (t + n' + 149).toNat = n' + k by omega, Nat.pow_add, ← Nat.mul_assoc, whole]

theorem HasUnits.of_settled {m : ℕ} {e : ℤ} {h : 0 < m} (settled : Settled m e) :
    HasUnits (nearestUnits (m * 2 ^ (e + 149).toNat) 1) (.finite .positive m e h) :=
  ⟨rfl, settled, nearestUnits_of_lt settled.fits _⟩

theorem units_eq {m : ℕ} {e : ℤ} (least : -149 ≤ e) :
    ((m * 2 ^ (e + 149).toNat : ℕ) : ℚ) * 2 ^ (-149 : ℤ) = m * 2 ^ e :=
  mul_two_pow_mul_zpow m least

theorem units_shiftLeft (m : ℕ) {e f : ℤ} (le : f ≤ e) (least : -149 ≤ e) :
    ((m <<< (e - f).toNat : ℕ) : ℚ) * 2 ^ f = (m * 2 ^ (e + 149).toNat : ℕ) * 2 ^ (-149 : ℤ) := by
  rw [Nat.shiftLeft_eq, mul_two_pow_mul_zpow m le, units_eq least]

theorem hasUnits_exact {m a d : ℕ} {e : ℤ} (hd : 0 < d)
    (same : (m : ℚ) * 2 ^ e = a / d * 2 ^ (-149 : ℤ))
    (filled : e ≤ max (totalExponent m e - 24) (-149)) :
    HasUnits (nearestUnits a d) (roundWithAccuracy .binary32 .positive m e .exact) := by
  have scaled : (m : ℚ) / (1 : ℕ) * 2 ^ e = a / d * 2 ^ (-149 : ℤ) := by
    rwa [Nat.cast_one, div_one]
  have rounded := hasUnits_roundWithAccuracy Nat.one_pos hd scaled (by rwa [Nat.div_one])
  rwa [Nat.div_one, Nat.mod_one] at rounded

theorem hasUnits_round {m a : ℕ} {e : ℤ} (positive : 0 < m)
    (same : (m : ℚ) * 2 ^ e = a * 2 ^ (-149 : ℤ)) :
    HasUnits (nearestUnits a 1) (UnpackedFloat.round .binary32 .positive m e) := by
  have target : Format.targetExponent .binary32 (totalExponent m e) =
      max (totalExponent m e - 24) (-149) := rfl
  rw [UnpackedFloat.round, UnpackedFloat.decreaseExponent, target]
  dsimp only
  obtain ⟨f, filled⟩ : ∃ f, f = e - (e - max (totalExponent m e - 24) (-149)).toNat := ⟨_, rfl⟩
  have amount : (e - max (totalExponent m e - 24) (-149)).toNat = (e - f).toNat := by omega
  have total := log2_shiftLeft (n := (e - f).toNat) positive
  rw [← filled, amount]
  refine hasUnits_exact Nat.one_pos ?_ ?_
  · rw [Nat.shiftLeft_eq, mul_two_pow_mul_zpow m (show f ≤ e by omega), same, Nat.cast_one, div_one]
  · rw [totalExponent] at filled ⊢
    omega

theorem hasUnits_normalize {m e : ℤ} {a : ℕ} (same : (m : ℚ) * 2 ^ e = a * 2 ^ (-149 : ℤ)) :
    HasUnits (nearestUnits a 1) (UnpackedFloat.normalize .binary32 m e .positive) := by
  have sign : 0 ≤ (m : ℚ) := by
    have power : (0 : ℚ) < 2 ^ e := by positivity
    rw [← mul_nonneg_iff_of_pos_right power, same]
    positivity
  obtain ⟨n, rfl⟩ := Int.eq_ofNat_of_zero_le (Int.cast_nonneg_iff.mp sign)
  rw [UnpackedFloat.normalize]
  split
  case h_1 negative =>
    have := Int.compare_eq_lt.mp negative
    omega
  case h_2 zero =>
    obtain rfl : n = 0 := by
      have := Int.compare_eq_eq.mp zero
      omega
    rw [Int.natCast_zero, Int.cast_zero, zero_mul, eq_comm, mul_eq_zero_iff_right (by positivity),
      Nat.cast_eq_zero] at same
    rw [same]
    exact nearestUnits_zero 1
  case h_3 positive =>
    have := Int.compare_eq_gt.mp positive
    exact hasUnits_round (by omega) same

section

variable {x y : UnpackedFloat} {a b : ℕ}

theorem hasUnits_mul (hx : HasUnits a x) (hy : HasUnits b y) :
    HasUnits (nearestUnits (a * b) (2 ^ 149)) (UnpackedFloat.mul .binary32 x y) := by
  rcases x with _ | _ | s | ⟨s, m, e, h⟩ <;> rcases y with _ | _ | s' | ⟨s', m', e', h'⟩
  case finite.finite =>
    obtain ⟨rfl, settled, rfl⟩ := hx
    obtain ⟨rfl, settled', rfl⟩ := hy
    refine hasUnits_exact (Nat.two_pow_pos _) ?_ ?_
    · have unit : ((2 ^ 149 : ℕ) : ℚ)⁻¹ = 2 ^ (-149 : ℤ) := by
        rw [zpow_neg]
        norm_cast
      rw [zpow_add₀ two_ne_zero, div_eq_mul_inv, unit, Nat.cast_mul, Nat.cast_mul,
        mul_mul_mul_comm, ← units_eq settled.least, ← units_eq settled'.least]
      ring
    · -- One factor has all its bits, or the product is far below the least positive number.
      have positive := Nat.mul_pos h h'
      have bits (leading : 2 ^ 23 ≤ m ∨ 2 ^ 23 ≤ m') : 23 ≤ (m * m').log2 := by
        refine (Nat.le_log2 (Nat.ne_of_gt positive)).mpr ?_
        rcases leading with leading | leading
        · exact leading.trans (Nat.le_mul_of_pos_right m h')
        · exact leading.trans (Nat.le_mul_of_pos_left m' h)
      rw [totalExponent]
      rcases settled.leading with bottom | leading
      · rcases settled'.leading with bottom' | leading'
        · omega
        · have := bits (.inr leading')
          omega
      · have := bits (.inl leading)
        omega
  case zero.zero | zero.finite =>
    obtain rfl := hx
    rw [Nat.zero_mul, nearestUnits_zero]
    rfl
  case finite.zero =>
    obtain rfl := hy
    rw [Nat.mul_zero, nearestUnits_zero]
    rfl
  all_goals first | exact hx.elim | exact hy.elim

theorem hasUnits_add (hx : HasUnits a x) (hy : HasUnits b y) :
    HasUnits (nearestUnits (a + b) 1) (UnpackedFloat.add .binary32 x y) := by
  rcases x with _ | _ | s | ⟨s, m, e, h⟩ <;> rcases y with _ | _ | s' | ⟨s', m', e', h'⟩
  case finite.finite =>
    obtain ⟨rfl, settled, rfl⟩ := hx
    obtain ⟨rfl, settled', rfl⟩ := hy
    refine hasUnits_normalize ?_
    rw [Nat.cast_add, add_mul, ← units_shiftLeft m (min_le_left e e') settled.least,
      ← units_shiftLeft m' (min_le_right e e') settled'.least, ← add_mul]
    push_cast [Sign.apply]
    rfl
  case zero.zero =>
    obtain rfl := hx
    obtain rfl := hy
    rw [nearestUnits_zero, UnpackedFloat.add]
    split <;> rfl
  case zero.finite =>
    obtain rfl := hx
    obtain ⟨rfl, settled, rfl⟩ := hy
    rw [Nat.zero_add]
    exact .of_settled settled
  case finite.zero =>
    obtain rfl := hy
    obtain ⟨rfl, settled, rfl⟩ := hx
    exact .of_settled settled
  all_goals first | exact hx.elim | exact hy.elim

theorem hasUnits_sub (hx : HasUnits a x) (hy : HasUnits b y) (le : b ≤ a) :
    HasUnits (nearestUnits (a - b) 1) (UnpackedFloat.sub .binary32 x y) := by
  rcases x with _ | _ | s | ⟨s, m, e, h⟩ <;> rcases y with _ | _ | s' | ⟨s', m', e', h'⟩
  case finite.finite =>
    obtain ⟨rfl, settled, rfl⟩ := hx
    obtain ⟨rfl, settled', rfl⟩ := hy
    refine hasUnits_normalize ?_
    rw [Nat.cast_sub le, sub_mul, ← units_shiftLeft m (min_le_left e e') settled.least,
      ← units_shiftLeft m' (min_le_right e e') settled'.least, ← sub_mul]
    push_cast [Sign.apply]
    rfl
  case zero.zero =>
    obtain rfl := hx
    rw [Nat.zero_sub, nearestUnits_zero, UnpackedFloat.sub]
    split <;> rfl
  case zero.finite =>
    obtain rfl := hx
    obtain ⟨rfl, settled, rfl⟩ := hy
    have := Nat.mul_pos h' (Nat.two_pow_pos (e' + 149).toNat)
    omega
  case finite.zero =>
    obtain rfl := hy
    obtain ⟨rfl, settled, rfl⟩ := hx
    exact .of_settled settled
  all_goals first | exact hx.elim | exact hy.elim

theorem hasUnits_div (hx : HasUnits a x) (hy : HasUnits b y) (other : 0 < b) :
    HasUnits (nearestUnits (a * 2 ^ 149) b) (UnpackedFloat.div .binary32 x y) := by
  rcases x with _ | _ | s | ⟨s, m, e, h⟩ <;> rcases y with _ | _ | s' | ⟨s', m', e', h'⟩
  case finite.finite =>
    obtain ⟨rfl, settled, rfl⟩ := hx
    obtain ⟨rfl, settled', rfl⟩ := hy
    obtain ⟨target, chosen⟩ : ∃ target, target = min (e - e')
        (max (totalExponent m e - totalExponent m' e' - 24) (-149)) := ⟨_, rfl⟩
    have value : UnpackedFloat.div .binary32 (.finite .positive m e h)
        (.finite .positive m' e' h') = roundWithAccuracy .binary32 .positive
          (m <<< (e - e' - target).toNat / m') target
          (accuracyOfFraction (m <<< (e - e' - target).toNat % m') m') := by
      rw [chosen]
      rfl
    have positive : 0 < m <<< (e - e' - target).toNat := by
      rw [Nat.shiftLeft_eq]
      exact Nat.mul_pos h (Nat.two_pow_pos _)
    rw [value]
    refine hasUnits_roundWithAccuracy h' other ?_
      (filled_div h' (by decide) positive (log2_shiftLeft h) chosen)
    have unit : (2 : ℚ) ^ (-149 : ℤ) ≠ 0 := by positivity
    have power : (2 : ℚ) ^ (149 : ℕ) * 2 ^ (-149 : ℤ) = 1 := by norm_num
    have quotient : ((m * 2 ^ (e + 149).toNat : ℕ) : ℚ) / (m' * 2 ^ (e' + 149).toNat : ℕ) =
        m * 2 ^ e / (m' * 2 ^ e') := by
      rw [← units_eq settled.least, ← units_eq settled'.least, mul_div_mul_right _ _ unit]
    rw [div_mul_eq_mul_div, Nat.shiftLeft_eq, mul_two_pow_mul_zpow m (by omega), Nat.cast_mul,
      div_mul_eq_mul_div, mul_assoc, Nat.cast_pow, Nat.cast_ofNat, power, mul_one, quotient,
      zpow_sub₀ two_ne_zero]
    field_simp
  case zero.finite =>
    obtain rfl := hx
    rw [Nat.zero_mul, nearestUnits_zero]
    rfl
  case zero.zero | finite.zero =>
    obtain rfl := hy
    omega
  all_goals first | exact hx.elim | exact hy.elim

/-- Numbers of units are in the order of the numbers. -/
theorem HasUnits.lt_of_rank_lt (hx : HasUnits a x) (hy : HasUnits b y) (less : rank x < rank y) :
    a < b := by
  rcases x with _ | _ | s | ⟨s, m, e, h⟩ <;> rcases y with _ | _ | s' | ⟨s', m', e', h'⟩
  case zero.zero => exact absurd less (lt_irrefl _)
  case zero.finite =>
    obtain rfl := hx
    obtain ⟨rfl, -, rfl⟩ := hy
    exact Nat.mul_pos h' (Nat.two_pow_pos _)
  case finite.zero =>
    obtain ⟨rfl, -, -⟩ := hx
    exact absurd less (Positive.rank_zero_lt (x := .finite .positive m e h) trivial s').not_gt
  case finite.finite =>
    obtain ⟨rfl, settled, rfl⟩ := hx
    obtain ⟨rfl, settled', rfl⟩ := hy
    rcases Prod.Lex.toLex_lt_toLex.mp less with sign | ⟨-, rest⟩
    · exact absurd sign (lt_irrefl _)
    rcases Prod.Lex.toLex_lt_toLex.mp rest with exponent | ⟨exponent, mantissa⟩
    · -- The mantissa of the greater exponent has all its bits.
      have least := settled.least
      have exponent : e < e' := exponent
      have leading := settled'.leading.resolve_left (by omega)
      calc m * 2 ^ (e + 149).toNat < 2 ^ 24 * 2 ^ (e + 149).toNat :=
            Nat.mul_lt_mul_of_pos_right settled.fits (Nat.two_pow_pos _)
        _ = 2 ^ 23 * 2 ^ ((e + 149).toNat + 1) := by
            rw [Nat.pow_succ]
            omega
        _ ≤ m' * 2 ^ (e' + 149).toNat :=
            Nat.mul_le_mul leading (Nat.pow_le_pow_right (by decide) (by omega))
    · obtain rfl : e = e' := exponent
      exact Nat.mul_lt_mul_of_pos_right (Int.ofNat_lt.mp mantissa) (Nat.two_pow_pos _)
  all_goals first | exact hx.elim | exact hy.elim

theorem HasUnits.eq_of_rank_eq (hx : HasUnits a x) (hy : HasUnits b y) (same : rank x = rank y) :
    a = b := by
  rcases x with _ | _ | s | ⟨s, m, e, h⟩ <;> rcases y with _ | _ | s' | ⟨s', m', e', h'⟩
  case zero.zero => exact hx.trans hy.symm
  case zero.finite =>
    obtain ⟨rfl, -, -⟩ := hy
    exact absurd same (Positive.rank_zero_lt (x := .finite .positive m' e' h') trivial s).ne
  case finite.zero =>
    obtain ⟨rfl, -, -⟩ := hx
    exact absurd same (Positive.rank_zero_lt (x := .finite .positive m e h) trivial s').ne'
  case finite.finite =>
    obtain ⟨rfl, -, rfl⟩ := hx
    obtain ⟨rfl, -, rfl⟩ := hy
    obtain ⟨rfl, mantissa⟩ := Prod.mk.inj (Prod.mk.inj same).2
    rw [Int.natCast_inj.mp mantissa]
  all_goals first | exact hx.elim | exact hy.elim

theorem HasUnits.ne_notANumber (hx : HasUnits a x) : x ≠ .notANumber := by
  rintro rfl
  exact hx

theorem HasUnits.rank_lt_iff (hx : HasUnits a x) (hy : HasUnits b y) : rank x < rank y ↔ a < b := by
  refine ⟨hx.lt_of_rank_lt hy, fun less => ?_⟩
  rcases lt_trichotomy (rank x) (rank y) with ranks | same | other
  · exact ranks
  · exact absurd (hx.eq_of_rank_eq hy same) less.ne
  · exact absurd (hy.lt_of_rank_lt hx other) less.not_gt

theorem units?_of_hasUnits (hx : HasUnits a x) : units? x = some a := by
  rcases x with _ | _ | s | ⟨s, m, e, h⟩
  case zero => exact congrArg some hx.symm
  case finite =>
    obtain ⟨rfl, -, rfl⟩ := hx
    rw [units?, Nat.shiftLeft_eq]
  all_goals exact hx.elim

theorem units?_of_finite? {m : ℕ} {e : ℤ}
    (read : finite? .binary32 x = some ⟨false, m, e⟩) :
    units? x = some (m <<< (e + 149).toNat) := by
  rcases x with s | _ | s | ⟨s, m', e', h⟩
  case zero =>
    obtain ⟨-, rfl, -⟩ := Binary.mk.inj (Option.some.inj read)
    rw [Nat.zero_shiftLeft, units?]
  case finite =>
    obtain ⟨sign, rfl, rfl⟩ := Binary.mk.inj (Option.some.inj read)
    cases s with
    | positive => rfl
    | negative => cases sign
  all_goals cases read

theorem hasUnits_of_units? (canonical : CanonicalFor .binary32 x) (known : units? x = some a) :
    HasUnits a x := by
  rcases x with _ | _ | s | ⟨_ | _, m, e, h⟩
  case zero => exact (Option.some.inj known).symm
  case finite.positive =>
    rw [units?, Nat.shiftLeft_eq] at known
    exact ⟨rfl, settled_of_canonicalFor canonical, (Option.some.inj known).symm⟩
  all_goals cases known

/-- Packing loses nothing of a number that is not too large. -/
theorem units?_unpack_pack (hx : HasUnits a x) (small : a ≤ 2 ^ 255) :
    units? (UnpackedFloat.unpack .binary32 (x.pack .binary32)) = some a := by
  rcases x with s | _ | s | ⟨s, m, e, h⟩
  case zero =>
    obtain rfl := hx
    cases s <;> rfl
  case finite =>
    have known := units?_of_hasUnits hx
    obtain ⟨rfl, settled, rfl⟩ := hx
    have exponent : e ≤ 104 := by
      by_contra large
      have leading := settled.leading.resolve_left (by omega)
      have power := Nat.pow_le_pow_right (n := 2) (by decide)
        (show 254 ≤ (e + 149).toNat by omega)
      have := Nat.mul_le_mul leading power
      omega
    rw [unpack_pack_of_canonicalFor (canonicalFor_of_settled .positive h settled exponent)]
    exact known
  all_goals exact hx.elim

end

/-! ## Singles -/

/-- A single is a number of units. -/
def IsUnits (x : Float32) (u : ℕ) : Prop :=
  units? x.toModel.unpack = some u

instance decidableIsUnits (x : Float32) (u : ℕ) : Decidable (IsUnits x u) :=
  inferInstanceAs (Decidable (units? x.toModel.unpack = some u))

/-- The binary logarithm of a number less than `2 ^ 2 ^ j`, found by halving the range. -/
def bisectLog2 : ℕ → ℕ → ℕ
  | 0, _ => 0
  | j + 1, n =>
    bif Nat.ble (1 <<< (1 <<< j)) n then (1 <<< j) + bisectLog2 j (n >>> (1 <<< j))
    else bisectLog2 j n

theorem bisectLog2_eq : ∀ {j n : ℕ}, n < 2 ^ 2 ^ j → bisectLog2 j n = n.log2
  | 0, n, small => by
      rw [bisectLog2]
      have : n = 0 ∨ n = 1 := by omega
      rcases this with rfl | rfl <;> rfl
  | j + 1, n, small => by
      rw [bisectLog2, Nat.one_shiftLeft, Nat.one_shiftLeft, Nat.shiftRight_eq_div_pow]
      rw [Nat.pow_succ 2 j, Nat.mul_two, Nat.pow_add] at small
      cases large : Nat.ble (2 ^ 2 ^ j) n
      case false =>
        have less : n < 2 ^ 2 ^ j := by
          by_contra more
          rw [Nat.ble_eq_true_of_le (not_lt.mp more)] at large
          cases large
        rw [cond_false, bisectLog2_eq less]
      case true =>
        have positive : 0 < n := (Nat.two_pow_pos _).trans_le (Nat.le_of_ble_eq_true large)
        have bits := (Nat.le_log2 positive.ne').mpr (Nat.le_of_ble_eq_true large)
        rw [cond_true, bisectLog2_eq (Nat.div_lt_of_lt_mul small), log2_div_two_pow bits positive,
          Nat.add_sub_cancel' bits]

/-- A quotient of units rounded to a single, unless it is too large. -/
def rounded? (num den : ℕ) : Option ℕ :=
  let n := bisectLog2 9 (num / den) - 23
  let d := den <<< n
  let q := num / d
  bif Nat.blt num (den <<< 255) then
    some ((q + (Nat.blt d (2 * (num % d) + q % 2)).toNat) <<< n)
  else none

theorem roundDiv_toEven (num den : ℕ) : roundDiv .toEven num den =
    num / den + (Nat.blt den (2 * (num % den) + num / den % 2)).toNat := by
  rw [roundDiv, roundsUp]
  congr 2
  rw [Bool.eq_iff_iff, Nat.blt_eq]
  split
  · rw [beq_iff_eq]
    omega
  · rw [decide_eq_true_iff]
    omega

theorem blt_shiftLeft_iff {num den n : ℕ} : Nat.blt num (den <<< n) = true ↔ num < 2 ^ n * den := by
  rw [Nat.blt_eq, Nat.shiftLeft_eq, Nat.mul_comm]

/-- What is worked out is the nearest number of units. -/
theorem rounded?_eq_some {num den u : ℕ} (rounded : rounded? num den = some u) :
    0 < den ∧ nearestUnits num den = u ∧ u ≤ 2 ^ 255 := by
  rw [rounded?] at rounded
  cases bound : Nat.blt num (den <<< 255)
  case false =>
    rw [bound] at rounded
    cases rounded
  case true =>
    rw [bound, cond_true, Option.some_inj] at rounded
    have small := blt_shiftLeft_iff.mp bound
    have positive : 0 < den := Nat.pos_of_lt_mul_left small
    have quotient := (Nat.div_lt_iff_lt_mul positive).mpr small
    have bits : bisectLog2 9 (num / den) = (num / den).log2 :=
      bisectLog2_eq (quotient.trans_le (Nat.pow_le_pow_right (by decide) (by decide)))
    have value : nearestUnits num den = u := by
      rw [← rounded, bits, nearestUnits, roundDiv_toEven]
    exact ⟨positive, value, value ▸ nearestUnits_le small⟩

namespace IsUnits

variable {x y : Float32} {a b u : ℕ}

theorem hasUnits (hx : IsUnits x a) : HasUnits a x.toModel.unpack :=
  hasUnits_of_units? (canonicalFor_single x) hx

theorem mul (hx : IsUnits x a) (hy : IsUnits y b) (known : rounded? (a * b) (1 <<< 149) = some u) :
    IsUnits (x * y) u := by
  obtain ⟨-, rfl, small⟩ := rounded?_eq_some known
  exact units?_unpack_pack (hasUnits_mul hx.hasUnits hy.hasUnits) small

theorem add (hx : IsUnits x a) (hy : IsUnits y b) (known : rounded? (a + b) 1 = some u) :
    IsUnits (x + y) u := by
  obtain ⟨-, rfl, small⟩ := rounded?_eq_some known
  exact units?_unpack_pack (hasUnits_add hx.hasUnits hy.hasUnits) small

theorem sub (hx : IsUnits x a) (hy : IsUnits y b) (le : b ≤ a)
    (known : rounded? (a - b) 1 = some u) : IsUnits (x - y) u := by
  obtain ⟨-, rfl, small⟩ := rounded?_eq_some known
  exact units?_unpack_pack (hasUnits_sub hx.hasUnits hy.hasUnits le) small

theorem div (hx : IsUnits x a) (hy : IsUnits y b) (known : rounded? (a <<< 149) b = some u) :
    IsUnits (x / y) u := by
  obtain ⟨positive, rfl, small⟩ := rounded?_eq_some known
  rw [Nat.shiftLeft_eq] at small ⊢
  exact units?_unpack_pack (hasUnits_div hx.hasUnits hy.hasUnits positive) small

theorem lt_iff (hx : IsUnits x a) (hy : IsUnits y b) : x < y ↔ a < b :=
  (single_lt_iff_rank hx.hasUnits.ne_notANumber hy.hasUnits.ne_notANumber).trans
    (hx.hasUnits.rank_lt_iff hy.hasUnits)

theorem le_iff (hx : IsUnits x a) (hy : IsUnits y b) : x ≤ y ↔ a ≤ b := by
  rw [single_le_iff_rank hx.hasUnits.ne_notANumber hy.hasUnits.ne_notANumber, ← not_lt,
    hy.hasUnits.rank_lt_iff hx.hasUnits, not_lt]

end IsUnits

/-- A single of few units is less than a power of two. -/
theorem IsUnits.isBelow {x : Float32} {u : ℕ} {k : ℤ} (hx : IsUnits x u) (least : -149 ≤ k)
    (small : u < 2 ^ (k + 149).toNat) : IsBelow k x := by
  have units := hx.hasUnits
  rw [IsBelow]
  generalize x.toModel.unpack = v at units
  rcases v with _ | _ | s | ⟨s, m, e, h⟩
  case zero => exact trivial
  case finite =>
    obtain ⟨rfl, settled, rfl⟩ := units
    have bottom := settled.least
    have exponent : e < k := by
      by_contra past
      have power := Nat.pow_le_pow_right (n := 2) (by decide)
        (show (k + 149).toNat ≤ (e + 149).toNat by omega)
      have := Nat.le_mul_of_pos_left (2 ^ (e + 149).toNat) h
      omega
    rw [show (k + 149).toNat = (k - e).toNat + (e + 149).toNat by omega, Nat.pow_add] at small
    exact Nat.lt_of_mul_lt_mul_right small
  all_goals exact units.elim

/-- A single of no units, or of at least one, is a whole number of steps. -/
theorem steps?_of_isUnits {x : Float32} {u : ℕ} (hx : IsUnits x u) (size : u = 0 ∨ 1 <<< 149 ≤ u) :
    steps? x.toModel.unpack = some (u >>> 126) := by
  have units := hx.hasUnits
  generalize x.toModel.unpack = v at units
  rcases v with _ | _ | s | ⟨s, m, e, h⟩
  case zero =>
    obtain rfl := units
    rfl
  case finite =>
    obtain ⟨rfl, settled, rfl⟩ := units
    have large : 2 ^ 149 ≤ m * 2 ^ (e + 149).toNat :=
      size.resolve_left (Nat.mul_pos h (Nat.two_pow_pos _)).ne'
    have coarse : -23 ≤ e := by
      by_contra fine
      have fits := settled.fits
      have power := Nat.pow_le_pow_right (n := 2) (by decide)
        (show (e + 149).toNat ≤ 125 by omega)
      have := Nat.mul_lt_mul_of_lt_of_le fits power (Nat.two_pow_pos _)
      omega
    rw [steps?, if_pos coarse, show (e + 149).toNat = (e + 23).toNat + 126 by omega, Nat.pow_add,
      ← Nat.mul_assoc, Nat.shiftRight_eq_div_pow, Nat.mul_div_cancel _ (Nat.two_pow_pos _)]
  all_goals exact units.elim

/-- The binary number that a number of units is. -/
theorem IsUnits.exists_binary {x : Float32} {u : ℕ} (hx : IsUnits x u) :
    ∃ b, Binary.ofFloat32? x = some b ∧ -149 ≤ b.exponent ∧
      u = b.mantissa * 2 ^ (b.exponent + 149).toNat ∧ (0 < u → b.negative = false) := by
  have read := ofFloat32?_eq x
  have units := hx.hasUnits
  generalize x.toModel.unpack = v at read units
  rcases v with _ | _ | s | ⟨s, m, e, h⟩
  case zero =>
    obtain rfl := units
    exact ⟨_, read, show (-149 : ℤ) ≤ -149 by decide, (Nat.zero_mul _).symm, nofun⟩
  case finite =>
    obtain ⟨rfl, settled, rfl⟩ := units
    exact ⟨_, read, settled.least, rfl, fun _ => rfl⟩
  all_goals exact units.elim

/-- The single nearest to a binary number. -/
theorem isUnits_toFloat32 {m u : ℕ} {e : ℤ}
    (known : rounded? (m <<< (e + 149).toNat) (1 <<< (-(e + 149)).toNat) = some u) :
    IsUnits (⟨false, m, e⟩ : Binary).toFloat32 u := by
  obtain ⟨-, value, small⟩ := rounded?_eq_some known
  obtain ⟨r, f, carried, leading, word, rounded⟩ := exists_word m e
  rw [rounded] at value
  have place : f ≤ 232 := by
    by_contra high
    have power := Nat.pow_le_pow_right (n := 2) (by decide) (show 233 ≤ f by omega)
    have := Nat.mul_le_mul (leading.resolve_left (by omega)) power
    rw [← value, Nat.shiftLeft_eq] at small
    omega
  rw [Nat.min_eq_left (by omega)] at word
  obtain ⟨m', e', read, units⟩ := exists_unpack?_single carried leading (by omega)
  have bits : (BitVec.ofNat 32 (r + f * 2 ^ 23)).toNat = r + f * 2 ^ 23 := by
    rw [BitVec.toNat_ofNat]
    omega
  have unpacked : units? (UnpackedFloat.unpack .binary32 (BitVec.ofNat 32 (r + f * 2 ^ 23))) =
      some u := by
    rw [← value, ← units]
    refine units?_of_finite? ?_
    rw [← unpack?_toNat_layout]
    exact (congrArg Layout.single.unpack? bits).trans read
  rw [IsUnits, unpack_toFloat32, word]
  exact units?_unpack_pack
    (hasUnits_of_units? (canonicalFor_unpack (by decide) _) unpacked) small
/-- A positive number of units to a power. -/
def powerUnits? (a : ℕ) (exponent : Binary) : Option ℕ :=
  if 0 < a ∧ a < 1 <<< 256 then
    let result := twoTo (Fixed.scale (log2From (bisectLog2 8 a) a) exponent)
    rounded? (result.mantissa <<< (result.exponent + 149).toNat)
      (1 <<< (-(result.exponent + 149)).toNat)
  else none

theorem IsUnits.power {x y : Float32} {a u : ℕ} {b : Binary} (hx : IsUnits x a)
    (exponent : Binary.ofFloat32? y = some b) (known : powerUnits? a b = some u) :
    IsUnits (power x y) u := by
  obtain ⟨base, read, -, value, sign⟩ := hx.exists_binary
  rw [powerUnits?] at known
  split at known
  · rename_i range
    obtain ⟨positive, small⟩ := range
    rw [Nat.one_shiftLeft] at small
    have nonzero : base.mantissa ≠ 0 := by
      rintro none
      rw [value, none, Nat.zero_mul] at positive
      exact absurd positive (Nat.lt_irrefl 0)
    have result : Decimal.power x y = (twoTo (Fixed.scale (log2 a) b)).toFloat32 := by
      rw [Decimal.power, read, exponent, value, ← Nat.shiftLeft_eq]
      exact if_neg (by simp [sign positive, nonzero])
    rw [result, log2, ← bisectLog2_eq (j := 8) small]
    exact isUnits_toFloat32 known
  · cases known

/-- The units of a single, if it is not negative. -/
def unitsOf (x : Float32) : ℕ :=
  (units? x.toModel.unpack).getD 0

/-- A natural with few bits. -/
theorem isUnits_ofNat {n : ℕ} (small : n < 2 ^ 23) : IsUnits (Float32.ofNat n) (n <<< 149) := by
  have value : Float32.ofNat n = n.toUInt64.toFloat32 * Float32.ofBits 0x3f800000 :=
    dif_pos ⟨small, by decide⟩
  have word : n.toUInt64.toNat = n := by
    rw [UInt64.toNat_ofNat', Nat.mod_eq_of_lt (by omega)]
  have whole : IsUnits n.toUInt64.toFloat32 (n * 2 ^ 149) := by
    have bound : n * 2 ^ 149 ≤ 2 ^ 255 := by omega
    have converted : n.toUInt64.toFloat32.toModel.unpack = UnpackedFloat.unpack .binary32
      (UnpackedFloat.pack .binary32
        (UnpackedFloat.normalize .binary32 n.toUInt64.toNat 0 .positive)) := rfl
    have units := hasUnits_normalize (m := n) (e := 0) (a := n * 2 ^ 149) (by
      rw [Nat.cast_mul, mul_assoc]
      norm_num)
    rw [nearestUnits_of_lt (by omega)] at units
    rw [IsUnits, converted, word]
    exact units?_unpack_pack units bound
  have one : IsUnits (Float32.ofBits 0x3f800000) (2 ^ 149) := by decide +kernel
  have product := hasUnits_mul whole.hasUnits one.hasUnits
  have cancelled := nearestUnits_mul_right (n * 2 ^ 149) 1 (Nat.two_pow_pos 149)
  rw [Nat.one_mul, nearestUnits_of_lt (by omega)] at cancelled
  rw [cancelled] at product
  rw [value, Nat.shiftLeft_eq]
  exact units?_unpack_pack product (by omega)

end Handoff.Decimal
