import Handoff.Proofs.Decimal.Units

/-!
How large powers are.

`power x y` is worked out as `2 ^ (y * log2 x)` in fixed point.  The logarithm of a number less
than `2 ^ k` is at most `k + 1` (`log2_le`), and two to the power `t` is less than `2 ^ (b + 5)` if
`t` is at most `b` (`isBelow_exp2`).  So powers of bounded positive singles are bounded, and none
of them is NaN (`isBelow_power`).
-/

namespace Handoff.Decimal

open Float.Model (UnpackedFloat Format)

/-! ## Fixed point -/

namespace Fixed

theorem natAbs_ediv_one_le (a : ℤ) : (a / one).natAbs ≤ a.natAbs / 2 ^ 64 + 1 := by
  rw [one]
  omega

theorem natAbs_mul_le {a b : ℤ} {A B : ℕ} (ha : a.natAbs ≤ A) (hb : b.natAbs ≤ B) :
    (mul a b).natAbs ≤ A * B / 2 ^ 64 + 1 := by
  refine Nat.le_trans (natAbs_ediv_one_le (a * b)) (Nat.add_le_add_right ?_ 1)
  rw [Int.natAbs_mul]
  exact Nat.div_le_div_right (Nat.mul_le_mul ha hb)

end Fixed

/-! ## Logarithms -/

/-- A mantissa times the inverse of its center is close to one. -/
theorem natAbs_near_center {fraction octave : ℕ} (fits : fraction < 0x800000)
    (chosen : octave = if fraction < 0x330000 then 0 else 1) :
    ∃ center, logTable[(fraction + 0x4d0000) % 0x800000 / 0x80000]? = some center ∧
      center.2.natAbs ≤ 2 ^ 63 ∧
      (Fixed.mul (((fraction + 0x800000) <<< (41 - octave) : ℕ) : ℤ) center.1 -
        Fixed.one).natAbs ≤ 2 ^ 60 := by
  subst chosen
  -- The part is that of the fraction from 0x330000 on, counted around.
  obtain ⟨part, located⟩ : ∃ part, part = (fraction + 0x4d0000) % 0x800000 / 0x80000 := ⟨_, rfl⟩
  rw [← located]
  by_cases low : fraction < 0x330000
  · rw [if_pos low, Nat.shiftLeft_eq]
    have bounds : part * 0x80000 ≤ fraction + 0x4d0000 ∧
        fraction + 0x4d0000 < part * 0x80000 + 0x80000 := by omega
    have listed : 9 ≤ part ∧ part < 16 := by omega
    clear located
    obtain ⟨least, greatest⟩ := listed
    interval_cases part
    all_goals
      refine ⟨_, rfl, by decide, ?_⟩
      rw [Fixed.mul, Fixed.one]
      dsimp only
      push_cast
      omega
  · rw [if_neg low, Nat.shiftLeft_eq]
    have bounds : part * 0x80000 ≤ fraction - 0x330000 ∧
        fraction - 0x330000 < part * 0x80000 + 0x80000 := by omega
    have listed : part < 10 := by omega
    clear located
    interval_cases part
    all_goals
      refine ⟨_, rfl, by decide, ?_⟩
      rw [Fixed.mul, Fixed.one]
      dsimp only
      push_cast
      omega

/-- A polynomial at a small argument is close to its constant term. -/
theorem Fixed.natAbs_polynomial_le {r : ℤ} (small : r.natAbs ≤ 2 ^ 60) :
    ∀ {coefficients : List ℤ}, (∀ c ∈ coefficients, c.natAbs ≤ 2 ^ 65) →
      (polynomial coefficients r).natAbs ≤ 2 ^ 66
  | [], _ => Nat.zero_le _
  | c :: rest, bounded => by
      have value := natAbs_mul_le (natAbs_polynomial_le small fun d member =>
        bounded d (List.mem_cons_of_mem c member)) small
      have first := bounded c List.mem_cons_self
      change (c + mul (polynomial rest r) r).natAbs ≤ _
      omega

theorem Fixed.natAbs_polynomial_sub_le {r c : ℤ} {coefficients : List ℤ} (small : r.natAbs ≤ 2 ^ 60)
    (bounded : ∀ d ∈ coefficients, d.natAbs ≤ 2 ^ 65) :
    (polynomial (c :: coefficients) r - c).natAbs ≤ 2 ^ 62 + 1 := by
  have value := natAbs_mul_le (natAbs_polynomial_le small bounded) small
  change (c + mul (polynomial coefficients r) r - c).natAbs ≤ _
  omega

/-- The binary logarithm of a number is not much larger than its exponent. -/
theorem log2_le {n : ℕ} {k : ℤ} (positive : 0 < n) (below : n < 2 ^ (k + 149).toNat) :
    -150 * Fixed.one ≤ log2 n ∧ log2 n ≤ (k + 1) * Fixed.one := by
  have bits : n.log2 < (k + 149).toNat := (Nat.log2_lt (Nat.ne_of_gt positive)).mpr below
  have least := (Nat.le_log2 (Nat.ne_of_gt positive)).mp (Nat.le_refl n.log2)
  have greatest := (Nat.log2_lt (Nat.ne_of_gt positive)).mp (Nat.lt_succ_self n.log2)
  obtain ⟨fraction, isFraction⟩ : ∃ fraction, fraction = n <<< 23 >>> n.log2 - 0x800000 := ⟨_, rfl⟩
  have fits : fraction < 0x800000 := by
    rw [isFraction, Nat.shiftLeft_eq, Nat.shiftRight_eq_div_pow]
    have quotient : n * 2 ^ 23 / 2 ^ n.log2 < 2 ^ 24 := by
      rw [Nat.div_lt_iff_lt_mul (Nat.two_pow_pos _)]
      rw [Nat.pow_succ] at greatest
      omega
    omega
  obtain ⟨center, found, logarithm, near⟩ := natAbs_near_center fits rfl
  obtain ⟨octave, chosen⟩ : ∃ octave, octave = if fraction < 0x330000 then 0 else 1 := ⟨_, rfl⟩
  have next : octave ≤ 1 := by
    rw [chosen]
    split <;> decide
  obtain ⟨r, isRest⟩ : ∃ r, r = Fixed.mul (((fraction + 0x800000) <<< (41 - octave) : ℕ) : ℤ)
      center.1 - Fixed.one := ⟨_, rfl⟩
  rw [← chosen, ← isRest] at near
  have rest : (Fixed.polynomial logCoefficients r - 0).natAbs ≤ 2 ^ 62 + 1 :=
    Fixed.natAbs_polynomial_sub_le near (by decide)
  have value : log2 n = ((n.log2 + octave : ℕ) - 149) * Fixed.one + center.2 +
      Fixed.polynomial logCoefficients r := by
    rw [log2, log2From, ← isFraction, ← chosen, found, Option.getD_some, ← isRest]
  rw [value, Fixed.one]
  generalize Fixed.polynomial logCoefficients r = p at rest
  push_cast
  omega

/-! ## Words -/

/-- A word is less than that of the power of two that its number is below. -/
theorem below_unpack_of_word {k : ℤ} (word : BitVec Format.binary32.numBits)
    (bound : word.toNat % 2 ^ 31 ≤ (k + 127).toNat * 2 ^ 23) (least : -126 ≤ k)
    (greatest : k ≤ 127) : Below (k + 1) (UnpackedFloat.unpack .binary32 word) := by
  have read : Layout.single.unpack? word.toNat =
      finite? .binary32 (UnpackedFloat.unpack .binary32 word) := unpack?_toNat_layout word
  have field : word.toNat / 2 ^ 23 % 2 ^ 8 ≤ (k + 127).toNat := by omega
  rw [unpack?_single, if_neg (by omega)] at read
  generalize UnpackedFloat.unpack .binary32 word = x at read
  rcases x with _ | _ | _ | ⟨s, m, e, hm⟩
  case zero => exact trivial
  case finite =>
    simp only [finite?] at read
    split at read
    · obtain ⟨-, rfl, rfl⟩ := Binary.mk.inj (Option.some.inj read)
      have power := Nat.pow_le_pow_right (n := 2) (by decide)
        (show 23 ≤ (k + 1 - -149).toNat by omega)
      exact Nat.lt_of_lt_of_le (Nat.mod_lt _ (by decide)) power
    · obtain ⟨-, rfl, rfl⟩ := Binary.mk.inj (Option.some.inj read)
      have power := Nat.pow_le_pow_right (n := 2) (by decide)
        (show 24 ≤ (k + 1 - (-149 + (word.toNat / 2 ^ 23 % 2 ^ 8 : ℕ) - 1)).toNat by omega)
      have fraction := Nat.mod_lt word.toNat (Nat.two_pow_pos 23)
      exact Nat.lt_of_lt_of_le (by omega) power
  all_goals
    simp only [finite?] at read
    split at read <;> cases read

/-- The word of a bounded number is at most that of the bound. -/
theorem pack_single_le {b : Binary} {k : ℤ} (below : b.mantissa < 2 ^ (k - b.exponent).toNat)
    (least : -125 ≤ k) : Layout.single.pack b % 2 ^ 31 ≤ (k + 127).toNat * 2 ^ 23 := by
  by_cases zero : b.mantissa = 0
  · rw [Layout.pack, if_pos zero]
    cases b.negative <;> simp [Layout.single]
  · have bits : b.mantissa.log2 < (k - b.exponent).toNat := (Nat.log2_lt zero).mpr below
    obtain ⟨quantum, r, chosen, -, carried, word⟩ := exists_pack_single b zero
    have field : (quantum + 149).toNat + 2 ≤ (k + 127).toNat := by omega
    have magnitude : r + (quantum + 149).toNat * 2 ^ 23 ≤ (k + 127).toNat * 2 ^ 23 :=
      calc r + (quantum + 149).toNat * 2 ^ 23
          ≤ 2 ^ 24 + (quantum + 149).toNat * 2 ^ 23 := Nat.add_le_add_right carried _
        _ = ((quantum + 149).toNat + 2) * 2 ^ 23 := by ring
        _ ≤ (k + 127).toNat * 2 ^ 23 := Nat.mul_le_mul_right _ field
    rw [word]
    cases b.negative
    case false =>
      rw [if_neg Bool.false_ne_true, Nat.zero_add]
      exact ((Nat.mod_le _ _).trans (Nat.min_le_left _ _)).trans magnitude
    case true =>
      rw [if_pos rfl, Nat.add_mod_left]
      exact ((Nat.mod_le _ _).trans (Nat.min_le_left _ _)).trans magnitude

/-- The single nearest to a bounded number. -/
theorem isBelow_toFloat32 {b : Binary} {k : ℤ} (below : b.mantissa < 2 ^ (k - b.exponent).toNat)
    (least : -125 ≤ k) (greatest : k ≤ 103) : IsBelow (k + 1) b.toFloat32 := by
  have word : (BitVec.ofNat 32 (Layout.single.pack b)).toNat % 2 ^ 31 =
      Layout.single.pack b % 2 ^ 31 := by
    rw [BitVec.toNat_ofNat]
    omega
  rw [IsBelow, unpack_toFloat32]
  exact below_unpack_pack (by omega) (by omega) (below_unpack_of_word _
    (Nat.le_trans (Nat.le_of_eq word) (pack_single_le below least)) (by omega) (by omega))

/-! ## Exponentials -/

/-- The powers up to two grow slower than a line. -/
theorem natAbs_pow_rootOfTwo_le (n : ℕ) (few : n ≤ 32) :
    (Fixed.pow rootOfTwo n).natAbs ≤ 2 ^ 64 + n * (5 * 2 ^ 58) := by
  induction n with
  | zero => decide
  | succ n ih =>
      have product := Fixed.natAbs_mul_le (ih (by omega))
        (show rootOfTwo.natAbs ≤ 0x1059b0d31585743ae by decide)
      rw [Fixed.pow]
      omega

/-- Two to a bounded power. -/
theorem isBelow_exp2 {t b : ℤ} (le : t ≤ b * Fixed.one) (least : -128 ≤ b) (greatest : b ≤ 99) :
    IsBelow (b + 5) (exp2 t) := by
  obtain ⟨steps, isSteps⟩ : ∃ steps, steps = (t + 0x400000000000000) / 0x800000000000000 := ⟨_, rfl⟩
  obtain ⟨r, isRest⟩ : ∃ r, r = t - steps * 0x800000000000000 := ⟨_, rfl⟩
  rw [Fixed.one] at le
  have series : (Fixed.polynomial expCoefficients r - Fixed.one).natAbs ≤ 2 ^ 62 + 1 :=
    Fixed.natAbs_polynomial_sub_le (by omega) (by decide)
  have roots := natAbs_pow_rootOfTwo_le (steps % 32).toNat (by omega)
  have factor : (Fixed.polynomial expCoefficients r).natAbs ≤ 2 ^ 65 := by
    rw [Fixed.one] at series
    omega
  have mantissa := Fixed.natAbs_mul_le factor
    (show (Fixed.pow rootOfTwo (steps % 32).toNat).natAbs ≤ 2 ^ 66 by omega)
  have value : exp2 t = (⟨false, (Fixed.mul (Fixed.polynomial expCoefficients r)
      (Fixed.pow rootOfTwo (steps % 32).toNat)).toNat, steps / 32 - 64⟩ : Binary).toFloat32 := by
    rw [exp2, twoTo, ← isSteps, ← isRest]
  rw [value]
  refine IsBelow.mono (isBelow_toFloat32 (k := b + 4) ?_ (by omega) (by omega)) (by omega)
  have power := Nat.pow_le_pow_right (n := 2) (by decide)
    (show 68 ≤ (b + 4 - (steps / 32 - 64)).toNat by omega)
  dsimp only
  omega

/-! ## Powers -/

theorem least_le_of_unpack {x : Float32} {s : UnpackedFloat.Sign} {m : ℕ} {e : ℤ} {hm : 0 < m}
    (unpacked : x.toModel.unpack = .finite s m e hm) : -149 ≤ e := by
  have canonical : CanonicalFor .binary32 x.toModel.unpack := canonicalFor_unpack (by decide) _
  rw [unpacked] at canonical
  exact canonical.2.1

/-- A product with a positive number that has a fraction. -/
theorem scale_le {a bound : ℤ} {m : ℕ} {e : ℤ} (fraction : e ≤ 0)
    (le : a * m ≤ bound * 2 ^ (-e).toNat) : Fixed.scale a ⟨false, m, e⟩ ≤ bound := by
  rw [Fixed.scale, if_neg Bool.false_ne_true, Int.toNat_of_nonpos fraction, Int.shiftLeft_zero,
    Int.shiftRight_eq_div_pow]
  refine Int.ediv_le_of_le_mul (by positivity) ?_
  push_cast
  exact le

/-- A bounded positive single to a fixed power. -/
theorem isBelow_power {x y : Float32} {m m' : ℕ} {e e' k b : ℤ} {hm : 0 < m} (hx : IsBelow k x)
    (unpacked : x.toModel.unpack = .finite .positive m e hm)
    (exponent : Binary.ofFloat32? y = some ⟨false, m', e'⟩) (fraction : e' ≤ 0)
    (le : (k + 1) * m' ≤ b * 2 ^ (-e').toNat) (least : -128 ≤ b) (greatest : b ≤ 99) :
    IsBelow (b + 5) (power x y) := by
  rw [IsBelow, unpacked] at hx
  have bottom := least_le_of_unpack unpacked
  have top := exponent_lt_of_mantissa hm hx
  have base : Binary.ofFloat32? x = some ⟨false, m, e⟩ := by
    rw [ofFloat32?_eq, unpacked]
    rfl
  have positive : 0 < m <<< (e + 149).toNat := by
    rw [Nat.shiftLeft_eq]
    exact Nat.mul_pos hm (Nat.two_pow_pos _)
  have below : m <<< (e + 149).toNat < 2 ^ (k + 149).toNat := by
    rw [show (k + 149).toNat = (k - e).toNat + (e + 149).toNat by omega, Nat.pow_add,
      Nat.shiftLeft_eq]
    exact Nat.mul_lt_mul_of_pos_right hx (Nat.two_pow_pos _)
  have value : power x y = exp2 (Fixed.scale (log2 (m <<< (e + 149).toNat)) ⟨false, m', e'⟩) := by
    rw [power, base, exponent]
    exact if_neg (by simp [Nat.ne_of_gt hm])
  rw [value]
  refine isBelow_exp2 (scale_le fraction ?_) least greatest
  have logarithm := (log2_le positive below).2
  have nonneg : (0 : ℤ) ≤ m' := Int.natCast_nonneg m'
  calc log2 (m <<< (e + 149).toNat) * m'
      ≤ (k + 1) * Fixed.one * m' := Int.mul_le_mul_of_nonneg_right logarithm nonneg
    _ = (k + 1) * m' * Fixed.one := by ring
    _ ≤ b * 2 ^ (-e').toNat * Fixed.one := Int.mul_le_mul_of_nonneg_right le (by decide)
    _ = b * Fixed.one * 2 ^ (-e').toNat := by ring

end Handoff.Decimal
