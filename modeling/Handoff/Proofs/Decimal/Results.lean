import Handoff.Proofs.Decimal.Significance
import Handoff.Proofs.Decimal.Unpacked

/-!
Differences and quotients of doubles.

Subtraction and division give the double nearest to the exact result (`HasValue.sub`,
`HasValue.div`), or infinity if that is too large.  How large a result is, is a rational number
(`HasSize`), and absolute values are compared as these numbers are (`abs_lt_iff`, `abs_le_iff`).
-/

namespace Handoff.Decimal

open Float.Model (UnpackedFloat Format totalExponent)
open Float.Model.UnpackedFloat (Sign Accuracy roundWithAccuracy accuracyOfFraction)

/-! ## Sizes -/

/-- How large a number is.  Infinity is past all finite doubles. -/
def HasSize : UnpackedFloat → ℚ → Prop
  | .zero _, u => u = 0
  | .finite _ m e _, u => u = m * 2 ^ e
  | .infinity _, u => u = overflow
  | .notANumber, _ => False

/-- The rational number that a finite number is. -/
def IsNumber : UnpackedFloat → ℚ → Prop
  | .zero _, q => q = 0
  | .finite s m e _, q => q = s.apply m * 2 ^ e
  | .infinity _, _ | .notANumber, _ => False

theorem abs_apply_mul (s : Sign) (m : ℕ) (e : ℤ) :
    |((s.apply m : ℤ) : ℚ) * 2 ^ e| = m * 2 ^ e := by
  have positive : (0 : ℚ) ≤ m * 2 ^ e := by positivity
  cases s with
  | negative =>
      rw [Sign.apply, Int.cast_neg, Int.cast_natCast, neg_mul, abs_neg, abs_of_nonneg positive]
  | positive => rw [Sign.apply, Int.cast_natCast, abs_of_nonneg positive]

theorem IsNumber.hasSize {x : UnpackedFloat} {q : ℚ} (number : IsNumber x q) : HasSize x |q| := by
  cases x with
  | zero s => exact number ▸ abs_zero
  | finite s m e h =>
      rw [IsNumber] at number
      rw [number]
      exact abs_apply_mul s m e
  | _ => exact number.elim

theorem HasValue.isNumber {x : Float} {q : ℚ} (value : HasValue x q) :
    IsNumber x.toModel.unpack q := by
  obtain ⟨b, read, rfl⟩ := value
  rw [ofFloat?_eq] at read
  generalize x.toModel.unpack = u at read
  cases u with
  | zero s =>
      obtain rfl := Option.some.inj read
      cases s <;> simp [IsNumber, Binary.value, Binary.magnitude]
  | finite s m e h =>
      obtain rfl := Option.some.inj read
      cases s <;> simp [IsNumber, Binary.value, Binary.magnitude, isNegative, Sign.apply]
  | _ => cases read

/-! ## Comparisons -/

theorem Canonical.fullBits {s : Sign} {m : ℕ} {e : ℤ} {h : 0 < m}
    (canonical : Canonical (.finite s m e h)) : FullBits m e :=
  ⟨canonical.1, canonical.2.1, canonical.2.2.2⟩

theorem Canonical.isDouble {s : Sign} {m : ℕ} {e : ℤ} {h : 0 < m}
    (canonical : Canonical (.finite s m e h)) : IsDouble (m * 2 ^ e) :=
  ⟨m, e, canonical.1, canonical.2.1, canonical.2.2.1, rfl⟩

/-- Numbers with all their bits are compared by their exponents first. -/
theorem FullBits.lt_iff {m m' : ℕ} {e e' : ℤ} (full : FullBits m e) (full' : FullBits m' e') :
    (m : ℚ) * 2 ^ e < m' * 2 ^ e' ↔ e < e' ∨ e = e' ∧ m < m' := by
  have larger {k k' : ℕ} {f f' : ℤ} (hk : FullBits k f) (hk' : FullBits k' f') (less : f < f') :
      (k : ℚ) * 2 ^ f < k' * 2 ^ f' := by
    have leading := hk'.lastBit.leading.resolve_left (by have := hk.least; omega)
    exact hk.lastBit.below.trans_le
      ((zpow_le_zpow_right₀ one_le_two (by omega)).trans leading)
  rcases lt_trichotomy e e' with less | rfl | more
  · exact iff_of_true (larger full full' less) (.inl less)
  · have positive : (0 : ℚ) < 2 ^ e := by positivity
    rw [mul_lt_mul_iff_left₀ positive, Nat.cast_lt]
    simp
  · exact iff_of_false (larger full' full more).not_gt (by omega)

/-- The order of sizes is that of ranks. -/
theorem rank_abs_lt_iff {x y : UnpackedFloat} {u w : ℚ} (hx : HasSize x u) (hy : HasSize y w)
    (canonical : Canonical x) (canonical' : Canonical y) : rank x.abs < rank y.abs ↔ u < w := by
  have signs (a b : ℤ ×ₗ ℤ) (i j : ℤ) (less : i < j) : toLex (i, a) < toLex (j, b) :=
    Prod.Lex.toLex_lt_toLex.mpr (.inl less)
  have infinite := overflow_pos
  have present {m : ℕ} {e : ℤ} (h : 0 < m) : (0 : ℚ) < m * 2 ^ e := by positivity
  cases x <;> cases y
  case notANumber.notANumber | notANumber.infinity | notANumber.zero | notANumber.finite =>
    exact hx.elim
  case infinity.notANumber | zero.notANumber | finite.notANumber => exact hy.elim
  case infinity.infinity | zero.zero =>
    obtain rfl := hx
    obtain rfl := hy
    exact iff_of_false (lt_irrefl _) (lt_irrefl _)
  case zero.infinity =>
    obtain rfl := hx
    obtain rfl := hy
    exact iff_of_true (signs _ _ _ _ (by decide)) infinite
  case infinity.zero =>
    obtain rfl := hx
    obtain rfl := hy
    exact iff_of_false (signs _ _ _ _ (by decide)).not_gt infinite.not_gt
  case zero.finite h =>
    obtain rfl := hx
    obtain rfl := hy
    exact iff_of_true (signs _ _ _ _ (by decide)) (present h)
  case finite.zero h _ =>
    obtain rfl := hx
    obtain rfl := hy
    exact iff_of_false (signs _ _ _ _ (by decide)).not_gt (present h).not_gt
  case finite.infinity =>
    obtain rfl := hx
    obtain rfl := hy
    exact iff_of_true (signs _ _ _ _ (by decide)) canonical.isDouble.lt_overflow
  case infinity.finite =>
    obtain rfl := hx
    obtain rfl := hy
    exact iff_of_false (signs _ _ _ _ (by decide)).not_gt canonical'.isDouble.lt_overflow.not_gt
  case finite.finite =>
    obtain rfl := hx
    obtain rfl := hy
    rw [canonical.fullBits.lt_iff canonical'.fullBits]
    simp [UnpackedFloat.abs, rank, Prod.Lex.toLex_lt_toLex]

section

variable {x y : Float} {u w : ℚ}

theorem ne_notANumber_abs (size : HasSize x.toModel.unpack u) :
    x.abs.toModel.unpack ≠ .notANumber := by
  rw [unpack_abs]
  generalize x.toModel.unpack = v at size
  cases v with
  | notANumber => exact size.elim
  | _ => exact nofun

theorem abs_lt_iff (hx : HasSize x.toModel.unpack u) (hy : HasSize y.toModel.unpack w) :
    x.abs < y.abs ↔ u < w := by
  rw [lt_iff_rank (ne_notANumber_abs hx) (ne_notANumber_abs hy), unpack_abs, unpack_abs]
  exact rank_abs_lt_iff hx hy (canonical_float x) (canonical_float y)

theorem abs_le_iff (hx : HasSize x.toModel.unpack u) (hy : HasSize y.toModel.unpack w) :
    x.abs ≤ y.abs ↔ u ≤ w := by
  rw [le_iff_rank (ne_notANumber_abs hx) (ne_notANumber_abs hy), unpack_abs, unpack_abs, ← not_lt,
    rank_abs_lt_iff hy hx (canonical_float y) (canonical_float x), not_lt]

end

/-! ## Rounding -/

theorem isRounded_zero (s : Sign) : IsRounded 0 (.zero s) := by
  have full : FullBits 0 (-1074) := ⟨by decide, le_rfl, .inl rfl⟩
  have rounded := RoundsInBinary.of_lastBit full.lastBit
  rw [Nat.cast_zero, zero_mul] at rounded
  exact rounded

/-- A number from a float is not rounded. -/
theorem isRounded_of_canonical {s : Sign} {m : ℕ} {e : ℤ} {h : 0 < m}
    (canonical : Canonical (.finite s m e h)) (s' : Sign) :
    IsRounded (m * 2 ^ e) (.finite s' m e h) :=
  ⟨.of_lastBit canonical.fullBits.lastBit, canonical.fullBits⟩

theorem shiftLeft_mul_zpow (m : ℕ) {e f : ℤ} (le : f ≤ e) :
    ((m <<< (e - f).toNat : ℕ) : ℚ) * 2 ^ f = m * 2 ^ e := by
  rw [Nat.shiftLeft_eq]
  exact mul_two_pow_mul_zpow m le

theorem isRounded_round {m : ℕ} (e : ℤ) (s : Sign) (positive : 0 < m) :
    IsRounded (m * 2 ^ e) (UnpackedFloat.round .binary64 s m e) := by
  have target : Format.targetExponent .binary64 (totalExponent m e) =
      max (totalExponent m e - 53) (-1074) := rfl
  rw [UnpackedFloat.round, UnpackedFloat.decreaseExponent, target]
  dsimp only
  obtain ⟨f, filled⟩ : ∃ f, f = e - (e - max (totalExponent m e - 53) (-1074)).toNat := ⟨_, rfl⟩
  have amount : (e - max (totalExponent m e - 53) (-1074)).toNat = (e - f).toNat := by omega
  have total := log2_shiftLeft (n := (e - f).toNat) positive
  rw [← filled, amount, ← shiftLeft_mul_zpow m (show f ≤ e by omega)]
  refine isRounded_roundWithAccuracy s (Locates.exact _) ?_
  rw [totalExponent] at filled ⊢
  omega

theorem isRounded_normalize (m e : ℤ) (zero : Sign) :
    IsRounded |m * 2 ^ e| (UnpackedFloat.normalize .binary64 m e zero) := by
  have power : (0 : ℚ) < 2 ^ e := by positivity
  rw [UnpackedFloat.normalize, abs_mul, abs_of_pos power]
  split
  case h_1 negative =>
    have less := Int.compare_eq_lt.mp negative
    have magnitude : |(m : ℚ)| = (-m).toNat := by
      rw [← Int.cast_abs, abs_of_neg less, ← Int.cast_natCast, Int.toNat_of_nonneg (by omega)]
    rw [magnitude]
    exact isRounded_round e _ (by omega)
  case h_2 same =>
    rw [Int.compare_eq_eq.mp same, Int.cast_zero, abs_zero, zero_mul]
    exact isRounded_zero _
  case h_3 positive =>
    have more := Int.compare_eq_gt.mp positive
    have magnitude : |(m : ℚ)| = m.toNat := by
      rw [← Int.cast_abs, abs_of_pos more, ← Int.cast_natCast, Int.toNat_of_nonneg (by omega)]
    rw [magnitude]
    exact isRounded_round e _ (by omega)

/-! ## Operations -/

section

variable {x y : UnpackedFloat} {a b : ℚ}

theorem isRounded_sub (hx : IsNumber x a) (hy : IsNumber y b) (canonical : Canonical x)
    (canonical' : Canonical y) : IsRounded |a - b| (UnpackedFloat.sub .binary64 x y) := by
  rcases x with _ | _ | s | ⟨s, m, e, h⟩ <;> rcases y with _ | _ | s' | ⟨s', m', e', h'⟩
  case zero.zero =>
    obtain rfl := hx
    obtain rfl := hy
    rw [sub_zero, abs_zero, UnpackedFloat.sub]
    split <;> exact isRounded_zero _
  case zero.finite =>
    obtain rfl := hx
    obtain rfl := hy
    rw [zero_sub, abs_neg, abs_apply_mul]
    exact isRounded_of_canonical canonical' _
  case finite.zero =>
    obtain rfl := hx
    obtain rfl := hy
    rw [sub_zero, abs_apply_mul]
    exact isRounded_of_canonical canonical _
  case finite.finite =>
    obtain rfl := hx
    obtain rfl := hy
    have signed (s : Sign) (m : ℕ) {e f : ℤ} (le : f ≤ e) : ((s.apply m : ℤ) : ℚ) * 2 ^ e =
        ((s.apply (m <<< (e - f).toNat : ℕ) : ℤ) : ℚ) * 2 ^ f := by
      have filled := shiftLeft_mul_zpow m le
      cases s with
      | negative =>
          simp only [Sign.apply, Int.cast_neg, Int.cast_natCast, neg_mul]
          rw [filled]
      | positive => exact filled.symm
    rw [signed s m (min_le_left e e'), signed s' m' (min_le_right e e'), ← sub_mul, ← Int.cast_sub]
    exact isRounded_normalize _ _ .positive
  all_goals first | exact hx.elim | exact hy.elim

theorem isRounded_div {u w : ℚ} (hx : HasSize x u) (hy : HasSize y w) (finite : u < overflow)
    (finite' : w < overflow) (other : w ≠ 0) :
    IsRounded (u / w) (UnpackedFloat.div .binary64 x y) := by
  rcases x with _ | _ | s | ⟨s, m, e, h⟩ <;> rcases y with _ | _ | s' | ⟨s', m', e', h'⟩
  case zero.finite =>
    obtain rfl := hx
    rw [zero_div]
    exact isRounded_zero _
  case finite.finite =>
    obtain rfl := hx
    obtain rfl := hy
    -- The quotient is worked out to a target exponent, at which it has enough bits.
    obtain ⟨target, chosen⟩ : ∃ target, target = min (e - e')
        (max (totalExponent m e - totalExponent m' e' - 53) (-1074)) := ⟨_, rfl⟩
    have value : UnpackedFloat.div .binary64 (.finite s m e h) (.finite s' m' e' h') =
        roundWithAccuracy .binary64 (s / s') (m <<< (e - e' - target).toNat / m') target
          (accuracyOfFraction (m <<< (e - e' - target).toNat % m') m') := by
      rw [chosen]
      rfl
    have filled := shiftLeft_mul_zpow m (show target ≤ e - e' by omega)
    have bits := log2_shiftLeft (n := (e - e' - target).toNat) h
    rw [value]
    generalize m <<< (e - e' - target).toNat = wide at filled bits ⊢
    have positive : 0 < wide := by
      by_contra none
      obtain rfl : wide = 0 := by omega
      rw [Nat.cast_zero, zero_mul, eq_comm, mul_eq_zero, Nat.cast_eq_zero] at filled
      rcases filled with filled | filled
      · omega
      · exact absurd filled (by positivity)
    have quotient : (m : ℚ) * 2 ^ e / (m' * 2 ^ e') = wide / m' * 2 ^ target := by
      have power : (2 : ℚ) ^ e = 2 ^ (e - e') * 2 ^ e' := by
        rw [← zpow_add₀ two_ne_zero, Int.sub_add_cancel]
      rw [power, ← mul_assoc, ← filled, mul_div_mul_right _ _ (by positivity)]
      ring
    rw [quotient]
    exact isRounded_roundWithAccuracy _ (Locates.quotient wide h')
      (filled_div h' (by decide) positive bits chosen)
  all_goals first | exact hx.elim | exact hy.elim | exact absurd hx finite.ne |
    exact absurd hy finite'.ne | exact absurd hy other

end

/-! ## Packing -/

/-- A magnitude is rounded to that of a double, or to infinity. -/
def RoundsToDouble (q u : ℚ) : Prop := ∃ r, RoundsInBinary q r ∧ u = min r overflow

namespace RoundsToDouble

variable {q u c : ℚ}

theorem le_of_le (rounded : RoundsToDouble q u) (double : IsDouble c) (le : q ≤ c) : u ≤ c := by
  obtain ⟨r, rounded, rfl⟩ := rounded
  exact (min_le_left _ _).trans (rounded.le_of_le double le)

theorem le_of_ge (rounded : RoundsToDouble q u) (double : IsDouble c) (ge : c ≤ q) : c ≤ u := by
  obtain ⟨r, rounded, rfl⟩ := rounded
  exact le_min (rounded.le_of_ge double ge) double.lt_overflow.le

theorem eq_of_isDouble (rounded : RoundsToDouble q u) (double : IsDouble q) : u = q :=
  le_antisymm (rounded.le_of_le double le_rfl) (rounded.le_of_ge double le_rfl)

end RoundsToDouble

/-- What is rounded is packed as a double, or as infinity if it is too large. -/
theorem exists_unpack_pack {q : ℚ} {x : UnpackedFloat} (rounded : IsRounded q x) :
    ∃ u, RoundsToDouble q u ∧
      HasSize (UnpackedFloat.unpack .binary64 (x.pack .binary64)) u := by
  rcases x with s | _ | s | ⟨s, m, e, h⟩
  case zero =>
    refine ⟨0, ⟨0, rounded, (min_eq_left overflow_pos.le).symm⟩, ?_⟩
    rw [unpack_pack (x := .zero s) trivial]
    rfl
  case finite =>
    obtain ⟨rounded, fits, least, leading⟩ := rounded
    by_cases small : e ≤ 971
    · have canonical : Canonical (.finite s m e h) := ⟨fits, least, small, leading⟩
      refine ⟨_, ⟨_, rounded, (min_eq_left canonical.isDouble.lt_overflow.le).symm⟩, ?_⟩
      rw [unpack_pack canonical]
      rfl
    · have infinite : UnpackedFloat.unpack .binary64
          (UnpackedFloat.pack .binary64 (.finite s m e h)) = .infinity s := by
        have large : UnpackedFloat.pack .binary64 (.finite s m e h) =
            UnpackedFloat.pack .binary64 (.infinity s) :=
          if_pos (show 2 ^ 11 ≤ (e + 1023 + 52).toNat + 1 by omega)
        rw [large, unpack_pack (x := .infinity s) trivial]
      have past : overflow ≤ m * 2 ^ e := by
        calc overflow = (2 : ℚ) ^ (1024 : ℤ) := by rw [overflow]
          _ ≤ 2 ^ (e + 52) := zpow_le_zpow_right₀ one_le_two (by omega)
          _ ≤ m * 2 ^ e := two_zpow_le_mul (leading.resolve_left (by omega)) e
      rw [infinite]
      exact ⟨_, ⟨_, rounded, (min_eq_right past).symm⟩, rfl⟩
  all_goals exact rounded.elim

/-! ## Doubles -/

section

variable {x y : Float} {a b u w : ℚ}

/-- A difference is rounded once. -/
theorem HasValue.sub (hx : HasValue x a) (hy : HasValue y b) :
    ∃ u, RoundsToDouble |a - b| u ∧ HasSize (x - y).toModel.unpack u :=
  exists_unpack_pack
    (isRounded_sub hx.isNumber hy.isNumber (canonical_float x) (canonical_float y))

theorem HasValue.hasSize (value : HasValue x a) : HasSize x.toModel.unpack |a| :=
  value.isNumber.hasSize

theorem HasValue.abs (value : HasValue x a) : HasValue x.abs |a| := by
  have number := value.isNumber
  have read : Binary.ofFloat? x.abs = toBinary? x.toModel.unpack.abs := by
    rw [ofFloat?_eq, unpack_abs]
  generalize x.toModel.unpack = v at number read
  cases v with
  | zero s =>
      refine ⟨_, read, ?_⟩
      rw [number, abs_zero]
      simp [Binary.value, Binary.magnitude]
  | finite s m e h =>
      refine ⟨_, read, ?_⟩
      rw [number, abs_apply_mul]
      rfl
  | _ => exact number.elim

theorem HasValue.lt_zero_iff (value : HasValue x a) : x < 0.0 ↔ a < 0 := by
  have number := value.isNumber
  rw [lt_iff, unpack_zero]
  generalize x.toModel.unpack = v at number
  cases v with
  | zero s =>
      rw [number]
      cases s <;> exact iff_of_false (by decide) (lt_irrefl 0)
  | finite s m e h =>
      have positive : (0 : ℚ) < m * 2 ^ e := by positivity
      cases s with
      | negative =>
          rw [IsNumber, Sign.apply, Int.cast_neg, Int.cast_natCast, neg_mul] at number
          exact iff_of_true rfl (number ▸ neg_lt_zero.mpr positive)
      | positive =>
          rw [IsNumber, Sign.apply, Int.cast_natCast] at number
          refine iff_of_false ?_ (number ▸ positive.not_gt)
          rintro ⟨⟩
  | _ => exact number.elim

/-- Only zero equals zero. -/
theorem HasValue.bne_zero_iff (value : HasValue x a) : (x != 0.0) = true ↔ a ≠ 0 := by
  have number := value.isNumber
  rw [bne, Bool.not_eq_true', ← Bool.not_eq_true, beq_iff, unpack_zero, not_iff_not]
  generalize x.toModel.unpack = v at number
  cases v with
  | zero s => exact iff_of_true ⟨rfl, nofun⟩ number
  | finite s m e h =>
      refine iff_of_false nofun (abs_ne_zero.mp ?_)
      rw [number, abs_apply_mul]
      positivity
  | _ => exact number.elim

theorem HasValue.isDouble (value : HasValue x a) : IsDouble |a| := by
  have size := value.hasSize
  have finite := value.isNumber
  have canonical := canonical_float x
  generalize x.toModel.unpack = v at size finite canonical
  cases v with
  | zero s =>
      rw [size]
      exact ⟨0, 0, by decide, by decide, by decide, by norm_num⟩
  | finite s m e h =>
      rw [size]
      exact canonical.isDouble
  | _ => exact finite.elim

/-- A quotient is rounded once, but that of infinity is infinite. -/
theorem exists_hasSize_div (hx : HasSize x.toModel.unpack u) (hy : HasValue y b) (other : b ≠ 0) :
    ∃ r, HasSize (x / y).toModel.unpack r ∧
      (RoundsToDouble (u / |b|) r ∨ u = overflow ∧ r = overflow) := by
  have unpacked : (x / y).toModel.unpack = .unpack .binary64
      (UnpackedFloat.pack .binary64 (.div .binary64 x.toModel.unpack y.toModel.unpack)) := rfl
  have canonical := canonical_float x
  have finite := hy.isDouble.lt_overflow
  have size := hy.hasSize
  have number := hy.isNumber
  rw [unpacked]
  generalize x.toModel.unpack = v at hx canonical
  generalize y.toModel.unpack = v' at size number
  by_cases small : u < overflow
  · obtain ⟨r, rounded, result⟩ :=
      exists_unpack_pack (isRounded_div hx size small finite (abs_ne_zero.mpr other))
    exact ⟨r, result, .inl rounded⟩
  · cases v with
    | infinity s =>
        cases v' with
        | zero s' => exact absurd number other
        | finite s' m e h =>
            refine ⟨overflow, ?_, .inr ⟨hx, rfl⟩⟩
            rw [UnpackedFloat.div, unpack_pack (x := .infinity (s / s')) trivial]
            rfl
        | _ => exact number.elim
    | zero s =>
        rw [hx] at small
        exact absurd overflow_pos small
    | finite s m e h =>
        rw [hx] at small
        exact absurd canonical.isDouble.lt_overflow small
    | notANumber => exact hx.elim

end

end Handoff.Decimal
