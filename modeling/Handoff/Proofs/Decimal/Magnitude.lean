import Handoff.Proofs.Decimal.Packing

/-!
How large the results of arithmetic are.

A number is `Below k` if its magnitude is less than `2 ^ k`.  Rounding can carry a number to the
next power of two and not further (`below_roundWithAccuracy`), so the results of single operations
are bounded by bounds of their operands.  For singles this is said by `IsBelow`; as long as the
bounds stay far from the largest single, nothing overflows and no result is NaN.
-/

namespace Handoff.Decimal

open Float.Model (UnpackedFloat Format totalExponent)
open Float.Model.UnpackedFloat (Sign Accuracy ExtendedMantissa roundWithAccuracy
  decreaseExponent packComponents unpackMantissa unpackExponent unpackSign
  unpackMantissa_packComponents unpackExponent_packComponents unpackSign_packComponents)

/-- A finite number with a magnitude less than `2 ^ k`. -/
def Below (k : ℤ) : UnpackedFloat → Prop
  | .zero _ => True
  | .finite _ m e _ => m < 2 ^ (k - e).toNat
  | .infinity _ | .notANumber => False

/-- A finite number with a magnitude of at least `2 ^ k`. -/
def AtLeast (k : ℤ) : UnpackedFloat → Prop
  | .finite _ m e _ => e ≤ k ∧ 2 ^ (k - e).toNat ≤ m
  | .zero _ | .infinity _ | .notANumber => False

instance decidableBelow (k : ℤ) : DecidablePred (Below k)
  | .zero _ => .isTrue trivial
  | .finite _ m e _ => inferInstanceAs (Decidable (m < 2 ^ (k - e).toNat))
  | .infinity _ | .notANumber => .isFalse id

instance decidableAtLeast (k : ℤ) : DecidablePred (AtLeast k)
  | .finite _ m e _ => inferInstanceAs (Decidable (e ≤ k ∧ 2 ^ (k - e).toNat ≤ m))
  | .zero _ | .infinity _ | .notANumber => .isFalse id

section

variable {k l : ℤ} {x y : UnpackedFloat}

theorem exponent_lt_of_mantissa {m : ℕ} {e : ℤ} (positive : 0 < m)
    (below : m < 2 ^ (k - e).toNat) : e < k := by
  by_contra past
  rw [Int.toNat_of_nonpos (by omega)] at below
  omega

theorem Below.mono (below : Below k x) (le : k ≤ l) : Below l x := by
  cases x with
  | finite s m e positive =>
      exact Nat.lt_of_lt_of_le below (Nat.pow_le_pow_right (by decide) (by omega))
  | _ => exact below

/-! ## Rounding -/

theorem mantissa_shiftRight (em : ExtendedMantissa) (n : ℕ) :
    (em >>> n).mantissa = em.mantissa / 2 ^ n := by
  change (n.repeat ExtendedMantissa.shiftRightOne em).mantissa = _
  induction n with
  | zero => simp [Nat.repeat]
  | succ n ih =>
      rw [Nat.repeat, ExtendedMantissa.shiftRightOne, ih, Nat.div_div_eq_div_mul, Nat.pow_succ]

theorem mantissa_ofMantissaAndAccuracy (m : ℕ) (a : Accuracy) :
    (ExtendedMantissa.ofMantissaAndAccuracy m a).mantissa = m := by
  rcases a with _ | _ | _ | _ <;> rfl

/-- Rounding leaves a mantissa as it is or raises it by one. -/
theorem roundedMantissa_le (em : ExtendedMantissa) :
    em.mantissa ≤ em.roundedMantissa ∧ em.roundedMantissa ≤ em.mantissa + 1 := by
  obtain ⟨m, _ | _, _ | _⟩ := em <;>
    simp only [ExtendedMantissa.roundedMantissa, ExtendedMantissa.accuracy,
      Accuracy.roundToNearestEven] <;> omega

/-- A shift to the target exponent divides the mantissa. -/
theorem mantissa_shiftToTargetExponent (spec : Format) (m : ℕ) (e : ℤ) (a : Accuracy) :
    (UnpackedFloat.shiftToTargetExponent spec m e a).1.mantissa =
      m / 2 ^ (spec.targetExponent (totalExponent m e) - e).toNat :=
  (mantissa_shiftRight _ _).trans (by rw [mantissa_ofMantissaAndAccuracy])

/-- A mantissa is shifted, rounded to a whole number, and shifted again if it was carried. -/
theorem roundWithAccuracy_shifted (spec : Format) (s : Sign) {m n r n' : ℕ} {e : ℤ} {a : Accuracy}
    (amount : n = (spec.targetExponent (totalExponent m e) - e).toNat)
    (rounded : r = (ExtendedMantissa.ofMantissaAndAccuracy m a >>> n).roundedMantissa)
    (amount' : n' = (spec.targetExponent (totalExponent r (e + n)) - (e + n)).toNat) :
    roundWithAccuracy spec s m e a =
      if h : r / 2 ^ n' = 0 then .zero s
      else .finite s (r / 2 ^ n') (e + n + n') (Nat.pos_of_ne_zero h) := by
  have first : UnpackedFloat.shiftToTargetExponent spec m e a =
      (ExtendedMantissa.ofMantissaAndAccuracy m a >>> n, e + n) := amount ▸ rfl
  have divided := mantissa_shiftToTargetExponent spec r (e + n) .exact
  have raised : (UnpackedFloat.shiftToTargetExponent spec r (e + n) .exact).2 = e + n + n' :=
    amount' ▸ rfl
  rw [← amount'] at divided
  rw [roundWithAccuracy, first]
  dsimp only
  rw [← rounded]
  generalize UnpackedFloat.shiftToTargetExponent spec r (e + n) .exact = second at divided raised
  obtain ⟨⟨m', _, _⟩, e'⟩ := second
  dsimp only at divided raised ⊢
  subst divided raised
  rfl

theorem div_two_pow_lt {m n : ℕ} {e : ℤ} (below : m < 2 ^ (k - e).toNat) (within : e + n ≤ k) :
    m / 2 ^ n < 2 ^ (k - (e + n)).toNat := by
  have split : (k - e).toNat = (k - (e + n)).toNat + n := by omega
  rw [split, Nat.pow_add] at below
  exact (Nat.div_lt_iff_lt_mul (Nat.two_pow_pos n)).mpr below

/-- The first shift of a single, and what is rounded after it. -/
theorem roundWithAccuracy_eq (s : Sign) (m : ℕ) (e : ℤ) (a : Accuracy) : ∃ n r n' : ℕ,
    n = (max (totalExponent m e - 24) (-149) - e).toNat ∧ m / 2 ^ n ≤ r ∧ r ≤ m / 2 ^ n + 1 ∧
    n' = (max (totalExponent r (e + n) - 24) (-149) - (e + n)).toNat ∧
    roundWithAccuracy .binary32 s m e a =
      if h : r / 2 ^ n' = 0 then .zero s
      else .finite s (r / 2 ^ n') (e + n + n') (Nat.pos_of_ne_zero h) := by
  obtain ⟨n, amount⟩ : ∃ n : ℕ, n = (max (totalExponent m e - 24) (-149) - e).toNat := ⟨_, rfl⟩
  obtain ⟨least, greatest⟩ :=
    roundedMantissa_le (ExtendedMantissa.ofMantissaAndAccuracy m a >>> n)
  rw [mantissa_shiftRight, mantissa_ofMantissaAndAccuracy] at least greatest
  exact ⟨n, _, _, amount, least, greatest, rfl, roundWithAccuracy_shifted .binary32 s amount rfl rfl⟩

/-- Rounding can carry a number to the next power of two and not further. -/
theorem below_roundWithAccuracy {m : ℕ} {e : ℤ} (s : Sign) (a : Accuracy) (exponent : e ≤ k)
    (below : m < 2 ^ (k - e).toNat) (least : -149 ≤ k) :
    Below (k + 1) (roundWithAccuracy .binary32 s m e a) := by
  obtain ⟨n, r, n', amount, -, carried, -, value⟩ := roundWithAccuracy_eq s m e a
  -- The first shift does not go past the bound, since it leaves all leading bits.
  have within : e + n ≤ k := by
    have total : totalExponent m e ≤ k ∨ m = 0 := by
      by_cases zero : m = 0
      · exact .inr zero
      · have bits := (Nat.log2_lt zero).mpr below
        exact .inl (by rw [totalExponent]; omega)
    have none : totalExponent 0 e = e + 1 := by
      rw [totalExponent, Nat.log2_zero]
      omega
    rcases total with total | rfl <;> omega
  have quotient : m / 2 ^ n < 2 ^ (k - (e + n)).toNat := div_two_pow_lt below within
  have rounded : r < 2 ^ (k + 1 - (e + n)).toNat := by
    have double : (k + 1 - (e + n)).toNat = (k - (e + n)).toNat + 1 := by omega
    rw [double, Nat.pow_succ]
    generalize m / 2 ^ n = q at carried quotient
    omega
  rw [value]
  split
  · exact trivial
  · rename_i positive
    have within' : e + n + n' ≤ k + 1 := by
      by_contra past
      have power := Nat.pow_le_pow_right (n := 2) (by decide)
        (show (k + 1 - (e + n)).toNat ≤ n' by omega)
      exact positive (Nat.div_eq_of_lt (Nat.lt_of_lt_of_le rounded power))
    exact div_two_pow_lt rounded within'

/-- The mantissa may also have to be filled up first. -/
theorem below_round {m : ℕ} {e : ℤ} (s : Sign) (exponent : e ≤ k) (below : m < 2 ^ (k - e).toNat)
    (least : -149 ≤ k) : Below (k + 1) (UnpackedFloat.round .binary32 s m e) := by
  rw [UnpackedFloat.round, decreaseExponent]
  refine below_roundWithAccuracy s _ (by omega) ?_ least
  generalize (e - Format.targetExponent .binary32 (totalExponent m e)).toNat = n
  have split : (k - (e - n)).toNat = (k - e).toNat + n := by omega
  rw [Nat.shiftLeft_eq, split, Nat.pow_add]
  exact Nat.mul_lt_mul_of_pos_right below (Nat.two_pow_pos n)

theorem below_normalize {m e : ℤ} (s : Sign) (exponent : e ≤ k)
    (below : m.natAbs < 2 ^ (k - e).toNat) (least : -149 ≤ k) :
    Below (k + 1) (UnpackedFloat.normalize .binary32 m e s) := by
  rw [UnpackedFloat.normalize]
  split
  case h_1 => exact below_round _ exponent (by omega) least
  case h_2 => exact trivial
  case h_3 => exact below_round _ exponent (by omega) least

/-! ## Operations -/

theorem two_pow_mul {e f : ℤ} (hk : e ≤ k) (hl : f ≤ l) :
    2 ^ (k - e).toNat * 2 ^ (l - f).toNat = 2 ^ (k + l - (e + f)).toNat := by
  rw [← Nat.pow_add]
  congr 1
  omega

theorem below_mul (hx : Below k x) (hy : Below l y) (least : -149 ≤ k + l) :
    Below (k + l + 1) (UnpackedFloat.mul .binary32 x y) := by
  rcases x with _ | _ | _ | ⟨s, m, e, hm⟩ <;> rcases y with _ | _ | _ | ⟨s', m', e', hm'⟩
  case finite.finite =>
    have he := exponent_lt_of_mantissa hm hx
    have he' := exponent_lt_of_mantissa hm' hy
    refine below_roundWithAccuracy _ _ (by omega) ?_ least
    rw [← two_pow_mul he.le he'.le]
    exact Nat.mul_lt_mul_of_lt_of_lt hx hy
  all_goals first | exact trivial | exact hx.elim | exact hy.elim

/-- A mantissa that is filled up has the same bound. -/
theorem shiftLeft_lt {m : ℕ} {e f : ℤ} (below : m < 2 ^ (k - e).toNat) (exponent : e ≤ k)
    (le : f ≤ e) : m <<< (e - f).toNat < 2 ^ (k - f).toNat := by
  have split : (k - f).toNat = (k - e).toNat + (e - f).toNat := by omega
  rw [Nat.shiftLeft_eq, split, Nat.pow_add]
  exact Nat.mul_lt_mul_of_pos_right below (Nat.two_pow_pos _)

/-- The two mantissas of a sum or a difference, filled up to the lesser exponent. -/
theorem below_normalize_of_finite {m m' : ℕ} {e e' : ℤ} (hm : 0 < m) (hm' : 0 < m')
    (hx : m < 2 ^ (k - e).toNat) (hy : m' < 2 ^ (k - e').toNat) (least : -150 ≤ k) {sum : ℤ}
    (bound : sum.natAbs ≤ m <<< (e - min e e').toNat + m' <<< (e' - min e e').toNat) (s : Sign) :
    Below (k + 2) (UnpackedFloat.normalize .binary32 sum (min e e') s) := by
  have he := exponent_lt_of_mantissa hm hx
  have he' := exponent_lt_of_mantissa hm' hy
  have left := shiftLeft_lt hx he.le (Int.min_le_left e e')
  have right := shiftLeft_lt hy he'.le (Int.min_le_right e e')
  have double : (k + 1 - min e e').toNat = (k - min e e').toNat + 1 := by omega
  refine (below_normalize (k := k + 1) s (by omega) ?_ (by omega)).mono (by omega)
  rw [double, Nat.pow_succ]
  omega

theorem natAbs_apply (s : Sign) (m : ℕ) : (s.apply m).natAbs = m := by
  cases s <;> simp [Sign.apply]

theorem below_add (hx : Below k x) (hy : Below k y) (least : -150 ≤ k) :
    Below (k + 2) (UnpackedFloat.add .binary32 x y) := by
  have wider := hx.mono (show k ≤ k + 2 by omega)
  have wider' := hy.mono (show k ≤ k + 2 by omega)
  rcases x with _ | _ | _ | ⟨s, m, e, hm⟩ <;> rcases y with _ | _ | _ | ⟨s', m', e', hm'⟩
  case finite.finite =>
    refine below_normalize_of_finite hm hm' hx hy least ?_ _
    refine Nat.le_trans (Int.natAbs_add_le _ _) ?_
    rw [natAbs_apply, natAbs_apply]
  case zero.zero =>
    rw [UnpackedFloat.add]
    split <;> exact trivial
  case zero.finite => exact wider'
  case finite.zero => exact wider
  all_goals first | exact hx.elim | exact hy.elim

theorem below_sub (hx : Below k x) (hy : Below k y) (least : -150 ≤ k) :
    Below (k + 2) (UnpackedFloat.sub .binary32 x y) := by
  have wider := hx.mono (show k ≤ k + 2 by omega)
  have wider' := hy.mono (show k ≤ k + 2 by omega)
  rcases x with _ | _ | _ | ⟨s, m, e, hm⟩ <;> rcases y with _ | _ | _ | ⟨s', m', e', hm'⟩
  case finite.finite =>
    refine below_normalize_of_finite hm hm' hx hy least ?_ _
    refine Nat.le_trans (Int.natAbs_sub_le _ _) ?_
    rw [natAbs_apply, natAbs_apply]
  case zero.zero =>
    rw [UnpackedFloat.sub]
    split <;> exact trivial
  case zero.finite => exact wider'
  case finite.zero => exact wider
  all_goals first | exact hx.elim | exact hy.elim

theorem below_div (hx : Below k x) (hy : AtLeast l y) (least : -149 ≤ k - l) :
    Below (k - l + 1) (UnpackedFloat.div .binary32 x y) := by
  rcases x with _ | _ | _ | ⟨s', m', e', hm'⟩ <;> rcases y with _ | _ | _ | ⟨s, m, e, hm⟩
  case finite.finite =>
    obtain ⟨exponent, large⟩ := hy
    have he' := exponent_lt_of_mantissa hm' hx
    have bits : m'.log2 < (k - e').toNat := (Nat.log2_lt (Nat.ne_of_gt hm')).mpr hx
    have bits' : (l - e).toNat ≤ m.log2 := (Nat.le_log2 (Nat.ne_of_gt hm)).mpr large
    rw [UnpackedFloat.div, UnpackedFloat.divCore]
    -- The quotient is worked out to a target exponent, which is at most that of the result.
    obtain ⟨target, chosen⟩ : ∃ target, target = min (e' - e)
        (max (totalExponent m' e' - totalExponent m e - 24) (-149)) := ⟨_, rfl⟩
    have quotient : (m' <<< (e' - e - target).toNat) / m < 2 ^ (k - l - target).toNat := by
      have split : (k - e').toNat + (e' - e - target).toNat =
          (k - l - target).toNat + (l - e).toNat := by
        rw [totalExponent, totalExponent] at chosen
        omega
      refine (Nat.div_lt_iff_lt_mul hm).mpr (Nat.lt_of_lt_of_le ?_ (Nat.mul_le_mul_left _ large))
      rw [Nat.shiftLeft_eq, ← Nat.pow_add, ← split, Nat.pow_add]
      exact Nat.mul_lt_mul_of_pos_right hx (Nat.two_pow_pos _)
    have result := below_roundWithAccuracy (s' / s)
      (UnpackedFloat.accuracyOfFraction ((m' <<< (e' - e - target).toNat) % m) m)
      (show target ≤ k - l by
        rw [totalExponent, totalExponent] at chosen
        omega) quotient (by omega)
    rw [chosen] at result
    exact result
  all_goals first | exact trivial | exact hx.elim | exact hy.elim

/-! ## Packing -/

/-- Words with the least exponent field are small. -/
theorem below_unpack_packComponents_zero (s : Sign) (v : BitVec 23) (least : -126 ≤ k) :
    Below k (UnpackedFloat.unpack .binary32 (packComponents .binary32 s 0#_ v)) := by
  rw [UnpackedFloat.unpack]
  simp only [unpackMantissa_packComponents, unpackExponent_packComponents,
    unpackSign_packComponents]
  rw [if_neg (by decide), if_pos trivial]
  split
  · exact trivial
  · have power := Nat.pow_le_pow_right (n := 2) (by decide) (show 23 ≤ (k - -149).toNat by omega)
    exact Nat.lt_of_lt_of_le v.isLt power

/-- A bounded number stays so when it is packed. -/
theorem below_unpack_pack (least : -126 ≤ k) (greatest : k ≤ 104) (hx : Below k x) :
    Below k (UnpackedFloat.unpack .binary32 (x.pack .binary32)) := by
  rcases x with _ | _ | s | ⟨s, m, e, hm⟩
  case zero =>
    cases s <;> exact trivial
  case finite =>
    have he := exponent_lt_of_mantissa hm hx
    obtain ⟨field, biased⟩ : ∃ field, field = (e + 127 + 23).toNat := ⟨_, rfl⟩
    have packed : UnpackedFloat.pack .binary32 (.finite s m e hm) =
        if m.log2 + 1 = 24 then
          packComponents .binary32 s (BitVec.ofNat 8 field) (BitVec.ofNat 23 m)
        else packComponents .binary32 s 0#_ (BitVec.ofNat 23 m) := by
      rw [biased]
      exact if_neg (show ¬2 ^ 8 ≤ (e + 127 + 23).toNat + 1 by omega)
    rw [packed]
    split
    case isFalse => exact below_unpack_packComponents_zero s _ least
    case isTrue bits =>
      by_cases subnormal : field = 0
      · rw [subnormal]
        exact below_unpack_packComponents_zero s _ least
      · have held : (BitVec.ofNat 8 field).toNat = field := by
          rw [BitVec.toNat_ofNat, Nat.mod_eq_of_lt (by omega)]
        have leading := (Nat.le_log2 (Nat.ne_of_gt hm)).mp (show 23 ≤ m.log2 by omega)
        have fits := (Nat.log2_lt (Nat.ne_of_gt hm)).mp (show m.log2 < 24 by omega)
        rw [UnpackedFloat.unpack]
        simp only [unpackMantissa_packComponents, unpackExponent_packComponents,
          unpackSign_packComponents]
        have infinite : BitVec.ofNat 8 field ≠ -1#8 := by
          rw [ne_eq, BitVec.toNat_eq, held]
          exact show ¬field = 255 by omega
        have normal : BitVec.ofNat 8 field ≠ 0#8 := by
          rw [ne_eq, BitVec.toNat_eq, held]
          exact subnormal
        rw [if_neg infinite, if_neg normal]
        change _ < 2 ^ (k - (((BitVec.ofNat 8 field).toNat : ℤ) - (127 + 23))).toNat
        rw [held, toNat_ofNat_of_leading leading fits, show (field : ℤ) - (127 + 23) = e by omega]
        exact hx
  all_goals exact hx.elim

end

/-! ## Singles -/

/-- A finite single with a magnitude less than `2 ^ k`. -/
def IsBelow (k : ℤ) (x : Float32) : Prop :=
  Below k x.toModel.unpack

/-- A finite single with a magnitude of at least `2 ^ k`. -/
def IsAtLeast (k : ℤ) (x : Float32) : Prop :=
  AtLeast k x.toModel.unpack

instance decidableIsBelow (k : ℤ) : DecidablePred (IsBelow k) := fun x =>
  decidableBelow k x.toModel.unpack

instance decidableIsAtLeast (k : ℤ) : DecidablePred (IsAtLeast k) := fun x =>
  decidableAtLeast k x.toModel.unpack

namespace IsBelow

variable {k l : ℤ} {x y : Float32}

theorem mono (hx : IsBelow k x) (le : k ≤ l) : IsBelow l x :=
  Below.mono hx le

theorem mul (hx : IsBelow k x) (hy : IsBelow l y) (least : -127 ≤ k + l) (greatest : k + l ≤ 103) :
    IsBelow (k + l + 1) (x * y) :=
  below_unpack_pack (by omega) (by omega) (below_mul hx hy (by omega))

theorem add (hx : IsBelow k x) (hy : IsBelow k y) (least : -128 ≤ k) (greatest : k ≤ 102) :
    IsBelow (k + 2) (x + y) :=
  below_unpack_pack (by omega) (by omega) (below_add hx hy (by omega))

theorem sub (hx : IsBelow k x) (hy : IsBelow k y) (least : -128 ≤ k) (greatest : k ≤ 102) :
    IsBelow (k + 2) (x - y) :=
  below_unpack_pack (by omega) (by omega) (below_sub hx hy (by omega))

theorem div (hx : IsBelow k x) (hy : IsAtLeast l y) (least : -127 ≤ k - l)
    (greatest : k - l ≤ 103) : IsBelow (k - l + 1) (x / y) :=
  below_unpack_pack (by omega) (by omega) (below_div hx hy (by omega))

end IsBelow

end Handoff.Decimal
