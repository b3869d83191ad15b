import Handoff.Proofs.Decimal.Order
import Handoff.Proofs.Decimal.Magnitude

/-!
When results of arithmetic are zero.

Rounding gives zero only to magnitudes below the least positive number; what it gives otherwise is
packed without loss (`exists_roundWithAccuracy`).  So sums of numbers without a negative sign, and
their square roots, are zero only if all of them are, and the square of a number vanishes only if
the number is tiny.
-/

namespace Handoff.Decimal

open Float.Model (UnpackedFloat Format totalExponent)
open Float.Model.UnpackedFloat (Sign Accuracy roundWithAccuracy decreaseExponent packComponents
  unpackMantissa unpackExponent unpackSign unpackMantissa_packComponents
  unpackExponent_packComponents unpackSign_packComponents)

/-- A positive number, infinity among them. -/
def Positive : UnpackedFloat → Prop
  | .finite .positive _ _ _ | .infinity .positive => True
  | .finite .negative _ _ _ | .infinity .negative | .zero _ | .notANumber => False

/-- A number that is not negative. -/
def Nonnegative : UnpackedFloat → Prop
  | .zero _ => True
  | x => Positive x

theorem Positive.rank_zero_lt {x : UnpackedFloat} (hx : Positive x) (s : Sign) :
    rank (.zero s) < rank x := by
  rcases x with (_ | _) | _ | _ | ⟨_ | _, m, e, h⟩
  case infinity.positive => exact Prod.Lex.toLex_lt_toLex.mpr (.inl (show (0 : ℤ) < 2 by decide))
  case finite.positive => exact Prod.Lex.toLex_lt_toLex.mpr (.inl (show (0 : ℤ) < 1 by decide))
  all_goals exact hx.elim

/-! ## Rounding -/

theorem log2_div_two_pow {m n : ℕ} (le : n ≤ m.log2) (positive : 0 < m) :
    (m / 2 ^ n).log2 = m.log2 - n := by
  have least := (Nat.le_log2 (Nat.ne_of_gt positive)).mp (Nat.le_refl m.log2)
  have greatest := (Nat.log2_lt (Nat.ne_of_gt positive)).mp (Nat.lt_succ_self m.log2)
  have low : 2 ^ (m.log2 - n) ≤ m / 2 ^ n := by
    rw [Nat.le_div_iff_mul_le (Nat.two_pow_pos n), ← Nat.pow_add, Nat.sub_add_cancel le]
    exact least
  have high : m / 2 ^ n < 2 ^ (m.log2 - n + 1) := by
    rw [Nat.div_lt_iff_lt_mul (Nat.two_pow_pos n), ← Nat.pow_add,
      show m.log2 - n + 1 + n = m.log2 + 1 by omega]
    exact greatest
  have other : m / 2 ^ n ≠ 0 := Nat.ne_of_gt (Nat.lt_of_lt_of_le (Nat.two_pow_pos _) low)
  exact (Nat.log2_eq_iff other).mpr ⟨low, high⟩

/-- A mantissa with all its bits, at an exponent that a single can have unless it is too large. -/
structure Settled (m : ℕ) (e : ℤ) : Prop where
  fits : m < 2 ^ 24
  least : -149 ≤ e
  leading : e = -149 ∨ 2 ^ 23 ≤ m

/-- A mantissa that is carried to one bit more at most gets its bits back by a second shift. -/
theorem settled_of_carried {r n : ℕ} {t : ℤ} (positive : 0 < r) (carried : r ≤ 2 ^ 24)
    (least : -149 ≤ t) (leading : t = -149 ∨ 2 ^ 23 ≤ r)
    (amount : n = (max (totalExponent r t - 24) (-149) - t).toNat) :
    r / 2 ^ n * 2 ^ n = r ∧ r / 2 ^ n ≠ 0 ∧ Settled (r / 2 ^ n) (t + n) := by
  rw [totalExponent] at amount
  by_cases next : r = 2 ^ 24
  · -- The carry goes through all bits.
    have length : (2 ^ 24 : ℕ).log2 = 24 := by decide
    rw [next, length] at amount
    have one : n = 1 := by omega
    rw [next, one]
    exact ⟨by decide, by decide, by decide, by omega, .inr (by decide)⟩
  · have length : r.log2 < 24 := (Nat.log2_lt (Nat.ne_of_gt positive)).mpr (by omega)
    have none : n = 0 := by omega
    rw [none, Nat.pow_zero, Nat.div_one, Nat.mul_one]
    exact ⟨rfl, Nat.ne_of_gt positive, by omega, by omega, by omega⟩

/-- A magnitude that has enough bits and is at least the least positive number is rounded to a
number with as many bits as there can be. -/
theorem exists_roundWithAccuracy {m : ℕ} {e : ℤ} (s : Sign) (a : Accuracy) (positive : 0 < m)
    (filled : e ≤ max (totalExponent m e - 24) (-149)) (large : -149 < totalExponent m e) :
    ∃ m' e' h, roundWithAccuracy .binary32 s m e a = .finite s m' e' h ∧ Settled m' e' ∧
      e ≤ e' := by
  obtain ⟨n, r, n', amount, up, carried, amount', value⟩ := roundWithAccuracy_eq s m e a
  rw [totalExponent] at filled large amount
  have few : n ≤ m.log2 := by omega
  have bits := log2_div_two_pow few positive
  have nonzero : m / 2 ^ n ≠ 0 := by
    have least := (Nat.le_log2 (Nat.ne_of_gt positive)).mp few
    exact Nat.ne_of_gt (Nat.div_pos least (Nat.two_pow_pos n))
  have below : m / 2 ^ n < 2 ^ 24 := (Nat.log2_lt nonzero).mp (by omega)
  have above : e + n = -149 ∨ 2 ^ 23 ≤ m / 2 ^ n := by
    by_cases bottom : e + n = -149
    · exact .inl bottom
    · exact .inr ((Nat.le_log2 nonzero).mp (by omega))
  have least : -149 ≤ e + n := by omega
  have exponent : e ≤ e + n := by omega
  clear bits few filled large amount
  generalize m / 2 ^ n = q at up carried nonzero below above
  generalize e + n = e₁ at amount' value above least exponent
  obtain ⟨-, other, settled⟩ :=
    settled_of_carried (show 0 < r by omega) (by omega) least (by omega) amount'
  rw [value, dif_neg other]
  exact ⟨_, _, _, rfl, settled, by omega⟩

theorem log2_shiftLeft {m n : ℕ} (positive : 0 < m) : (m <<< n).log2 = m.log2 + n := by
  have least := (Nat.le_log2 (Nat.ne_of_gt positive)).mp (Nat.le_refl m.log2)
  have greatest := (Nat.log2_lt (Nat.ne_of_gt positive)).mp (Nat.lt_succ_self m.log2)
  rw [Nat.shiftLeft_eq]
  refine (Nat.log2_eq_iff (Nat.ne_of_gt (Nat.mul_pos positive (Nat.two_pow_pos n)))).mpr ⟨?_, ?_⟩
  · rw [Nat.pow_add]
    exact Nat.mul_le_mul_right _ least
  · rw [show m.log2 + n + 1 = m.log2 + 1 + n by omega, Nat.pow_add]
    exact Nat.mul_lt_mul_of_pos_right greatest (Nat.two_pow_pos n)

/-- A mantissa at an exponent that a single can have is not rounded to zero. -/
theorem exists_round {m : ℕ} {e : ℤ} (s : Sign) (positive : 0 < m) (least : -149 ≤ e) :
    ∃ m' e' h, UnpackedFloat.round .binary32 s m e = .finite s m' e' h ∧ Settled m' e' ∧
      e - 23 ≤ e' := by
  have target : Format.targetExponent .binary32 (totalExponent m e) =
      max (totalExponent m e - 24) (-149) := rfl
  rw [UnpackedFloat.round, target, decreaseExponent]
  dsimp only
  obtain ⟨n, amount⟩ : ∃ n : ℕ, n = (e - max (totalExponent m e - 24) (-149)).toNat := ⟨_, rfl⟩
  rw [← amount]
  have filled : 0 < m <<< n := by
    rw [Nat.shiftLeft_eq]
    exact Nat.mul_pos positive (Nat.two_pow_pos n)
  have same : totalExponent (m <<< n) (e - n) = totalExponent m e := by
    rw [totalExponent, totalExponent, log2_shiftLeft positive]
    push_cast
    omega
  rw [totalExponent, totalExponent] at same
  rw [totalExponent] at amount
  obtain ⟨m', e', h, rounded, settled, exponent⟩ := exists_roundWithAccuracy s .exact filled
    (e := e - n) (by rw [totalExponent]; omega) (by rw [totalExponent]; omega)
  exact ⟨m', e', h, rounded, settled, by omega⟩

theorem exists_normalize {m e : ℤ} (other : m ≠ 0) (least : -149 ≤ e) (zero : Sign) :
    ∃ s m' e' h, UnpackedFloat.normalize .binary32 m e zero = .finite s m' e' h ∧ Settled m' e' ∧
      e - 23 ≤ e' ∧ (0 < m → s = .positive) := by
  rw [UnpackedFloat.normalize]
  split
  case h_1 negative =>
    have less := Int.compare_eq_lt.mp negative
    obtain ⟨m', e', h, rounded, settled, exponent⟩ := exists_round .negative
      (show 0 < (-m).toNat by omega) least
    exact ⟨_, m', e', h, rounded, settled, exponent, fun positive => by omega⟩
  case h_2 same => exact absurd (Int.compare_eq_eq.mp same) other
  case h_3 positive =>
    have more := Int.compare_eq_gt.mp positive
    obtain ⟨m', e', h, rounded, settled, exponent⟩ := exists_round .positive
      (show 0 < m.toNat by omega) least
    exact ⟨_, m', e', h, rounded, settled, exponent, fun _ => rfl⟩

/-! ## Packing -/

theorem canonicalFor_of_settled {m : ℕ} {e : ℤ} (s : Sign) (h : 0 < m) (settled : Settled m e)
    (small : e ≤ 104) : CanonicalFor .binary32 (.finite s m e h) :=
  ⟨settled.fits, settled.least, show e + 23 ≤ 127 by omega, settled.leading⟩

theorem settled_of_canonicalFor {s : Sign} {m : ℕ} {e : ℤ} {h : 0 < m}
    (canonical : CanonicalFor .binary32 (.finite s m e h)) : Settled m e :=
  ⟨canonical.1, canonical.2.1, canonical.2.2.2⟩

theorem canonicalFor_single (x : Float32) : CanonicalFor .binary32 x.toModel.unpack :=
  canonicalFor_unpack (by decide) _

/-- A number that is too large is packed as infinity. -/
theorem pack_of_large {s : Sign} {m : ℕ} {e : ℤ} {h : 0 < m} (large : 104 < e) :
    UnpackedFloat.pack .binary32 (.finite s m e h) = UnpackedFloat.packedInfinity .binary32 s :=
  if_pos (show 2 ^ 8 ≤ (e + 127 + 23).toNat + 1 by omega)

/-- What arithmetic rounds to does not vanish when it is packed. -/
theorem positive_unpack_pack {m : ℕ} {e : ℤ} {h : 0 < m} (settled : Settled m e) :
    Positive (UnpackedFloat.unpack .binary32
      (UnpackedFloat.pack .binary32 (.finite .positive m e h))) := by
  by_cases small : e ≤ 104
  · rw [unpack_pack_of_canonicalFor (canonicalFor_of_settled .positive h settled small)]
    exact trivial
  · rw [pack_of_large (by omega)]
    exact trivial

theorem nonnegative_packComponents (exponent : BitVec 8) (finite : exponent ≠ -1#8)
    (mantissa : BitVec 23) : Nonnegative (UnpackedFloat.unpack .binary32
      (packComponents .binary32 .positive exponent mantissa)) := by
  rw [UnpackedFloat.unpack]
  simp only [unpackMantissa_packComponents, unpackExponent_packComponents,
    unpackSign_packComponents, Sign.ofBitVec_toBitVec]
  rw [if_neg finite]
  split
  · split <;> exact trivial
  · exact trivial

/-- A number stays nonnegative when it is packed. -/
theorem nonnegative_unpack_pack {x : UnpackedFloat} (hx : Nonnegative x) :
    Nonnegative (UnpackedFloat.unpack .binary32 (x.pack .binary32)) := by
  rcases x with (_ | _) | _ | (_ | _) | ⟨_ | _, m, e, h⟩
  case finite.positive =>
    obtain ⟨field, biased⟩ : ∃ field, field = (e + 127 + 23).toNat := ⟨_, rfl⟩
    have packed : UnpackedFloat.pack .binary32 (.finite .positive m e h) =
        if 2 ^ 8 ≤ field + 1 then UnpackedFloat.packedInfinity .binary32 .positive
        else if m.log2 + 1 = 24 then
          packComponents .binary32 .positive (BitVec.ofNat 8 field) (BitVec.ofNat 23 m)
        else packComponents .binary32 .positive 0#_ (BitVec.ofNat 23 m) := by
      rw [biased]
      rfl
    rw [packed]
    split
    · exact trivial
    · split
      · refine nonnegative_packComponents _ ?_ _
        rw [ne_eq, BitVec.toNat_eq, BitVec.toNat_ofNat, Nat.mod_eq_of_lt (by omega)]
        exact show ¬field = 255 by omega
      · exact nonnegative_packComponents _ (by decide) _
  all_goals first | exact hx.elim | exact trivial

/-! ## Operations -/

theorem Positive.nonnegative {x : UnpackedFloat} (hx : Positive x) : Nonnegative x := by
  cases x with
  | zero s => exact trivial
  | _ => exact hx

theorem nonnegative_mul_self {x : UnpackedFloat} (number : x ≠ .notANumber) :
    Nonnegative (UnpackedFloat.mul .binary32 x x) := by
  rcases x with (_ | _) | _ | _ | ⟨_ | _, m, e, h⟩
  case notANumber => exact absurd rfl number
  case finite.negative | finite.positive =>
    change Nonnegative (roundWithAccuracy .binary32 .positive (m * m) (e + e) .exact)
    rw [roundWithAccuracy]
    dsimp only
    split <;> exact trivial
  all_goals exact trivial

/-- The square of a number that is far from the least positive one does not vanish. -/
theorem exists_mul_self {s : Sign} {m : ℕ} {e : ℤ} {h : 0 < m} (settled : Settled m e)
    (large : -60 ≤ e) : ∃ m' e' h', UnpackedFloat.mul .binary32 (.finite s m e h)
      (.finite s m e h) = .finite .positive m' e' h' ∧ Settled m' e' := by
  have leading := settled.leading.resolve_left (by omega)
  have product : 2 ^ 46 ≤ m * m := Nat.le_trans (by decide) (Nat.mul_le_mul leading leading)
  have bits := (Nat.le_log2 (Nat.ne_of_gt (Nat.mul_pos h h))).mpr product
  obtain ⟨m', e', h', rounded, settled', -⟩ := exists_roundWithAccuracy .positive .exact
    (Nat.mul_pos h h) (e := e + e) (by rw [totalExponent]; omega) (by rw [totalExponent]; omega)
  refine ⟨m', e', h', ?_, settled'⟩
  rw [← rounded]
  cases s <;> rfl

theorem positive_infinity : Positive (UnpackedFloat.unpack .binary32
    (UnpackedFloat.pack .binary32 (.infinity .positive))) :=
  trivial

/-- The sum of a positive number and one that is not negative. -/
theorem positive_add {x y : UnpackedFloat} (hx : Positive x) (hy : Nonnegative y)
    (canonical : CanonicalFor .binary32 x) (canonical' : CanonicalFor .binary32 y) :
    Positive (UnpackedFloat.unpack .binary32
      (UnpackedFloat.pack .binary32 (UnpackedFloat.add .binary32 x y))) := by
  rcases x with (_ | _) | _ | _ | ⟨_ | _, m, e, h⟩ <;>
    rcases y with (_ | _) | _ | _ | ⟨_ | _, m', e', h'⟩
  case finite.positive.zero => exact positive_unpack_pack (settled_of_canonicalFor canonical)
  case finite.positive.finite.positive =>
    have least : -149 ≤ min e e' := le_min canonical.2.1 canonical'.2.1
    have left : 0 < m <<< (e - min e e').toNat := by
      rw [Nat.shiftLeft_eq]
      exact Nat.mul_pos h (Nat.two_pow_pos _)
    have value : UnpackedFloat.add .binary32 (.finite .positive m e h)
        (.finite .positive m' e' h') = UnpackedFloat.normalize .binary32
          ((m <<< (e - min e e').toNat : ℕ) + (m' <<< (e' - min e e').toNat : ℕ)) (min e e')
          .positive := rfl
    rw [value]
    generalize m <<< (e - min e e').toNat = a at left
    generalize m' <<< (e' - min e e').toNat = b
    obtain ⟨s, m'', e'', h'', rounded, settled, -, sign⟩ :=
      exists_normalize (m := (a : ℤ) + b) (by omega) least .positive
    obtain rfl := sign (by omega)
    rw [rounded]
    exact positive_unpack_pack settled
  all_goals first | exact hx.elim | exact hy.elim | exact positive_infinity

theorem nonnegative_add {x y : UnpackedFloat} (hx : Nonnegative x) (hy : Nonnegative y)
    (canonical : CanonicalFor .binary32 x) (canonical' : CanonicalFor .binary32 y) :
    Nonnegative (UnpackedFloat.unpack .binary32
      (UnpackedFloat.pack .binary32 (UnpackedFloat.add .binary32 x y))) := by
  cases x with
  | zero s =>
      refine nonnegative_unpack_pack ?_
      cases y with
      | zero s' =>
          rw [UnpackedFloat.add]
          split <;> exact trivial
      | _ => exact hy
  | notANumber => exact hx.elim
  | _ => exact (positive_add hx hy canonical canonical').nonnegative

/-- The square root of a positive number. -/
theorem positive_sqrt {x : UnpackedFloat} (hx : Positive x) (canonical : CanonicalFor .binary32 x) :
    Positive (UnpackedFloat.unpack .binary32
      (UnpackedFloat.pack .binary32 (UnpackedFloat.sqrt .binary32 x))) := by
  rcases x with (_ | _) | _ | _ | ⟨_ | _, m, e, h⟩
  case infinity.positive => exact positive_infinity
  case finite.positive =>
    have least : -149 ≤ e := canonical.2.1
    -- The root is worked out to a target exponent, at which it has enough bits.
    obtain ⟨target, chosen⟩ : ∃ target, target =
        min (e / 2) (max ((totalExponent m e + 1) / 2 - 24) (-149)) := ⟨_, rfl⟩
    obtain ⟨a, value⟩ : ∃ a, UnpackedFloat.sqrt .binary32 (.finite .positive m e h) =
        roundWithAccuracy .binary32 .positive (m <<< (e - 2 * target).toNat).sqrt target a := by
      rw [chosen]
      exact ⟨_, rfl⟩
    rw [totalExponent] at chosen
    have filled : 2 ^ (m.log2 + (e - 2 * target).toNat) ≤ m <<< (e - 2 * target).toNat := by
      rw [Nat.shiftLeft_eq, Nat.pow_add]
      exact Nat.mul_le_mul_right _ ((Nat.le_log2 (Nat.ne_of_gt h)).mp (Nat.le_refl _))
    have root : 2 ^ ((m.log2 + (e - 2 * target).toNat) / 2) ≤
        (m <<< (e - 2 * target).toNat).sqrt := by
      refine Nat.le_sqrt.mpr (Nat.le_trans ?_ filled)
      rw [← Nat.pow_add]
      exact Nat.pow_le_pow_right (by decide) (by omega)
    generalize (m <<< (e - 2 * target).toNat).sqrt = r at value root
    have positive : 0 < r := Nat.lt_of_lt_of_le (Nat.two_pow_pos _) root
    have bits := (Nat.le_log2 (Nat.ne_of_gt positive)).mpr root
    obtain ⟨m', e', h', rounded, settled, -⟩ := exists_roundWithAccuracy .positive a positive
      (e := target) (by rw [totalExponent]; omega) (by rw [totalExponent]; omega)
    rw [value, rounded]
    exact positive_unpack_pack settled
  all_goals exact hx.elim

theorem nonnegative_sqrt {x : UnpackedFloat} (hx : Nonnegative x)
    (canonical : CanonicalFor .binary32 x) :
    Nonnegative (UnpackedFloat.unpack .binary32
      (UnpackedFloat.pack .binary32 (UnpackedFloat.sqrt .binary32 x))) := by
  cases x with
  | zero s => exact nonnegative_unpack_pack (x := .zero s) trivial
  | notANumber => exact hx.elim
  | _ => exact (positive_sqrt hx canonical).nonnegative

/-! ## Singles -/

/-- A positive single, infinity among them. -/
def IsPositive (x : Float32) : Prop := Positive x.toModel.unpack

theorem unpack_single_zero : (0.0 : Float32).toModel.unpack = .zero .positive := rfl

/-- A single that is not negative; either zero is one. -/
def IsNonnegative (x : Float32) : Prop := Nonnegative x.toModel.unpack

namespace IsPositive

variable {x y : Float32}

theorem add (hx : IsPositive x) (hy : IsNonnegative y) : IsPositive (x + y) :=
  positive_add hx hy (canonicalFor_single x) (canonicalFor_single y)

theorem rank_zero_lt (hx : IsPositive x) (s : Sign) : rank (.zero s) < rank x.toModel.unpack :=
  Positive.rank_zero_lt hx s

theorem sqrt (hx : IsPositive x) : IsPositive x.sqrt :=
  positive_sqrt hx (canonicalFor_single x)

end IsPositive

namespace IsNonnegative

variable {x y : Float32}

theorem square (number : x.toModel.unpack ≠ .notANumber) : IsNonnegative (x * x) :=
  nonnegative_unpack_pack (nonnegative_mul_self number)

theorem ne_notANumber (hx : IsNonnegative x) : x.toModel.unpack ≠ .notANumber := by
  intro missing
  rw [IsNonnegative, missing] at hx
  exact hx

theorem add (hx : IsNonnegative x) (hy : IsNonnegative y) : IsNonnegative (x + y) :=
  nonnegative_add hx hy (canonicalFor_single x) (canonicalFor_single y)

theorem sqrt (hx : IsNonnegative x) : IsNonnegative x.sqrt :=
  nonnegative_sqrt hx (canonicalFor_single x)

end IsNonnegative

/-! ## Differences -/

/-- How many steps of `2 ^ -23` a number is from zero, if it is not negative and no finer than
that. -/
def steps? : UnpackedFloat → Option ℕ
  | .zero _ => some 0
  | .finite .positive m e _ => if -23 ≤ e then some (m * 2 ^ (e + 23).toNat) else none
  | .finite .negative _ _ _ | .infinity _ | .notANumber => none

theorem steps?_finite {s : Sign} {m n : ℕ} {e : ℤ} {h : 0 < m}
    (steps : steps? (.finite s m e h) = some n) :
    s = .positive ∧ -23 ≤ e ∧ n = m * 2 ^ (e + 23).toNat := by
  cases s with
  | negative => cases steps
  | positive =>
      rw [steps?] at steps
      split at steps
      · exact ⟨rfl, ‹_›, (Option.some.inj steps).symm⟩
      · cases steps

/-- Numbers that are different numbers of steps from zero have a difference other than zero. -/
theorem exists_sub {x y : UnpackedFloat} {n n' : ℕ} (hx : steps? x = some n)
    (hy : steps? y = some n') (differ : n ≠ n') (canonical : CanonicalFor .binary32 x)
    (canonical' : CanonicalFor .binary32 y) :
    ∃ s m e h, UnpackedFloat.sub .binary32 x y = .finite s m e h ∧ Settled m e ∧ -46 ≤ e := by
  cases x with
  | zero s =>
      obtain rfl := Option.some.inj hx
      cases y with
      | zero s' => exact absurd (Option.some.inj hy) differ
      | finite s' m e h =>
          obtain ⟨-, coarse, -⟩ := steps?_finite hy
          exact ⟨_, m, e, h, rfl, settled_of_canonicalFor canonical', by omega⟩
      | _ => cases hy
  | finite s m e h =>
      obtain ⟨rfl, coarse, rfl⟩ := steps?_finite hx
      cases y with
      | zero s' => exact ⟨_, m, e, h, rfl, settled_of_canonicalFor canonical, by omega⟩
      | finite s' m' e' h' =>
          obtain ⟨rfl, coarse', rfl⟩ := steps?_finite hy
          have least : -23 ≤ min e e' := le_min coarse coarse'
          -- Filled up to the lesser exponent, the mantissas are the steps but for one factor.
          have filled (m : ℕ) (e least : ℤ) (le : least ≤ e) (coarse : -23 ≤ least) :
              m <<< (e - least).toNat * 2 ^ (least + 23).toNat = m * 2 ^ (e + 23).toNat := by
            rw [Nat.shiftLeft_eq, Nat.mul_assoc, ← Nat.pow_add]
            congr 2
            omega
          have left := filled m e _ (min_le_left e e') least
          have right := filled m' e' _ (min_le_right e e') least
          have value : UnpackedFloat.sub .binary32 (.finite .positive m e h)
              (.finite .positive m' e' h') = UnpackedFloat.normalize .binary32
                ((m <<< (e - min e e').toNat : ℕ) - (m' <<< (e' - min e e').toNat : ℕ)) (min e e')
                .positive := rfl
          rw [← left, ← right] at differ
          rw [value]
          generalize m <<< (e - min e e').toNat = a at differ
          generalize m' <<< (e' - min e e').toNat = b at differ
          have other : (a : ℤ) - b ≠ 0 := by
            intro same
            exact differ (congrArg (· * _) (by omega))
          obtain ⟨s, m'', e'', h'', rounded, settled, exponent, -⟩ :=
            exists_normalize other (show -149 ≤ min e e' by omega) .positive
          exact ⟨s, m'', e'', h'', rounded, settled, by omega⟩
      | _ => cases hy
  | _ => cases hx

/-- What is left of a number when it is taken from itself is the positive zero. -/
theorem unpacked_sub_self {x : UnpackedFloat} {k : ℤ} (hx : Below k x) :
    UnpackedFloat.sub .binary32 x x = .zero .positive := by
  rcases x with _ | _ | (_ | _) | ⟨s, m, e, h⟩
  case finite =>
    change UnpackedFloat.normalize .binary32 (s.apply (m <<< (e - min e e).toNat : ℕ) -
      s.apply (m <<< (e - min e e).toNat : ℕ)) (min e e) .positive = _
    rw [Int.sub_self]
    rfl
  all_goals first | exact hx.elim | rfl

/-- The square of the difference of two bounded numbers that are different numbers of steps from
zero. -/
theorem isPositive_square_sub {x y : Float32} {k : ℤ} {n n' : ℕ} (hx : IsBelow k x)
    (hy : IsBelow k y) (least : -128 ≤ k) (greatest : k ≤ 102)
    (steps : steps? x.toModel.unpack = some n) (steps' : steps? y.toModel.unpack = some n')
    (differ : n ≠ n') : IsPositive ((x - y) * (x - y)) := by
  obtain ⟨s, m, e, h, value, settled, large⟩ :=
    exists_sub steps steps' differ (canonicalFor_single x) (canonicalFor_single y)
  have bound : Below (k + 2) (UnpackedFloat.sub .binary32 x.toModel.unpack y.toModel.unpack) :=
    below_sub hx hy (by omega)
  rw [value] at bound
  have small := exponent_lt_of_mantissa h bound
  have unpacked : (x - y).toModel.unpack = .finite s m e h := by
    change UnpackedFloat.unpack .binary32 (UnpackedFloat.pack .binary32
      (UnpackedFloat.sub .binary32 x.toModel.unpack y.toModel.unpack)) = _
    rw [value]
    exact unpack_pack_of_canonicalFor (canonicalFor_of_settled s h settled (by omega))
  obtain ⟨m', e', h', value', settled'⟩ :=
    exists_mul_self (s := s) (h := h) settled (show -60 ≤ e by omega)
  change Positive (UnpackedFloat.unpack .binary32 (UnpackedFloat.pack .binary32
    (UnpackedFloat.mul .binary32 (x - y).toModel.unpack (x - y).toModel.unpack)))
  rw [unpacked, value']
  exact positive_unpack_pack settled'

namespace IsBelow

variable {x : Float32} {k : ℤ}

theorem ne_notANumber (hx : IsBelow k x) : x.toModel.unpack ≠ .notANumber := by
  intro missing
  rw [IsBelow, missing] at hx
  exact hx

theorem sub_self (hx : IsBelow k x) : x - x = 0.0 :=
  congrArg (fun u => (⟨Float32.Model.pack u⟩ : Float32)) (unpacked_sub_self hx)

end IsBelow

end Handoff.Decimal
