import Mathlib
import Handoff.Decimal.Binary

/-!
Packing and unpacking, for floats of any format.

The numbers that are unpacked from a word are `CanonicalFor` its format: the mantissa fits, and only
numbers with the least exponent leave its leading bit out.  Packing loses nothing of such numbers
(`unpack_pack_of_canonicalFor`).
-/

namespace Handoff.Decimal

open Float.Model (UnpackedFloat Format)
open Float.Model.UnpackedFloat (Sign packComponents unpackMantissa unpackExponent unpackSign
  unpackMantissa_packComponents unpackExponent_packComponents unpackSign_packComponents)

/-- A number as a word of a format holds it. -/
def CanonicalFor (spec : Format) : UnpackedFloat → Prop
  | .finite _ m e _ => m < 2 ^ spec.mantissaBits ∧ spec.minExponent ≤ e ∧
      e + spec.mantissaBitsWithoutImplicit ≤ spec.exponentBias ∧
      (e = spec.minExponent ∨ 2 ^ spec.mantissaBitsWithoutImplicit ≤ m)
  | _ => True

section

variable {spec : Format}

theorem toNat_leadingBit {width : Nat} (mantissa : BitVec width) :
    (1#1 ++ mantissa).toNat = 2 ^ width + mantissa.toNat := by
  rw [BitVec.toNat_append, ← Nat.shiftLeft_add_eq_or_of_lt mantissa.isLt, Nat.shiftLeft_eq]
  simp

/-- There are twice as many exponents as the bias, and two more. -/
theorem two_pow_exponentBits (spec : Format) :
    2 ^ spec.exponentBits = 2 * spec.exponentBias + 2 := by
  obtain ⟨p, hp, w, hw⟩ := spec
  obtain ⟨w, rfl⟩ := Nat.exists_eq_add_of_lt hw
  have := Nat.two_pow_pos w
  simp only [Format.exponentBias, Nat.zero_add, Nat.add_sub_cancel, Nat.pow_succ]
  omega

theorem minExponent_eq (spec : Format) :
    spec.minExponent = 1 - spec.exponentBias - spec.mantissaBitsWithoutImplicit := by
  obtain ⟨p, hp, w, hw⟩ := spec
  have := Nat.two_pow_pos (w - 1)
  simp only [Format.minExponent, Format.exponentBias, Format.mantissaBits]
  push_cast [Nat.one_le_two_pow]
  omega

theorem two_pow_mantissaBits (spec : Format) :
    2 ^ spec.mantissaBits = 2 * 2 ^ spec.mantissaBitsWithoutImplicit := by
  rw [Format.mantissaBits, Nat.pow_add, Nat.pow_one]

theorem toNat_allOnes (spec : Format) :
    (-1#_ : BitVec spec.exponentBits).toNat = 2 ^ spec.exponentBits - 1 := by
  rw [BitVec.neg_one_eq_allOnes, BitVec.toNat_allOnes]

theorem toNat_ofNat_of_leading {width m : Nat} (leading : 2 ^ width ≤ m)
    (fits : m < 2 * 2 ^ width) : (1#1 ++ BitVec.ofNat width m).toNat = m := by
  rw [toNat_leadingBit, BitVec.toNat_ofNat, Nat.mod_eq_sub_mod leading,
    Nat.mod_eq_of_lt (by omega)]
  omega

theorem canonicalFor_unpack (wide : 1 < spec.exponentBits) (b : BitVec spec.numBits) :
    CanonicalFor spec (UnpackedFloat.unpack spec b) := by
  have exponents : 2 ^ 2 ≤ 2 ^ spec.exponentBits := Nat.pow_le_pow_right (by decide) wide
  have mantissa := (unpackMantissa b).isLt
  have exponent := (unpackExponent b).isLt
  have bits := two_pow_exponentBits spec
  have least := minExponent_eq spec
  rw [UnpackedFloat.unpack]
  split
  · split <;> exact trivial
  · rename_i finite
    split
    · rename_i zero
      split
      · exact trivial
      · have none : (unpackExponent b).toNat = 0 := by rw [zero, BitVec.toNat_zero]
        rw [none]
        simp only [CanonicalFor, two_pow_mantissaBits]
        omega
    · rename_i normal
      simp only [BitVec.toNat_eq, toNat_allOnes, BitVec.toNat_zero] at finite normal
      simp only [CanonicalFor, two_pow_mantissaBits, toNat_leadingBit]
      omega

/-- A canonical number comes back when it is packed. -/
theorem unpack_pack_of_canonicalFor {s : Sign} {m : Nat} {e : Int} {positive : 0 < m}
    (canonical : CanonicalFor spec (.finite s m e positive)) :
    UnpackedFloat.unpack spec (UnpackedFloat.pack spec (.finite s m e positive)) =
      .finite s m e positive := by
  obtain ⟨fits, least, greatest, leading⟩ := canonical
  have bits := two_pow_exponentBits spec
  have top := toNat_allOnes spec
  rw [two_pow_mantissaBits] at fits
  rw [minExponent_eq] at least leading
  obtain ⟨field, exponent⟩ : ∃ field : Nat,
      (field : Int) = e + spec.exponentBias + spec.mantissaBitsWithoutImplicit :=
    ⟨_, Int.toNat_of_nonneg (by omega)⟩
  have held : (BitVec.ofNat spec.exponentBits field).toNat = field := by
    rw [BitVec.toNat_ofNat, Nat.mod_eq_of_lt (by omega)]
  rw [UnpackedFloat.pack, ← exponent, Int.toNat_natCast, if_neg (by omega)]
  by_cases normal : 2 ^ spec.mantissaBitsWithoutImplicit ≤ m
  · have width : m.log2 + 1 = spec.mantissaBits := by
      have above := (Nat.le_log2 (Nat.ne_of_gt positive)).mpr normal
      have below := (Nat.log2_lt (Nat.ne_of_gt positive)).mpr (two_pow_mantissaBits spec ▸ fits)
      rw [Format.mantissaBits] at below ⊢
      omega
    have infinite : BitVec.ofNat spec.exponentBits field ≠ -1#_ := by
      rw [ne_eq, BitVec.toNat_eq, held, top]
      omega
    have subnormal : BitVec.ofNat spec.exponentBits field ≠ 0#_ := by
      rw [ne_eq, BitVec.toNat_eq, held, BitVec.toNat_zero]
      omega
    rw [if_pos width, UnpackedFloat.unpack]
    simp only [unpackMantissa_packComponents, unpackExponent_packComponents,
      unpackSign_packComponents, Sign.ofBitVec_toBitVec, held, toNat_ofNat_of_leading normal fits]
    rw [if_neg infinite, if_neg subnormal]
    congr 1
    omega
  · have width : m.log2 + 1 ≠ spec.mantissaBits := by
      have below := (Nat.log2_lt (Nat.ne_of_gt positive)).mpr (Nat.lt_of_not_le normal)
      rw [Format.mantissaBits]
      omega
    have mantissa : (BitVec.ofNat spec.mantissaBitsWithoutImplicit m).toNat = m := by
      rw [BitVec.toNat_ofNat, Nat.mod_eq_of_lt (Nat.lt_of_not_le normal)]
    have nonzero : BitVec.ofNat spec.mantissaBitsWithoutImplicit m ≠ 0#_ := by
      rw [ne_eq, BitVec.toNat_eq, mantissa, BitVec.toNat_zero]
      omega
    have finite : (0#_ : BitVec spec.exponentBits) ≠ -1#_ := by
      rw [ne_eq, BitVec.toNat_eq, top, BitVec.toNat_zero]
      omega
    rw [if_neg width, UnpackedFloat.unpack]
    simp only [unpackMantissa_packComponents, unpackExponent_packComponents,
      unpackSign_packComponents, Sign.ofBitVec_toBitVec, mantissa]
    rw [if_neg finite, if_pos trivial, dif_neg nonzero]
    congr 1
    have last := leading.resolve_right normal
    rw [BitVec.toNat_zero]
    omega

/-! ## Binary numbers -/

/-- Whether a sign is the negative one. -/
def isNegative : Sign → Bool
  | .negative => true
  | .positive => false

/-- The binary number of an unpacked one, if it is finite. -/
def finite? (spec : Format) : UnpackedFloat → Option Binary
  | .zero s => some ⟨isNegative s, 0, spec.minExponent⟩
  | .finite s m e _ => some ⟨isNegative s, m, e⟩
  | .infinity _ | .notANumber => none

/-- The layout that words of a format have. -/
def layout (spec : Format) : Layout := ⟨spec.mantissaBitsWithoutImplicit, spec.exponentBits⟩

theorem leastExponent_layout (spec : Format) : (layout spec).leastExponent = spec.minExponent := by
  rw [Layout.leastExponent, Format.minExponent, Format.mantissaBits, layout, Nat.pow_eq]
  push_cast
  omega

theorem isNegative_ofBitVec (v : BitVec 1) : isNegative (Sign.ofBitVec v) = (v.toNat == 1) := by
  revert v
  decide

theorem toNat_unpackMantissa (b : BitVec spec.numBits) :
    (unpackMantissa b).toNat = b.toNat % 2 ^ spec.mantissaBitsWithoutImplicit := by
  simp [unpackMantissa, Nat.sub_add_cancel spec.hm]

theorem toNat_unpackExponent (b : BitVec spec.numBits) : (unpackExponent b).toNat =
    b.toNat / 2 ^ spec.mantissaBitsWithoutImplicit % 2 ^ spec.exponentBits := by
  have width : spec.mantissaBitsWithoutImplicit + spec.exponentBits - 1 -
      spec.mantissaBitsWithoutImplicit + 1 = spec.exponentBits := by
    have := spec.he
    omega
  simp [unpackExponent, Nat.shiftRight_eq_div_pow, width]

/-- The number packed in a word is the one that is unpacked from it. -/
theorem unpack?_toNat_layout (b : BitVec spec.numBits) :
    (layout spec).unpack? b.toNat = finite? spec (UnpackedFloat.unpack spec b) := by
  have mantissa := toNat_unpackMantissa b
  have exponent := toNat_unpackExponent b
  have sign : isNegative (Sign.ofBitVec (unpackSign b)) =
      (b.toNat / 2 ^ (spec.mantissaBitsWithoutImplicit + spec.exponentBits) % 2 == 1) := by
    rw [isNegative_ofBitVec]
    simp [unpackSign, Nat.shiftRight_eq_div_pow]
  rw [UnpackedFloat.unpack, Layout.unpack?, Layout.topField, leastExponent_layout, layout]
  simp only [Nat.pow_eq, ← mantissa, ← exponent, ← sign]
  by_cases infinite : unpackExponent b = -1#_
  · have top : (unpackExponent b).toNat = 2 ^ spec.exponentBits - 1 := by
      rw [infinite, toNat_allOnes]
    rw [if_pos top, if_pos infinite]
    split <;> rfl
  · have top : (unpackExponent b).toNat ≠ 2 ^ spec.exponentBits - 1 := by
      rw [← toNat_allOnes, ne_eq, ← BitVec.toNat_eq]
      exact infinite
    rw [if_neg top, if_neg infinite]
    by_cases least : unpackExponent b = 0#_
    · have bottom : (unpackExponent b).toNat = 0 := by rw [least, BitVec.toNat_zero]
      rw [if_pos bottom, if_pos least]
      split
      · rename_i zero
        rw [zero, BitVec.toNat_zero]
        rfl
      · simp only [finite?, bottom, minExponent_eq]
        congr 2
        omega
    · have bottom : (unpackExponent b).toNat ≠ 0 := by
        intro none
        exact least (BitVec.eq_of_toNat_eq (none.trans BitVec.toNat_zero.symm))
      rw [if_neg bottom, if_neg least]
      simp only [finite?, toNat_leadingBit, minExponent_eq]
      congr 2 <;> omega

/-- The number of a single is the one that is unpacked from its word. -/
theorem ofFloat32?_eq (x : Float32) :
    Binary.ofFloat32? x = finite? .binary32 x.toModel.unpack := by
  have read (b : BitVec Format.binary32.numBits) :
      Layout.single.unpack? b.toNat = finite? .binary32 (UnpackedFloat.unpack .binary32 b) :=
    unpack?_toNat_layout b
  exact read _

end

end Handoff.Decimal
