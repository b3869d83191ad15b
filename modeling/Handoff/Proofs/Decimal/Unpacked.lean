import Handoff.Decimal.Numeral
import Handoff.Proofs.Decimal.Packing

/-!
Floats as unpacked numbers.

What is computed with floats is computed on unpacked numbers and packed again.  The numbers that
come out of floats are `Canonical`; packing them loses nothing (`unpack_pack`), so absolute values,
opposites and differences from zero are exact.  `Binary.ofFloat?` reads the same number
(`ofFloat?_eq`).

No number is packed into a word past that of infinity, so a single that is a number is one as a
double (`unpack_widen_ne`), and zero stays zero.
-/

namespace Handoff.Decimal

open Float.Model (UnpackedFloat Format)
open Float.Model.UnpackedFloat (unpackMantissa unpackExponent)

/-! ## Packing and unpacking -/

/-- A number as a float holds it: the mantissa fits, and only the smallest numbers leave its
leading bit out. -/
def Canonical : UnpackedFloat → Prop
  | .finite _ m e _ => m < 2 ^ 53 ∧ -1074 ≤ e ∧ e ≤ 971 ∧ (e = -1074 ∨ 2 ^ 52 ≤ m)
  | _ => True

theorem canonical_iff (x : UnpackedFloat) : Canonical x ↔ CanonicalFor .binary64 x := by
  have bias : (Format.binary64.exponentBias : Int) = 1023 := by decide
  have bits : (Format.binary64.mantissaBitsWithoutImplicit : Int) = 52 := by decide
  have least : Format.binary64.minExponent = -1074 := by decide
  rcases x with _ | _ | _ | ⟨s, m, e, positive⟩
  case finite =>
    rw [Canonical, CanonicalFor, bias, bits, least]
    exact and_congr Iff.rfl (and_congr Iff.rfl (and_congr (by omega) Iff.rfl))
  all_goals exact Iff.rfl

theorem canonical_unpack (b : BitVec Format.binary64.numBits) :
    Canonical (UnpackedFloat.unpack .binary64 b) :=
  (canonical_iff _).mpr (canonicalFor_unpack (by decide) b)

/-- A number that came out of a float comes back when it is packed. -/
theorem unpack_pack {x : UnpackedFloat} (canonical : Canonical x) :
    UnpackedFloat.unpack .binary64 (x.pack .binary64) = x := by
  rcases x with s | _ | s | _
  · cases s <;> rfl
  · rfl
  · cases s <;> rfl
  · exact unpack_pack_of_canonicalFor ((canonical_iff _).mp canonical)

theorem canonical_float (x : Float) : Canonical x.toModel.unpack :=
  canonical_unpack _

theorem unpack_zero : (0.0 : Float).toModel.unpack = .zero .positive := by
  rfl

/-! ## Signs -/

theorem unpack_abs (x : Float) : x.abs.toModel.unpack = x.toModel.unpack.abs := by
  refine unpack_pack ?_
  have canonical := canonical_float x
  generalize x.toModel.unpack = u at canonical
  cases u <;> exact canonical

theorem unpack_zero_sub (x : Float) :
    (0.0 - x).toModel.unpack = UnpackedFloat.sub .binary64 (.zero .positive) x.toModel.unpack := by
  refine unpack_pack ?_
  have canonical := canonical_float x
  rw [unpack_zero]
  generalize x.toModel.unpack = u at canonical
  cases u with
  | zero s => cases s <;> exact trivial
  | _ => exact canonical

/-- The distance from zero is the absolute value. -/
theorem unpack_abs_zero_sub (x : Float) :
    (0.0 - x).abs.toModel.unpack = x.toModel.unpack.abs := by
  rw [unpack_abs, unpack_zero_sub]
  cases x.toModel.unpack with
  | zero s => cases s <;> rfl
  | _ => rfl

/-! ## Binary numbers -/

/-- The binary number of an unpacked one, if it is finite. -/
def toBinary? : UnpackedFloat → Option Binary
  | .zero s => some ⟨isNegative s, 0, -1074⟩
  | .finite s m e _ => some ⟨isNegative s, m, e⟩
  | .infinity _ | .notANumber => none

theorem toBinary?_eq (x : UnpackedFloat) : toBinary? x = finite? .binary64 x := by
  cases x <;> rfl

theorem unpack?_toNat (b : BitVec Format.binary64.numBits) :
    Layout.double.unpack? b.toNat = toBinary? (UnpackedFloat.unpack .binary64 b) :=
  (unpack?_toNat_layout b).trans (toBinary?_eq _).symm

theorem ofFloat?_eq (x : Float) : Binary.ofFloat? x = toBinary? x.toModel.unpack :=
  unpack?_toNat _

/-! ## Singles as doubles -/

/-- A word that is not past that of infinity is a number. -/
theorem unpack_ne_notANumber {spec : Format} {b : BitVec spec.numBits}
    (bound : b.toNat % (2 ^ spec.mantissaBitsWithoutImplicit * 2 ^ spec.exponentBits) ≤
      2 ^ spec.mantissaBitsWithoutImplicit * (2 ^ spec.exponentBits - 1)) :
    UnpackedFloat.unpack spec b ≠ .notANumber := by
  rw [Nat.mod_mul, ← toNat_unpackMantissa, ← toNat_unpackExponent] at bound
  rw [UnpackedFloat.unpack]
  split
  · rename_i top
    have whole : (unpackMantissa b).toNat = 0 := by
      rw [top, toNat_allOnes] at bound
      omega
    rw [if_pos (BitVec.eq_of_toNat_eq (whole.trans BitVec.toNat_zero.symm))]
    exact nofun
  · split
    · split <;> exact nofun
    · exact nofun

theorem pack_double_le (b : Binary) : Layout.double.pack b % 2 ^ 63 ≤ 2 ^ 52 * 2047 := by
  have top : Layout.double.topField = 2047 := rfl
  rw [Layout.pack, top]
  dsimp only [Layout.double, Nat.pow_eq]
  split
  · cases b.negative <;> decide
  · generalize magnitude : min _ (2047 * 2 ^ 52) = m
    have least : m ≤ 2047 * 2 ^ 52 := magnitude ▸ Nat.min_le_right _ _
    clear magnitude
    cases b.negative
    case false =>
      rw [if_neg Bool.false_ne_true]
      omega
    case true =>
      rw [if_pos rfl]
      omega

/-- The double nearest to a number is a number. -/
theorem unpack_toFloat_ne (b : Binary) : b.toFloat.toModel.unpack ≠ .notANumber := by
  have read : b.toFloat.toModel.unpack =
      UnpackedFloat.unpack .binary64 (UnpackedFloat.pack .binary64
        (UnpackedFloat.unpack .binary64 (BitVec.ofNat 64 (Layout.double.pack b)))) := rfl
  rw [read, unpack_pack (canonical_unpack _)]
  refine unpack_ne_notANumber ?_
  change (BitVec.ofNat 64 (Layout.double.pack b)).toNat % (2 ^ 52 * 2 ^ 11) ≤ 2 ^ 52 * (2 ^ 11 - 1)
  have word := pack_double_le b
  rw [BitVec.toNat_ofNat]
  omega

theorem isNaN_eq_false_iff {x : UnpackedFloat} : x.isNaN = false ↔ x ≠ .notANumber := by
  cases x <;> simp [UnpackedFloat.isNaN]

/-- A single that is a number is one as a double. -/
theorem unpack_widen_ne {x : Float32} (number : x.toModel.unpack ≠ .notANumber) :
    (widen x).toModel.unpack ≠ .notANumber := by
  rw [widen]
  split
  · exact unpack_toFloat_ne _
  · have isNumber : x.isNaN = false := by
      change x.toModel.unpack.isNaN = false
      exact isNaN_eq_false_iff.mpr number
    rw [isNumber, if_neg Bool.false_ne_true]
    have negative : (-1.0 / 0.0 : Float).toModel.unpack = .infinity .negative := rfl
    have positive : (1.0 / 0.0 : Float).toModel.unpack = .infinity .positive := rfl
    split
    · rw [negative]
      exact nofun
    · rw [positive]
      exact nofun

theorem unpack_widen_of_zero {x : Float32} {s : UnpackedFloat.Sign}
    (zero : x.toModel.unpack = .zero s) : (widen x).toModel.unpack = .zero s := by
  have value : widen x = (⟨isNegative s, 0, -149⟩ : Binary).toFloat := by
    rw [widen, ofFloat32?_eq, zero]
    rfl
  rw [value]
  cases s <;> rfl

end Handoff.Decimal
