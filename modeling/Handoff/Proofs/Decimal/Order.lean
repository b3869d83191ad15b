import Mathlib.Data.Prod.Lex
import Mathlib.Data.Int.Order.Basic
import Handoff.Decimal.Binary

/-!
Equality and order of floats.

Floats are compared as unpacked numbers.  Equality disregards the sign of zero, and nothing equals
NaN (`beq_iff`).  So it is symmetric and transitive on all floats, and reflexive on those that are
finite.  The same holds of floats that may be missing.

A number has a `rank`: its sign, then its exponent, then its mantissa.  Numbers are compared by
their ranks (`compare_eq_rank`), so all but NaN are in a linear order, in which the two zeros
are one.  This holds for floats of both precisions.
-/

namespace Handoff.Decimal

open Float.Model (UnpackedFloat)

/-! ## Equality -/

/-- A number without the sign of zero. -/
def unsignedZero : UnpackedFloat → UnpackedFloat
  | .zero _ => .zero .positive
  | x => x

/-- Numbers of one sign are compared by their exponents and mantissas. -/
theorem compare_then_eq_iff {m m' : Nat} {e e' : Int} (sign : UnpackedFloat.Sign) (h : 0 < m)
    (h' : 0 < m') : (compare e e').then (compare m m') = .eq ↔
      UnpackedFloat.finite sign m e h = .finite sign m' e' h' := by
  rw [Ordering.then_eq_eq, Std.compare_eq_iff_eq, Std.compare_eq_iff_eq]
  constructor
  · rintro ⟨rfl, rfl⟩
    rfl
  · rintro ⟨⟩
    exact ⟨rfl, rfl⟩

theorem compare_eq_iff (x y : UnpackedFloat) :
    x.compare y = some .eq ↔ unsignedZero x = unsignedZero y ∧ x ≠ .notANumber := by
  rcases x with (_ | _) | _ | _ | ⟨_ | _, m, e, h⟩ <;>
    rcases y with (_ | _) | _ | _ | ⟨_ | _, m', e', h'⟩
  case finite.negative.finite.negative =>
    refine Iff.trans ?_ (and_iff_left nofun).symm
    exact Option.some_inj.trans (Ordering.swap_eq_eq.trans (compare_then_eq_iff .negative h h'))
  case finite.positive.finite.positive =>
    refine Iff.trans ?_ (and_iff_left nofun).symm
    exact Option.some_inj.trans (compare_then_eq_iff .positive h h')
  -- No two of the others are equal, but for zeros and for an infinity and itself.
  all_goals refine ⟨fun same => ?_, fun ⟨same, number⟩ => ?_⟩
  all_goals first | rfl | exact absurd rfl number | cases same
  all_goals exact ⟨rfl, fun missing => by cases missing⟩

theorem beq_iff {a b : Float} :
    (a == b) = true ↔
      unsignedZero a.toModel.unpack = unsignedZero b.toModel.unpack ∧
        a.toModel.unpack ≠ .notANumber := by
  rw [← compare_eq_iff]
  exact beq_iff_eq (a := a.toModel.unpack.compare b.toModel.unpack) (b := some .eq)

/-- Equality of floats is symmetric and transitive. -/
instance instPartialEquivBEqFloat : PartialEquivBEq Float where
  symm {a b} same := by
    obtain ⟨number, notNaN⟩ := beq_iff.mp same
    refine beq_iff.mpr ⟨number.symm, fun missing => notNaN ?_⟩
    rw [missing] at number
    cases unpacked : a.toModel.unpack <;> rw [unpacked] at number <;> first | rfl | cases number
  trans {a b c} first second := by
    obtain ⟨number, notNaN⟩ := beq_iff.mp first
    exact beq_iff.mpr ⟨number.trans (beq_iff.mp second).1, notNaN⟩

instance instPartialEquivBEqOptionFloat : PartialEquivBEq (Option Float) where
  symm {a b} same := by
    cases a <;> cases b
    case some.some => exact PartialEquivBEq.symm (α := Float) same
    all_goals exact same
  trans {a b c} first second := by
    cases a <;> cases b <;> cases c
    case some.some.some => exact PartialEquivBEq.trans (α := Float) first second
    all_goals first | exact first | exact second | cases first

/-- A finite float equals itself. -/
theorem beq_self_of_isFinite {a : Float} (finite : a.isFinite = true) : (a == a) = true := by
  refine beq_iff.mpr ⟨rfl, fun missing => ?_⟩
  have unpacked : a.toModel.unpack.isFinite = true := finite
  rw [missing] at unpacked
  cases unpacked

/-! ## Ranks -/

/-- Where a number stands among the others. -/
def rank : UnpackedFloat → ℤ ×ₗ ℤ ×ₗ ℤ
  | .infinity .negative => toLex (-2, toLex (0, 0))
  | .finite .negative m e _ => toLex (-1, toLex (-e, -m))
  | .zero _ | .notANumber => toLex (0, toLex (0, 0))
  | .finite .positive m e _ => toLex (1, toLex (e, m))
  | .infinity .positive => toLex (2, toLex (0, 0))

theorem compare_toLex (a b c d m n : ℤ) :
    compare (toLex (a, toLex (b, m)) : ℤ ×ₗ ℤ ×ₗ ℤ) (toLex (c, toLex (d, n))) =
      (compare a c).then ((compare b d).then (compare m n)) := by
  rw [Prod.Lex.compare_def]
  rfl

theorem compare_neg (a b : ℤ) : compare (-a) (-b) = (compare a b).swap := by
  rcases Int.lt_trichotomy a b with less | rfl | more
  · rw [Int.compare_eq_lt.mpr less, Int.compare_eq_gt.mpr (Int.neg_lt_neg less)]
    rfl
  · rw [Int.compare_eq_eq.mpr rfl, Int.compare_eq_eq.mpr rfl]
    rfl
  · rw [Int.compare_eq_gt.mpr more, Int.compare_eq_lt.mpr (Int.neg_lt_neg more)]
    rfl

theorem compare_natCast (m n : ℕ) : compare (m : ℤ) (n : ℤ) = compare m n := by
  rcases Nat.lt_trichotomy m n with less | rfl | more
  · rw [Nat.compare_eq_lt.mpr less, Int.compare_eq_lt.mpr (Int.ofNat_lt.mpr less)]
  · rw [Nat.compare_eq_eq.mpr rfl, Int.compare_eq_eq.mpr rfl]
  · rw [Nat.compare_eq_gt.mpr more, Int.compare_eq_gt.mpr (Int.ofNat_lt.mpr more)]

/-- Numbers are compared by their ranks. -/
theorem compare_eq_rank {x y : UnpackedFloat} (hx : x ≠ .notANumber) (hy : y ≠ .notANumber) :
    x.compare y = some (compare (rank x) (rank y)) := by
  rcases x with (_ | _) | _ | (_ | _) | ⟨_ | _, m, e, h⟩ <;>
    rcases y with (_ | _) | _ | (_ | _) | ⟨_ | _, m', e', h'⟩
  case finite.negative.finite.negative =>
    change _ = some (compare (toLex (-1, toLex (-e, -(m : ℤ)))) (toLex (-1, toLex (-e', -(m' : ℤ)))))
    rw [compare_toLex, compare_neg e e', compare_neg (m : ℤ) m', compare_natCast,
      ← Ordering.swap_then]
    rfl
  case finite.positive.finite.positive =>
    change _ = some (compare (toLex (1, toLex (e, (m : ℤ)))) (toLex (1, toLex (e', (m' : ℤ)))))
    rw [compare_toLex, compare_natCast]
    rfl
  all_goals first | exact absurd rfl hx | exact absurd rfl hy | rfl

theorem unpacked_lt_iff {x y : UnpackedFloat} (hx : x ≠ .notANumber) (hy : y ≠ .notANumber) :
    x.lt y = true ↔ rank x < rank y := by
  rw [UnpackedFloat.lt, compare_eq_rank hx hy, beq_iff_eq, Option.some_inj, compare_lt_iff_lt]

theorem unpacked_le_iff {x y : UnpackedFloat} (hx : x ≠ .notANumber) (hy : y ≠ .notANumber) :
    x.le y = true ↔ rank x ≤ rank y := by
  rw [UnpackedFloat.le, compare_eq_rank hx hy, Option.any_some, Ordering.isLE_iff_ne_gt,
    compare_gt_iff_gt, not_lt]

/-- Only numbers are compared. -/
theorem ne_notANumber_of_le {x y : UnpackedFloat} (le : x.le y = true) :
    x ≠ .notANumber ∧ y ≠ .notANumber := by
  constructor
  · rintro rfl
    cases le
  · rintro rfl
    rcases x with (_ | _) | _ | _ | ⟨_ | _, _, _, _⟩ <;> cases le

/-! ## Comparisons -/

theorem le_iff (x y : Float) : x ≤ y ↔ x.toModel.unpack.le y.toModel.unpack = true :=
  decide_eq_true_iff

theorem lt_iff (x y : Float) : x < y ↔ x.toModel.unpack.lt y.toModel.unpack = true :=
  decide_eq_true_iff

theorem single_lt_iff (x y : Float32) : x < y ↔ x.toModel.unpack.lt y.toModel.unpack = true :=
  decide_eq_true_iff

theorem single_lt_iff_rank {x y : Float32} (hx : x.toModel.unpack ≠ .notANumber)
    (hy : y.toModel.unpack ≠ .notANumber) :
    x < y ↔ rank x.toModel.unpack < rank y.toModel.unpack :=
  (single_lt_iff x y).trans (unpacked_lt_iff hx hy)

theorem single_le_iff_rank {x y : Float32} (hx : x.toModel.unpack ≠ .notANumber)
    (hy : y.toModel.unpack ≠ .notANumber) :
    x ≤ y ↔ rank x.toModel.unpack ≤ rank y.toModel.unpack :=
  decide_eq_true_iff.trans (unpacked_le_iff hx hy)

theorem lt_iff_rank {x y : Float} (hx : x.toModel.unpack ≠ .notANumber)
    (hy : y.toModel.unpack ≠ .notANumber) :
    x < y ↔ rank x.toModel.unpack < rank y.toModel.unpack :=
  (lt_iff x y).trans (unpacked_lt_iff hx hy)

theorem le_iff_rank {x y : Float} (hx : x.toModel.unpack ≠ .notANumber)
    (hy : y.toModel.unpack ≠ .notANumber) :
    x ≤ y ↔ rank x.toModel.unpack ≤ rank y.toModel.unpack :=
  (le_iff x y).trans (unpacked_le_iff hx hy)

end Handoff.Decimal
