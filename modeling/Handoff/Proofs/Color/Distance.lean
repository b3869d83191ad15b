import Handoff.Color.Perceptual
import Handoff.Proofs.Color.Hex
import Handoff.Proofs.Decimal.Powers
import Handoff.Proofs.Decimal.Vanishing

/-!
Distances of colors.

The coordinates of a color that is given by bytes are numbers of a moderate size
(`bounded_lab_ofBytes`), so the distance of two such colors is a number and not negative.  It is
zero from a color to itself, and it is not if the lightnesses are different numbers of small steps.
-/

namespace Handoff

open Decimal (IsBelow IsAtLeast IsNonnegative IsPositive IsUnits steps? isPositive_square_sub
  powerUnits? rounded? unitsOf)
open Float.Model (UnpackedFloat)

namespace Lab

/-- Coordinates that are numbers of a moderate size. -/
structure Bounded (p : Lab) : Prop where
  l : IsBelow 27 p.l
  a : IsBelow 27 p.a
  b : IsBelow 27 p.b

section

variable {p q : Lab}

/-- The distance of two points is a number and not negative. -/
theorem isNonnegative_distance (hp : p.Bounded) (hq : q.Bounded) :
    IsNonnegative (p.distance q) := by
  have square {x y : Float32} (hx : IsBelow 27 x) (hy : IsBelow 27 y) :
      IsNonnegative ((x - y) * (x - y)) :=
    .square (hx.sub hy (by decide) (by decide)).ne_notANumber
  exact (((square hp.l hq.l).add (square hp.a hq.a)).add (square hp.b hq.b)).sqrt

theorem distance_self (hp : p.Bounded) : p.distance p = 0.0 := by
  rw [distance, hp.l.sub_self, hp.a.sub_self, hp.b.sub_self]
  rfl

/-- Points of different lightness are apart. -/
theorem isPositive_distance (hp : p.Bounded) (hq : q.Bounded) {n n' : ℕ}
    (steps : steps? p.l.toModel.unpack = some n) (steps' : steps? q.l.toModel.unpack = some n')
    (differ : n ≠ n') : IsPositive (p.distance q) := by
  have lightness := isPositive_square_sub hp.l hq.l (by decide) (by decide) steps steps' differ
  have square {x y : Float32} (hx : IsBelow 27 x) (hy : IsBelow 27 y) :
      IsNonnegative ((x - y) * (x - y)) :=
    .square (hx.sub hy (by decide) (by decide)).ne_notANumber
  exact ((lightness.add (square hp.a hq.a)).add (square hp.b hq.b)).sqrt

end

/-- Where the companding function takes a power. -/
theorem unpack_threshold : ((6.0 / 29.0) * (6.0 / 29.0) * (6.0 / 29.0) : Float32).toModel.unpack =
    .finite .positive 9509543 (-30) (by decide) := by
  rfl

theorem isBelow_compand {t : Float32} (ht : IsBelow 9 t) : IsBelow 15 (compand t) := by
  rw [compand]
  split
  case isTrue above =>
    have positive : ∃ m e h, t.toModel.unpack = .finite .positive m e h := by
      have compared := (Decimal.single_lt_iff _ _).mp above
      rw [unpack_threshold] at compared
      rw [IsBelow] at ht
      generalize t.toModel.unpack = u at ht compared
      rcases u with _ | _ | _ | ⟨_ | _, m, e, h⟩
      case finite.positive => exact ⟨m, e, h, rfl⟩
      all_goals first | cases compared | exact ht.elim
    obtain ⟨m, e, h, unpacked⟩ := positive
    have third : Decimal.Binary.ofFloat32? (1.0 / 3.0) = some ⟨false, 11184811, -25⟩ := by
      decide +kernel
    exact (Decimal.isBelow_power (b := 4) ht unpacked third (by decide) (by decide) (by decide)
      (by decide)).mono (by decide)
  case isFalse =>
    have slope : IsAtLeast (-3) (3.0 * (6.0 / 29.0) * (6.0 / 29.0)) := by decide +kernel
    have offset : IsBelow 13 (4.0 / 29.0) := by decide +kernel
    exact (ht.div slope (by decide) (by decide)).add offset (by decide) (by decide)

end Lab

namespace Color

/-- A channel up to one in linear light, in units. -/
def linearUnits? (a : ℕ) : Option ℕ :=
  if a ≤ unitsOf 0.04045 then rounded? (a <<< 149) (unitsOf 12.92)
  else do
    let raised ← rounded? (a + unitsOf 0.055) 1
    let base ← rounded? (raised <<< 149) (unitsOf 1.055)
    powerUnits? base ⟨false, 10066330, -22⟩

theorem isUnits_linear {c : Float32} {a u : ℕ} (hc : IsUnits c a) (le : a ≤ 1 <<< 149)
    (known : linearUnits? a = some u) : IsUnits (linear c) u := by
  have literals : IsUnits 0.04045 (unitsOf 0.04045) ∧ IsUnits 12.92 (unitsOf 12.92) ∧
      IsUnits 0.055 (unitsOf 0.055) ∧ IsUnits 1.055 (unitsOf 1.055) := by decide +kernel
  obtain ⟨threshold, slope, offset, scale⟩ := literals
  have exponent : Decimal.Binary.ofFloat32? 2.4 = some ⟨false, 10066330, -22⟩ := by decide +kernel
  rw [linearUnits?] at known
  rw [linear, clampUnit32_of_isUnits hc le]
  split at known
  · rename_i low
    rw [if_pos ((hc.le_iff threshold).mpr low)]
    exact hc.div slope known
  · rename_i high
    obtain ⟨raised, hraised, known⟩ := Option.bind_eq_some_iff.mp known
    obtain ⟨base, hbase, known⟩ := Option.bind_eq_some_iff.mp known
    rw [if_neg fun low => high ((hc.le_iff threshold).mp low)]
    exact ((hc.add offset hraised).div scale hbase).power exponent known

/-- A byte in linear light, in units. -/
def byteUnits? (n : ℕ) : Option ℕ := do
  let a ← channelUnits? n
  if a ≤ 1 <<< 149 then linearUnits? a else none

theorem isUnits_linear_channel {n u : ℕ} (small : n < 256) (known : byteUnits? n = some u) :
    IsUnits (linear (channel n)) u := by
  rw [byteUnits?] at known
  obtain ⟨a, ha, known⟩ := Option.bind_eq_some_iff.mp known
  split at known
  · exact isUnits_linear (isUnits_channel small ha) ‹_› known
  · cases known

/-- A byte in linear light. -/
theorem isBelow_linear_channel {n : ℕ} (small : n < 256) : IsBelow 1 (linear (channel n)) := by
  have bounded := (by decide +kernel :
    ∀ k : Fin 256, (byteUnits? k).any (Nat.blt · (1 <<< 150)) = true) ⟨n, small⟩
  obtain ⟨u, known, bound⟩ := (Option.any_eq_true _ _).mp bounded
  exact (isUnits_linear_channel small known).isBelow (by decide) (Nat.blt_eq.mp bound)

theorem isBelow_weighted {r g b u v w : Float32} (hr : IsBelow 1 r) (hg : IsBelow 1 g)
    (hb : IsBelow 1 b) (hu : IsBelow 0 u) (hv : IsBelow 0 v) (hw : IsBelow 0 w) :
    IsBelow 14 ((r * u + g * v + b * w) * 100.0) := by
  have term {x c : Float32} (hx : IsBelow 1 x) (hc : IsBelow 0 c) : IsBelow 2 (x * c) :=
    hx.mul hc (by decide) (by decide)
  have pair := (term hr hu).add (term hg hv) (by decide) (by decide)
  have whole := pair.add ((term hb hw).mono (by decide)) (by decide) (by decide)
  exact whole.mul (show IsBelow 7 100.0 by decide +kernel) (by decide) (by decide)

theorem bounded_lab_ofBytes {r g b : ℕ} (red : r < 256) (green : g < 256) (blue : b < 256) :
    (ofBytes r g b).lab.Bounded := by
  have hr := isBelow_linear_channel red
  have hg := isBelow_linear_channel green
  have hb := isBelow_linear_channel blue
  have weights : IsBelow 0 0.4124564 ∧ IsBelow 0 0.3575761 ∧ IsBelow 0 0.1804375 ∧
      IsBelow 0 0.2126729 ∧ IsBelow 0 0.7151522 ∧ IsBelow 0 0.0721750 ∧
      IsBelow 0 0.0193339 ∧ IsBelow 0 0.1191920 ∧ IsBelow 0 0.9503041 := by decide +kernel
  obtain ⟨xr, xg, xb, yr, yg, yb, zr, zg, zb⟩ := weights
  have white : IsAtLeast 6 95.047 ∧ IsAtLeast 6 100.0 ∧ IsAtLeast 6 108.883 := by decide +kernel
  have x := Lab.isBelow_compand
    ((isBelow_weighted hr hg hb xr xg xb).div white.1 (by decide) (by decide))
  have y := Lab.isBelow_compand
    ((isBelow_weighted hr hg hb yr yg yb).div white.2.1 (by decide) (by decide))
  have z := Lab.isBelow_compand
    ((isBelow_weighted hr hg hb zr zg zb).div white.2.2 (by decide) (by decide))
  have factors : IsBelow 7 116.0 ∧ IsBelow 23 16.0 ∧ IsBelow 9 500.0 ∧ IsBelow 8 200.0 := by
    decide +kernel
  obtain ⟨lightness, offset, reds, blues⟩ := factors
  constructor
  case l =>
    exact ((lightness.mul y (by decide) (by decide)).sub offset (by decide) (by decide)).mono
      (by decide)
  case a => exact reds.mul (x.sub y (by decide) (by decide)) (by decide) (by decide)
  case b =>
    exact (blues.mul (y.sub z (by decide) (by decide)) (by decide) (by decide)).mono (by decide)

/-- The opaque color of the bytes of a color. -/
def rounded (c : Color) : Color := ofBytes c.bytes.r c.bytes.g c.bytes.b

theorem bounded_lab_rounded (c : Color) : c.rounded.lab.Bounded :=
  bounded_lab_ofBytes (byte_lt c.r) (byte_lt c.g) (byte_lt c.b)

end Color

end Handoff
