import Handoff.Proofs.Decimal.Thresholds
import Handoff.Proofs.Distinct
import Handoff.Tailwind.Scale

/-!
Which distances have the class of zero.

A distance takes the step of zero if it is less than a hundredth (`distanceWord_eq_zero_iff`).
Rounding adds nothing to it: a step is only rounded to within a share of the distance, and zero is
the whole distance away (`not_near_zero`).
-/

namespace Handoff.Tailwind

open Float.Model (UnpackedFloat)
open Decimal (unpack_abs unpack_pack unpack_zero_sub unpack_abs_zero_sub positive_cases)

/-! ## The choice of a step -/

theorem mem_of_nearestStep? {scale : List Step} {v : Float} {step : Step}
    (nearest : nearestStep? scale v = some step) : step ∈ scale := by
  refine mem_of_best id (fun best next chosen taken => ?_) nearest
  unfold nearerStep at taken
  split at taken
  · exact .inr (Option.some.inj taken).symm
  · split at taken
    · exact .inr (Option.some.inj taken).symm
    · exact .inl taken

/-- A length becomes a step that is close to it, one that is near enough, or itself. -/
theorem scaled_cases (rounding : Bool) (scale : List Step) (v : Float) :
    (∃ step ∈ scale, scaled rounding scale v = step.toSuffix ∧
      (step.distance v < stepTolerance ∨ ((step.pixels - v) / v).abs ≤ roundingTolerance)) ∨
    scaled rounding scale v = .length v := by
  unfold scaled
  split
  · rename_i step found
    have close := List.find?_some found
    exact .inl ⟨step, List.mem_of_find?_eq_some found, rfl, .inl (of_decide_eq_true close)⟩
  · split
    · rename_i step rounded
      split at rounded
      · obtain ⟨nearest, near⟩ := Option.filter_eq_some_iff.mp rounded
        rw [Bool.and_eq_true, decide_eq_true_eq] at near
        exact .inl ⟨step, mem_of_nearestStep? nearest, rfl, .inr near.2⟩
      · cases rounded
    · exact .inr rfl

theorem scaled_of_first {rounding : Bool} {first : Step} {rest : List Step} {v : Float}
    (close : first.distance v < stepTolerance) :
    scaled rounding (first :: rest) v = first.toSuffix := by
  rw [scaled, List.find?_cons_of_pos]
  exact decide_eq_true close

/-! ## The step of zero -/

theorem div_neg_self {m : Nat} {e : Int} (h : 0 < m) :
    UnpackedFloat.div .binary64 (.finite .negative m e h) (.finite .positive m e h) =
      .finite .negative 4503599627370496 (-52) (by decide) := by
  have core : UnpackedFloat.divCore .binary64 m e m e = (2 ^ 53, -53, .exact) := by
    have target : Float.Model.Format.binary64.targetExponent 0 = -53 := by decide
    have least : min (0 : Int) (-53) = -53 := by decide
    simp only [UnpackedFloat.divCore, Int.sub_self, target, least, Nat.shiftLeft_eq,
      Nat.mul_div_cancel_left _ h, Nat.mul_mod_right, UnpackedFloat.accuracyOfFraction, if_true]
    rfl
  simp only [UnpackedFloat.div, core]
  rfl

/-- A positive distance is the whole distance away from zero. -/
theorem not_near_zero {v : Float} (positive : 0.0 < v) :
    ¬((0.0 - v) / v).abs ≤ roundingTolerance := by
  have quotient : ((0.0 - v) / v).toModel.unpack =
      .unpack .binary64 (UnpackedFloat.pack .binary64
        (UnpackedFloat.div .binary64 (0.0 - v).toModel.unpack v.toModel.unpack)) := rfl
  rw [Decimal.le_iff, unpack_abs, quotient, unpack_zero_sub]
  rcases positive_cases positive with infinite | ⟨m, e, h, finite⟩
  · rw [infinite]
    decide
  · have opposite : UnpackedFloat.sub .binary64 (.zero .positive) (.finite .positive m e h) =
        .finite .negative m e h := rfl
    rw [finite, opposite, div_neg_self]
    decide +kernel

theorem distance_zero_lt {v : Float} (positive : 0.0 < v) (suffix : String) :
    (Step.mk 0.0 suffix).distance v < stepTolerance ↔ ¬0.01 ≤ v := by
  have same : (0.0 - v).abs.toModel.unpack = v.toModel.unpack := by
    rw [unpack_abs_zero_sub]
    rcases positive_cases positive with infinite | ⟨m, e, h, finite⟩
    · rw [infinite]
      rfl
    · rw [finite]
      rfl
  rw [Step.distance, stepTolerance, Decimal.lt_iff, same, ← Decimal.lt_iff,
    ← Decimal.not_lt_hundredth positive, Decidable.not_not]

theorem toSuffix_spacing {step : Step} (member : step ∈ spacingScale) :
    step.toSuffix = .word step.suffix := by
  have named : ∀ suffix ∈ spacingScale.map Step.suffix, suffix ≠ "" := by decide
  rw [Step.toSuffix, if_neg (named _ (List.mem_map_of_mem member))]

/-- Only the first step of distances is called zero. -/
theorem eq_zero_of_suffix {step : Step} (member : step ∈ spacingScale) (zero : step.suffix = "0") :
    step = ⟨0.0, "0"⟩ := by
  have others : ∀ suffix ∈ (spacingScale.drop 1).map Step.suffix, suffix ≠ "0" := by decide
  rcases List.mem_cons.mp member with first | later
  · exact first
  · exact absurd zero (others _ (List.mem_map_of_mem later))

theorem scaled_spacing_zero (rounding : Bool) {v : Float} (positive : 0.0 < v)
    (small : ¬0.01 ≤ v) : scaled rounding spacingScale v = .word "0" := by
  have first : scaled rounding spacingScale v = (Step.mk 0.0 "0").toSuffix :=
    scaled_of_first ((distance_zero_lt positive "0").mpr small)
  rwa [toSuffix_spacing List.mem_cons_self] at first

/-! ## Suffixes of distances -/

/-- The suffix of a distance as it is written. -/
def distanceWord (rounding : Bool) (v : Float) : String :=
  match scaled rounding spacingScale v with
  | .nothing => ""
  | .word text => text
  | .length pixels => "[" ++ Decimal.plain pixels ++ "px]"

/-- A distance is written as the suffix of a step that is close to it or near enough, or as a
length in brackets. -/
theorem distanceWord_cases (rounding : Bool) (v : Float) :
    (∃ step ∈ spacingScale, distanceWord rounding v = step.suffix ∧
      scaled rounding spacingScale v = .word step.suffix ∧
      (step.distance v < stepTolerance ∨ ((step.pixels - v) / v).abs ≤ roundingTolerance)) ∨
    (distanceWord rounding v = "[" ++ Decimal.plain v ++ "px]" ∧
      scaled rounding spacingScale v = .length v) := by
  unfold distanceWord
  rcases scaled_cases rounding spacingScale v with ⟨step, member, chosen, close⟩ | own
  · rw [toSuffix_spacing member] at chosen
    rw [chosen]
    exact .inl ⟨step, member, rfl, rfl, close⟩
  · rw [own]
    exact .inr ⟨rfl, rfl⟩

/-- Every distance has a class with a suffix. -/
theorem scaled_after (rounding : Bool) (v : Float) (stem : String) :
    (scaled rounding spacingScale v).after stem = stem ++ "-" ++ distanceWord rounding v := by
  rcases distanceWord_cases rounding v with ⟨step, -, written, chosen, -⟩ | ⟨written, own⟩
  · rw [written, chosen]
    rfl
  · have opening : "-[" = "-" ++ "[" := by decide
    rw [written, own, Suffix.after, opening]
    simp only [String.append_assoc]

theorem bracketed_ne {others inside word : String} (bracket : '[' ∉ word.toList) :
    "[" ++ inside ++ others ≠ word := by
  rintro rfl
  simp at bracket

theorem distanceWord_ne_full (rounding : Bool) (v : Float) : distanceWord rounding v ≠ "full" := by
  have others : ∀ suffix ∈ spacingScale.map Step.suffix, suffix ≠ "full" := by decide
  rcases distanceWord_cases rounding v with ⟨step, member, written, -, -⟩ | ⟨written, -⟩
  · rw [written]
    exact others _ (List.mem_map_of_mem member)
  · rw [written]
    exact bracketed_ne (by decide)

/-- A positive distance is written as zero if it is less than a hundredth. -/
theorem distanceWord_eq_zero_iff (rounding : Bool) {v : Float} (positive : 0.0 < v) :
    distanceWord rounding v = "0" ↔ ¬0.01 ≤ v := by
  constructor
  · intro zero large
    rcases distanceWord_cases rounding v with ⟨step, member, written, -, close⟩ | ⟨written, -⟩
    · rw [eq_zero_of_suffix member (written.symm.trans zero)] at close
      rcases close with close | near
      · exact (distance_zero_lt positive "0").mp close large
      · exact not_near_zero positive near
    · exact bracketed_ne (by decide) (written.symm.trans zero)
  · intro small
    rw [distanceWord, scaled_spacing_zero rounding positive small]

end Handoff.Tailwind
