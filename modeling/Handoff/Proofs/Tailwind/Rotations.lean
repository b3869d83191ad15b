import Handoff.Proofs.Decimal.Distances
import Handoff.Proofs.Decimal.Numerals
import Handoff.Tailwind.Utility

/-!
Which classes rotations get.

There is a class for every step of the scale, in either direction, and for any number of degrees in
brackets (`IsRotationClass`).  An angle less than a hundredth off a step is written without brackets,
with two places of its own.  So it has the class of the step if it is rounded to it, and otherwise a
class that does not exist (`isRotationClass_rotation_iff`).  The main statement is
`rotationWritten_of_value`.
-/

namespace Handoff.Tailwind

open Decimal

/-- The steps of rotations, in degrees. -/
def rotationSteps : List ℕ := rotationScale.filterMap whole?

/-- The classes of rotations: those of steps, and numbers of degrees in brackets. -/
def IsRotationClass (text : String) : Prop :=
  (∃ step ∈ rotationScale, text = "rotate-" ++ plain step ∨ text = "-rotate-" ++ plain step) ∨
    ∃ number q, denoted? number = some q ∧ text = "rotate-[" ++ number ++ "deg]"

/-- How far an angle is from a step in its direction. -/
def offBy (d : ℚ) (n : ℕ) : ℚ := |n - abs d|

/-- The stem of a rotation with its hyphen. -/
def rotationStem (d : ℚ) : String := if d < 0 then "-rotate-" else "rotate-"

/-! ## Steps -/

theorem exists_rotationStep {step : Float} (member : step ∈ rotationScale) :
    ∃ n ∈ rotationSteps, HasValue step n := by
  have whole : ∀ step ∈ rotationScale, (whole? step).isSome = true := by decide +kernel
  obtain ⟨n, value⟩ := Option.isSome_iff_exists.mp (whole step member)
  exact ⟨n, List.mem_filterMap.mpr ⟨step, member, value⟩, hasValue_of_whole? value⟩

theorem exists_rotationScale {n : ℕ} (member : n ∈ rotationSteps) :
    ∃ step ∈ rotationScale, HasValue step n := by
  obtain ⟨step, among, value⟩ := List.mem_filterMap.mp member
  exact ⟨step, among, hasValue_of_whole? value⟩

theorem rotationStep_le {n : ℕ} (member : n ∈ rotationSteps) : n ≤ 2 ^ 52 := by
  have bounds : ∀ n ∈ rotationSteps, n ≤ 2 ^ 52 := by decide +kernel
  exact bounds n member

section

variable {degrees : Float} {d : ℚ}

theorem rotation_any_iff (value : HasValue degrees d) :
    (rotationScale.any fun r => (r - degrees.abs).abs < 0.01) = true ↔
      ∃ n ∈ rotationSteps, offBy d n < 1 / 100 := by
  have near {step : Float} {n : ℕ} (member : n ∈ rotationSteps) (whole : HasValue step n) :=
    distance_lt_hundredth_iff whole value.abs (rotationStep_le member)
  rw [List.any_eq_true]
  constructor
  · rintro ⟨step, member, close⟩
    obtain ⟨n, among, whole⟩ := exists_rotationStep member
    exact ⟨n, among, (near among whole).mp (of_decide_eq_true close)⟩
  · rintro ⟨n, among, close⟩
    obtain ⟨step, member, whole⟩ := exists_rotationScale among
    exact ⟨step, member, decide_eq_true ((near among whole).mpr close)⟩

/-- An angle near a step is written without brackets. -/
theorem text_rotation_near (value : HasValue degrees d)
    (near : ∃ n ∈ rotationSteps, offBy d n < 1 / 100) :
    (rotation degrees).text = rotationStem d ++ plain degrees.abs := by
  have steps := (rotation_any_iff value).mpr near
  have sign := value.lt_zero_iff
  rw [rotation, rotationStem]
  simp only [steps, if_true, sign]
  split <;> rfl

/-- Any other angle is written in brackets. -/
theorem text_rotation_far (value : HasValue degrees d)
    (far : ¬∃ n ∈ rotationSteps, offBy d n < 1 / 100) :
    (rotation degrees).text = "rotate-[" ++ plain degrees ++ "deg]" := by
  have steps := Bool.eq_false_iff.mpr ((rotation_any_iff value).not.mpr far)
  have opening : "rotate-[" = "rotate" ++ "-" ++ "[" := by decide
  rw [rotation]
  simp only [steps, Bool.false_eq_true, if_false]
  rw [opening]
  simp only [Utility.named, Utility.text, Suffix.after, String.append_assoc]

/-! ## Classes -/

/-- No numeral starts with a bracket. -/
theorem denoted?_bracket (text : String) : denoted? ("[" ++ text) = none := by
  have chars : ("[" ++ text).toList = '[' :: text.toList := String.toList_append
  rw [denoted?, chars, Spelling.ofChars?]
  have digits : ('[' :: text.toList).takeWhile Char.isDigit = [] := rfl
  simp [digits, Spelling.IsNumeral]

theorem plain_ne_bracket (value : HasValue degrees d) (text : String) :
    plain degrees ≠ "[" ++ text := by
  obtain ⟨q, -, read⟩ := exists_denoted?_atMost value 2
  intro same
  rw [← plain, same, denoted?_bracket] at read
  cases read

/-- A number is written as a whole number just if it is rounded to it. -/
theorem plain_eq_plain_iff {step : Float} {n : ℕ} (value : HasValue degrees d)
    (whole : HasValue step n) : plain degrees = plain step ↔ RoundsTo 2 d n := by
  refine (atMost_eq_iff value whole 2).trans ⟨?_, fun rounded => ⟨n, rounded, .natCast 2 n⟩⟩
  rintro ⟨t, rounded, own⟩
  rwa [(RoundsTo.natCast 2 n).unique own]

/-- Steps are whole numbers, so an angle is near one of them at most. -/
theorem eq_of_offBy {m n : ℕ} (hm : offBy d m ≤ 1 / 2) (hn : offBy d n < 1 / 2) : m = n := by
  have sides := abs_sub_le (m : ℚ) (abs d) n
  rw [abs_sub_comm (abs d)] at sides
  rw [offBy] at hm hn
  have near : |(m : ℚ) - n| < 1 := by linarith
  have whole : |(m : ℤ) - n| < 1 := by exact_mod_cast near
  rw [Int.abs_lt_one_iff] at whole
  omega

/-- What follows the stem of a class without brackets. -/
theorem eq_of_rotationStem_append {number word : String}
    (same : rotationStem d ++ number = "rotate-" ++ word ∨
      rotationStem d ++ number = "-rotate-" ++ word) : number = word := by
  have differ (text text' : String) : "rotate-" ++ text ≠ "-rotate-" ++ text' := by
    intro same
    have first := congrArg (fun t : String => t.toList.head?) same
    rw [String.toList_append, String.toList_append] at first
    exact absurd first (by simp)
  rw [rotationStem] at same
  split at same
  · rcases same with same | same
    · exact absurd same.symm (differ _ _)
    · exact String.append_right_inj _ |>.mp same
  · rcases same with same | same
    · exact String.append_right_inj _ |>.mp same
    · exact absurd same (differ _ _)

/-- The class of an angle exists if it is near no step or is rounded to the one that it is near. -/
theorem isRotationClass_rotation_iff (value : HasValue degrees d) :
    IsRotationClass (rotation degrees).text ↔
      ∀ n ∈ rotationSteps, offBy d n < 1 / 100 → RoundsTo 2 (abs d) n := by
  by_cases near : ∃ n ∈ rotationSteps, offBy d n < 1 / 100
  · rw [text_rotation_near value near]
    obtain ⟨n, among, close⟩ := near
    constructor
    · rintro (⟨step, member, same⟩ | ⟨number, q, -, same⟩) k hk closer
      · obtain ⟨m, -, whole⟩ := exists_rotationStep member
        have rounded := (plain_eq_plain_iff value.abs whole).mp (eq_of_rotationStem_append same)
        have off : offBy d m ≤ 1 / 2 := rounded.abs_sub_le.trans (by norm_num)
        rwa [← eq_of_offBy off (closer.trans (by norm_num))]
      · have opening : "rotate-[" ++ number ++ "deg]" = "rotate-" ++ ("[" ++ (number ++ "deg]")) := by
          have split : "rotate-[" = "rotate-" ++ "[" := by decide
          rw [split]
          simp only [String.append_assoc]
        rw [opening] at same
        exact absurd (eq_of_rotationStem_append (.inl same)) (plain_ne_bracket value.abs _)
    · intro rounded
      obtain ⟨step, member, whole⟩ := exists_rotationScale among
      have same := (plain_eq_plain_iff value.abs whole).mpr (rounded n among close)
      refine .inl ⟨step, member, ?_⟩
      rw [same, rotationStem]
      split
      · exact .inr rfl
      · exact .inl rfl
  · obtain ⟨q, -, read⟩ := exists_denoted?_atMost value 2
    refine iff_of_true ?_ fun n among close => absurd ⟨n, among, close⟩ near
    exact .inr ⟨plain degrees, q, read, text_rotation_far value near⟩

/-- What an angle near a step is rounded to is the step or a hundredth off. -/
theorem eq_or_abs_sub_of_rounded {n : ℕ} {q : ℚ} (close : offBy d n < 1 / 100)
    (rounded : RoundsTo 2 (abs d) q) : q = n ∨ |q - n| = 1 / 100 := by
  have moved := rounded.abs_sub_le
  obtain ⟨k, -, rfl⟩ := rounded
  have sides := abs_sub_le ((k : ℚ) / 10 ^ 2) (abs d) n
  rw [abs_sub_comm (abs d)] at sides
  rw [offBy] at close
  have scaled : |((k - 100 * n : ℤ) : ℚ)| = 100 * |(k : ℚ) / 10 ^ 2 - n| := by
    rw [← abs_of_pos (show (0 : ℚ) < 100 by norm_num), ← abs_mul]
    congr 1
    push_cast
    norm_num
    ring
  have steps : |(k - 100 * n : ℤ)| < 2 := by
    have near : |((k - 100 * n : ℤ) : ℚ)| < 2 := by
      rw [scaled]
      norm_num at moved sides
      linarith
    exact_mod_cast near
  rcases eq_or_ne (k - 100 * n) 0 with zero | other
  · left
    rw [zero, Int.cast_zero, abs_zero] at scaled
    exact sub_eq_zero.mp (abs_eq_zero.mp (by linarith))
  · right
    have one : |(k - 100 * n : ℤ)| = 1 := by
      have := abs_pos.mpr other
      omega
    rw [← Int.cast_abs, one, Int.cast_one] at scaled
    linarith

/-- How a rotation is written. -/
structure RotationWritten (degrees : Float) (d : ℚ) : Prop where
  /-- Its class exists, unless it is near a step and not rounded to it. -/
  class_iff : IsRotationClass (rotation degrees).text ↔
    ∀ n ∈ rotationSteps, offBy d n < 1 / 100 → RoundsTo 2 (abs d) n
  /-- Near a step it is written without brackets, as the step or as a hundredth more or less. -/
  near : ∀ n ∈ rotationSteps, offBy d n < 1 / 100 →
    (rotation degrees).text = rotationStem d ++ plain degrees.abs ∧
    ∃ q, denoted? (plain degrees.abs) = some q ∧ RoundsTo 2 (abs d) q ∧
      (q = n ∨ |q - n| = 1 / 100)
  /-- Elsewhere it is written in brackets, rounded to two places. -/
  far : (∀ n ∈ rotationSteps, 1 / 100 ≤ offBy d n) →
    (rotation degrees).text = "rotate-[" ++ plain degrees ++ "deg]" ∧
    ∃ q, denoted? (plain degrees) = some q ∧ RoundsTo 2 d q

/-- Every finite angle is written so. -/
theorem rotationWritten_of_value (value : HasValue degrees d) : RotationWritten degrees d where
  class_iff := isRotationClass_rotation_iff value
  near n among close := by
    obtain ⟨q, rounded, read⟩ := exists_denoted?_atMost value.abs 2
    exact ⟨text_rotation_near value ⟨n, among, close⟩, q, read, rounded,
      eq_or_abs_sub_of_rounded close rounded⟩
  far apart := by
    obtain ⟨q, rounded, read⟩ := exists_denoted?_atMost value 2
    refine ⟨text_rotation_far value ?_, q, read, rounded⟩
    rintro ⟨n, among, close⟩
    exact (apart n among).not_gt close

end

/-- An angle that is rounded to a step. -/
theorem hasValue_rounded_angle : HasValue (-45.00390625) (-11521 / 256) := by
  refine ⟨⟨true, 6333736731803648, -47⟩, by decide +kernel, ?_⟩
  norm_num [Binary.value, Binary.magnitude, zpow_neg]

theorem rotationWritten_rounded : HasValue (-45.00390625) (-11521 / 256) ∧
    RotationWritten (-45.00390625) (-11521 / 256) :=
  ⟨hasValue_rounded_angle, rotationWritten_of_value hasValue_rounded_angle⟩

/-- An angle less than a hundredth off a step that is not rounded to it gets a class that does not
exist. -/
theorem not_isRotationClass : ¬IsRotationClass (rotation (-45.0078125)).text := by
  have value : HasValue (-45.0078125) (-5761 / 128) := by
    refine ⟨⟨true, 6334286487617536, -47⟩, by decide +kernel, ?_⟩
    norm_num [Binary.value, Binary.magnitude, zpow_neg]
  rw [isRotationClass_rotation_iff value]
  intro rounds
  have among : 45 ∈ rotationSteps := by decide +kernel
  have close : offBy (-5761 / 128) 45 < 1 / 100 := by
    rw [offBy, abs_of_neg (by norm_num)]
    norm_num [abs_lt]
  have moved := (rounds 45 among close).abs_sub_le
  rw [abs_of_neg (by norm_num)] at moved
  norm_num [abs_le] at moved

end Handoff.Tailwind
