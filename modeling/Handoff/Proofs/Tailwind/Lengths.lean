import Handoff.Proofs.Decimal.Distances
import Handoff.Proofs.Decimal.Numerals
import Handoff.Proofs.Tailwind.Scale

/-!
What the suffix of a length stands for.

A suffix is read back on its scale: as the length of the step that has it, or as the number in its
brackets (`lengthOf?`).  The steps of all scales are small whole numbers (`wholeSteps`), so the
program finds the steps that are near, and the nearest of all, as if it calculated with exact
numbers.  The main statement is `mapsFaithfully_of_value`.
-/

namespace Handoff.Tailwind

open Decimal

/-! ## Reading suffixes -/

/-- The scales of lengths. -/
def lengthScales : List (List Step) :=
  [spacingScale, fontSizeScale, radiusScale, borderScale, outlineScale, blurScale]

/-- The exact length of a step. -/
def Step.size (step : Step) : ℚ :=
  ((Binary.ofFloat? step.pixels).map Binary.value).getD 0

/-- A suffix as it is written. -/
def Suffix.text : Suffix → String
  | nothing => ""
  | word text => text
  | length v => "[" ++ plain v ++ "px]"

/-- The number of pixels that a text has in brackets. -/
def pixels? (text : String) : Option ℚ :=
  match text.toList with
  | '[' :: rest =>
    if "px]".toList <:+ rest then denoted? (String.ofList (rest.take (rest.length - 3))) else none
  | _ => none

/-- The length that a suffix stands for on a scale. -/
def lengthOf? (scale : List Step) (text : String) : Option ℚ :=
  match scale.find? (·.suffix = text) with
  | some step => some step.size
  | none => pixels? text

theorem Step.size_of_value {step : Step} {q : ℚ} (value : HasValue step.pixels q) :
    step.size = q := by
  obtain ⟨b, read, rfl⟩ := value
  rw [size, read]
  rfl

theorem Step.text_toSuffix (step : Step) : step.toSuffix.text = step.suffix := by
  rw [toSuffix]
  split
  · rename_i empty
    exact empty.symm
  · rfl

theorem pixels?_bracketed (number : String) :
    pixels? ("[" ++ number ++ "px]") = denoted? number := by
  have chars : ("[" ++ number ++ "px]").toList = '[' :: (number.toList ++ "px]".toList) := by
    rw [String.toList_append, String.toList_append]
    rfl
  have inside : (number.toList ++ "px]".toList).take
      ((number.toList ++ "px]".toList).length - 3) = number.toList := by
    have unit : "px]".toList.length = 3 := by decide
    rw [List.length_append, unit, Nat.add_sub_cancel, List.take_left]
  rw [pixels?, chars]
  simp only [inside, String.ofList_toList]
  exact if_pos (List.suffix_append _ _)

/-! ## Scales -/

/-- A step that is a small whole number, which no double is doubtfully near to. -/
def Step.IsWhole (step : Step) (n : ℕ) : Prop :=
  HasValue step.pixels n ∧ n ≤ 2 ^ 52 ∧ Separated n

/-- What the scales have in common. -/
structure Regular (scale : List Step) : Prop where
  nonempty : scale ≠ []
  whole : ∀ step ∈ scale, ∃ n, step.IsWhole n
  distinct : (scale.map Step.suffix).Nodup
  words : ∀ step ∈ scale, '[' ∉ step.suffix.toList

/-- The steps of all scales are whole numbers. -/
theorem exists_isWhole : ∀ scale ∈ lengthScales, ∀ step ∈ scale, ∃ n, step.IsWhole n := by
  have checks : ∀ scale ∈ lengthScales, ∀ step ∈ scale,
      (whole? step.pixels).any (fun n => n ≤ 2 ^ 52 ∧ ∀ f < 58, SeparatedAt n f) = true := by
    decide +kernel
  intro scale among step member
  obtain ⟨n, whole, passed⟩ := (Option.any_eq_true _ _).mp (checks scale among step member)
  obtain ⟨bound, separated⟩ := of_decide_eq_true passed
  exact ⟨n, hasValue_of_whole? whole, bound, separated_of_forall separated⟩

theorem regular_of_mem {scale : List Step} (member : scale ∈ lengthScales) : Regular scale where
  nonempty := by
    revert scale
    decide
  whole := exists_isWhole scale member
  distinct := by
    revert scale
    decide
  words := by
    have words : ∀ scale ∈ lengthScales, ∀ suffix ∈ scale.map Step.suffix, '[' ∉ suffix.toList := by
      decide
    exact fun step among => words scale member _ (List.mem_map_of_mem among)

section

variable {scale : List Step} {step : Step}

theorem Regular.lengthOf?_suffix (regular : Regular scale) (member : step ∈ scale) :
    lengthOf? scale step.suffix = some step.size := by
  rw [lengthOf?]
  cases found : scale.find? (·.suffix = step.suffix) with
  | none => exact absurd (decide_eq_true rfl) (List.find?_eq_none.mp found step member)
  | some other =>
      have same : other.suffix = step.suffix := by
        have passes := List.find?_some found
        exact of_decide_eq_true passes
      have distinct := regular.distinct
      rw [List.inj_on_of_nodup_map distinct (List.mem_of_find?_eq_some found) member same]

theorem Regular.suffix_ne (regular : Regular scale) (member : step ∈ scale) (number : String) :
    step.suffix ≠ "[" ++ number ++ "px]" :=
  (bracketed_ne (regular.words step member)).symm

theorem Regular.lengthOf?_bracketed (regular : Regular scale) (number : String) :
    lengthOf? scale ("[" ++ number ++ "px]") = denoted? number := by
  have none : scale.find? (·.suffix = "[" ++ number ++ "px]") = none :=
    List.find?_eq_none.mpr fun step member =>
      decide_eq_true_iff.not.mpr (regular.suffix_ne member number)
  rw [lengthOf?, none]
  exact pixels?_bracketed number

end

/-! ## The nearest step -/

section

variable {α β γ : Type} [LinearOrder β] [LinearOrder γ] {key : α → β} {other : α → γ}

/-- A search that takes the better of two elements, and the earlier on a tie, finds the first of the
least. -/
theorem foldl_eq_argmin {take : Option α → α → Option α} (l : List α)
    (first : ∀ a, take none a = some a)
    (next : ∀ b ∈ l, ∀ a ∈ l, take (some b) a = if key a < key b then some a else some b) :
    l.foldl take none = l.argmin key := by
  induction l using List.reverseRecOn with
  | nil => rfl
  | append_singleton l a ih =>
      have last : a ∈ l ++ [a] := List.mem_append_right _ (List.mem_singleton_self a)
      rw [List.foldl_append, ih fun b hb c hc =>
        next b (List.mem_append_left _ hb) c (List.mem_append_left _ hc), List.argmin_concat]
      cases best : l.argmin key with
      | none => exact first a
      | some b => exact next b (List.mem_append_left _ (List.argmin_mem best)) a last

/-- The first of the least does not depend on the measure, as long as its own comparisons do not. -/
theorem mem_argmin_of_le_iff {l : List α} {a : α} (least : a ∈ l.argmin key)
    (same : ∀ b ∈ l, (key a ≤ key b ↔ other a ≤ other b) ∧ (key b ≤ key a ↔ other b ≤ other a)) :
    a ∈ l.argmin other := by
  classical
  obtain ⟨member, le, first⟩ := List.mem_argmin_iff.mp least
  exact List.mem_argmin_iff.mpr ⟨member, fun b hb => (same b hb).1.mp (le b hb),
    fun b hb ge => first b hb ((same b hb).2.mpr ge)⟩

end

/-! ## Comparisons of steps -/

section

variable {scale : List Step} {s t : Step} {v : Float} {x : ℚ} {m n : ℕ}

/-- Where the distance of a step stands among those of the others. -/
def Step.place (v : Float) (step : Step) : ℤ ×ₗ ℤ ×ₗ ℤ := rank (step.distance v).toModel.unpack

theorem Step.IsWhole.size_eq (whole : s.IsWhole n) : s.size = n := Step.size_of_value whole.1

theorem Step.IsWhole.lt_stepTolerance_iff (whole : s.IsWhole n) (value : HasValue v x) :
    s.distance v < stepTolerance ↔ |s.size - x| < 1 / 100 := by
  rw [whole.size_eq]
  exact distance_lt_hundredth_iff whole.1 value whole.2.1

theorem Step.IsWhole.le_roundingTolerance_iff (whole : s.IsWhole n) (value : HasValue v x)
    (other : x ≠ 0) :
    ((s.pixels - v) / v).abs ≤ roundingTolerance ↔ |s.size - x| ≤ 15 / 100 * |x| := by
  rw [whole.size_eq]
  exact share_le_iff whole.1 value other whole.2.1 whole.2.2

theorem Step.IsWhole.distance_ne_notANumber (whole : s.IsWhole n) (value : HasValue v x) :
    (s.distance v).toModel.unpack ≠ .notANumber := by
  obtain ⟨u, -, size⟩ := whole.1.sub value
  exact ne_notANumber_abs size

/-- The distances of two steps compare as the exact ones, as long as one is less than half the
length. -/
theorem Step.IsWhole.place_le_iff (hs : s.IsWhole m) (ht : t.IsWhole n) (value : HasValue v x)
    (near : |t.size - x| < |x| / 2) :
    (s.place v ≤ t.place v ↔ |s.size - x| ≤ |t.size - x|) ∧
      (t.place v ≤ s.place v ↔ |t.size - x| ≤ |s.size - x|) := by
  have number := hs.distance_ne_notANumber value
  have number' := ht.distance_ne_notANumber value
  rw [hs.size_eq, ht.size_eq] at *
  obtain ⟨u, hu, size⟩ := hs.1.sub value
  obtain ⟨u', hu', size'⟩ := ht.1.sub value
  have comparisons := value.distance_le_iff ht.2.1 near hu hu'
  rw [← abs_le_iff size size', ← abs_le_iff size' size] at comparisons
  rw [place, place, ← le_iff_rank number number', ← le_iff_rank number' number]
  exact comparisons

/-- The search for the nearest step takes the first of those that are nearest as floats. -/
theorem nearestStep?_eq_argmin (whole : ∀ step ∈ scale, ∃ n, step.IsWhole n)
    (value : HasValue v x) : nearestStep? scale v = scale.argmin (Step.place v) := by
  refine foldl_eq_argmin scale (fun step => rfl) fun b hb a ha => ?_
  obtain ⟨_, ha⟩ := whole a ha
  obtain ⟨_, hb⟩ := whole b hb
  have comparison : a.distance v < b.distance v ↔ a.place v < b.place v :=
    lt_iff_rank (ha.distance_ne_notANumber value) (hb.distance_ne_notANumber value)
  simp only [nearerStep, comparison]

end

/-! ## Suffixes of lengths -/

/-- What the suffix chosen for a length stands for. -/
structure MapsFaithfully (rounding : Bool) (scale : List Step) (v : Float) (x : ℚ) : Prop where
  /-- It stands for a length less than a hundredth off or, if lengths are rounded, for the first of
  the steps that are nearest, which is at most fifteen percent off. -/
  stands : ∃ q, lengthOf? scale (scaled rounding scale v).text = some q ∧
    (|q - x| < 1 / 100 ∨ rounding = true ∧ |q - x| ≤ 15 / 100 * |x| ∧
      ∃ step ∈ scale.argmin fun s => |s.size - x|,
        (scaled rounding scale v).text = step.suffix ∧ q = step.size)
  /-- If it is that of no step, it stands for the length rounded to two places, and no step is near
  enough. -/
  own : (∀ step ∈ scale, (scaled rounding scale v).text ≠ step.suffix) →
    (∃ q, lengthOf? scale (scaled rounding scale v).text = some q ∧ RoundsTo 2 x q) ∧
    (∀ step ∈ scale, 1 / 100 ≤ |step.size - x|) ∧
    (rounding = true → x = 0 ∨ ∀ step ∈ scale, 15 / 100 * |x| < |step.size - x|)

section

variable {scale : List Step} {v : Float} {x : ℚ}

/-- A length is rounded to the first of the steps that are nearest, unless all are too far. -/
theorem roundedStep?_cases (whole : ∀ step ∈ scale, ∃ n, step.IsWhole n) (nonempty : scale ≠ [])
    (value : HasValue v x) :
    (∃ step, roundedStep? scale v = some step ∧ step ∈ scale.argmin (fun s => |s.size - x|) ∧
      |step.size - x| ≤ 15 / 100 * |x|) ∨
    roundedStep? scale v = none ∧ (x = 0 ∨ ∀ step ∈ scale, 15 / 100 * |x| < |step.size - x|) := by
  have search := nearestStep?_eq_argmin whole value
  obtain ⟨s, nearest⟩ : ∃ s, scale.argmin (Step.place v) = some s :=
    Option.ne_none_iff_exists'.mp (List.argmin_eq_none.not.mpr nonempty)
  have member := List.argmin_mem nearest
  obtain ⟨m, hs⟩ := whole s member
  have passes : (v != 0.0 && ((s.pixels - v) / v).abs ≤ roundingTolerance) = true ↔
      x ≠ 0 ∧ |s.size - x| ≤ 15 / 100 * |x| := by
    rw [Bool.and_eq_true, value.bne_zero_iff, decide_eq_true_iff]
    exact and_congr_right fun other => hs.le_roundingTolerance_iff value other
  have half (q : ℚ) (other : x ≠ 0) (near : q ≤ 15 / 100 * |x|) : q < |x| / 2 := by
    have := abs_pos.mpr other
    linarith
  rw [roundedStep?, search, nearest, Option.filter_some]
  by_cases near : x ≠ 0 ∧ |s.size - x| ≤ 15 / 100 * |x|
  · rw [if_pos (passes.mpr near)]
    refine .inl ⟨s, rfl, mem_argmin_of_le_iff nearest fun t among => ?_, near.2⟩
    obtain ⟨n, ht⟩ := whole t among
    exact (ht.place_le_iff hs value (half _ near.1 near.2)).symm
  · rw [if_neg (passes.not.mpr near)]
    refine .inr ⟨rfl, ?_⟩
    by_contra! more
    obtain ⟨other, t, among, close⟩ := more
    obtain ⟨n, ht⟩ := whole t among
    -- A step that is near enough has none nearer to it as a float that is not so exactly.
    have least := List.le_of_mem_argmin among nearest
    have shorter := (hs.place_le_iff ht value (half _ other close)).1.mp least
    exact near ⟨other, shorter.trans close⟩

/-- A length becomes a step less than a hundredth off, a nearest step that is near enough, or
itself. -/
theorem scaled_exact_cases (whole : ∀ step ∈ scale, ∃ n, step.IsWhole n) (nonempty : scale ≠ [])
    (rounding : Bool) (value : HasValue v x) :
    (∃ step ∈ scale, scaled rounding scale v = step.toSuffix ∧
      (|step.size - x| < 1 / 100 ∨ rounding = true ∧ |step.size - x| ≤ 15 / 100 * |x| ∧
        step ∈ scale.argmin fun s => |s.size - x|)) ∨
    scaled rounding scale v = .length v ∧ (∀ step ∈ scale, 1 / 100 ≤ |step.size - x|) ∧
      (rounding = true → x = 0 ∨ ∀ step ∈ scale, 15 / 100 * |x| < |step.size - x|) := by
  rw [scaled]
  cases close : scale.find? fun step => step.distance v < stepTolerance with
  | some step =>
      have member := List.mem_of_find?_eq_some close
      obtain ⟨n, isWhole⟩ := whole step member
      have near := List.find?_some close
      rw [decide_eq_true_iff, isWhole.lt_stepTolerance_iff value] at near
      exact .inl ⟨step, member, rfl, .inl near⟩
  | none =>
      have far : ∀ step ∈ scale, 1 / 100 ≤ |step.size - x| := by
        intro step member
        obtain ⟨n, isWhole⟩ := whole step member
        have apart := List.find?_eq_none.mp close step member
        rw [decide_eq_true_iff, isWhole.lt_stepTolerance_iff value, not_lt] at apart
        exact apart
      cases rounding with
      | false => exact .inr ⟨rfl, far, fun on => absurd on Bool.false_ne_true⟩
      | true =>
          rcases roundedStep?_cases whole nonempty value with
            ⟨step, rounded, nearest, near⟩ | ⟨none, past⟩
          · refine .inl ⟨step, List.argmin_mem nearest, ?_, .inr ⟨rfl, near, nearest⟩⟩
            simp only [if_true, rounded]
          · refine .inr ⟨?_, far, fun _ => past⟩
            simp only [if_true, none]

/-- Whatever the length is, its suffix stands for a length near it, and steps are preferred. -/
theorem mapsFaithfully_of_value (member : scale ∈ lengthScales) (rounding : Bool)
    (value : HasValue v x) : MapsFaithfully rounding scale v x := by
  have regular := regular_of_mem member
  rcases scaled_exact_cases regular.whole regular.nonempty rounding value with
    ⟨step, among, chosen, near⟩ | ⟨chosen, far, past⟩
  · have written : (scaled rounding scale v).text = step.suffix := by
      rw [chosen, Step.text_toSuffix]
    constructor
    case stands =>
      refine ⟨step.size, written ▸ regular.lengthOf?_suffix among, near.imp_right ?_⟩
      rintro ⟨on, close, nearest⟩
      exact ⟨on, close, step, nearest, written, rfl⟩
    case own => exact fun others => absurd written (others step among)
  · have written : (scaled rounding scale v).text = "[" ++ plain v ++ "px]" := by
      rw [chosen]
      rfl
    obtain ⟨q, rounded, read⟩ := exists_denoted?_atMost value 2
    have stands : lengthOf? scale (scaled rounding scale v).text = some q := by
      rw [written, regular.lengthOf?_bracketed]
      exact read
    constructor
    case stands =>
      refine ⟨q, stands, .inl (rounded.abs_sub_le.trans_lt ?_)⟩
      norm_num
    case own => exact fun _ => ⟨⟨q, stands, rounded⟩, far, past⟩

end

/-- Twenty-two is halfway between two steps. -/
theorem mapsFaithfully_tie : spacingScale ∈ lengthScales ∧ HasValue 22.0 22 ∧
    MapsFaithfully true spacingScale 22.0 22 := by
  have value : HasValue 22.0 (22 : ℕ) := hasValue_of_whole? (by decide +kernel)
  exact ⟨List.mem_cons_self, value, mapsFaithfully_of_value List.mem_cons_self true value⟩

/-- The earlier of the two is taken. -/
example : (scaled true spacingScale 22.0).text = "5" := by decide +kernel

end Handoff.Tailwind
