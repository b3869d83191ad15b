import Handoff.Decimal.Numeral

/-!
# The Tailwind scales

Lengths are written as steps of a scale where they are on one, as arbitrary values
otherwise.  With rounding on, a length also goes to the nearest step if that is within
fifteen percent.  `scaled` makes the choice; `Suffix` is what it chooses between.
-/

namespace Handoff.Tailwind

/-- A step of a scale: its length in pixels and the suffix that stands for it. -/
structure Step where
  pixels : Float
  suffix : String

/-- What follows the stem of a class. -/
inductive Suffix where
  /-- Nothing: the stem alone is the class. -/
  | nothing
  | word (text : String)
  /-- An arbitrary length in pixels. -/
  | length (pixels : Float)

/-- The class of a stem and a suffix. -/
def Suffix.after (stem : String) : Suffix → String
  | nothing => stem
  | word text => stem ++ "-" ++ text
  | length v => stem ++ "-[" ++ Decimal.plain v ++ "px]"

/-- The suffix of a step; an empty one is none. -/
def Step.toSuffix (step : Step) : Suffix :=
  if step.suffix = "" then .nothing else .word step.suffix

/-! ## Scales -/

/-- Distances and sizes. -/
def spacingScale : List Step := [
  ⟨0.0, "0"⟩, ⟨1.0, "px"⟩, ⟨2.0, "0.5"⟩, ⟨4.0, "1"⟩, ⟨6.0, "1.5"⟩, ⟨8.0, "2"⟩, ⟨10.0, "2.5"⟩,
  ⟨12.0, "3"⟩, ⟨14.0, "3.5"⟩, ⟨16.0, "4"⟩, ⟨20.0, "5"⟩, ⟨24.0, "6"⟩, ⟨28.0, "7"⟩, ⟨32.0, "8"⟩,
  ⟨36.0, "9"⟩, ⟨40.0, "10"⟩, ⟨44.0, "11"⟩, ⟨48.0, "12"⟩, ⟨56.0, "14"⟩, ⟨64.0, "16"⟩, ⟨80.0, "20"⟩,
  ⟨96.0, "24"⟩, ⟨112.0, "28"⟩, ⟨128.0, "32"⟩, ⟨144.0, "36"⟩, ⟨160.0, "40"⟩, ⟨176.0, "44"⟩,
  ⟨192.0, "48"⟩, ⟨208.0, "52"⟩, ⟨224.0, "56"⟩, ⟨240.0, "60"⟩, ⟨256.0, "64"⟩, ⟨288.0, "72"⟩,
  ⟨320.0, "80"⟩, ⟨384.0, "96"⟩]

/-- Font sizes. -/
def fontSizeScale : List Step := [
  ⟨12.0, "xs"⟩, ⟨14.0, "sm"⟩, ⟨16.0, "base"⟩, ⟨18.0, "lg"⟩, ⟨20.0, "xl"⟩, ⟨24.0, "2xl"⟩,
  ⟨30.0, "3xl"⟩, ⟨36.0, "4xl"⟩, ⟨48.0, "5xl"⟩, ⟨60.0, "6xl"⟩, ⟨72.0, "7xl"⟩, ⟨96.0, "8xl"⟩,
  ⟨128.0, "9xl"⟩]

/-- Corner radii. -/
def radiusScale : List Step := [
  ⟨0.0, "none"⟩, ⟨2.0, "sm"⟩, ⟨4.0, ""⟩, ⟨6.0, "md"⟩, ⟨8.0, "lg"⟩, ⟨12.0, "xl"⟩, ⟨16.0, "2xl"⟩,
  ⟨24.0, "3xl"⟩]

/-- Border widths. -/
def borderScale : List Step := [
  ⟨0.0, "0"⟩, ⟨1.0, ""⟩, ⟨2.0, "2"⟩, ⟨4.0, "4"⟩, ⟨8.0, "8"⟩]

/-- Outline widths. -/
def outlineScale : List Step := [
  ⟨0.0, "0"⟩, ⟨1.0, "1"⟩, ⟨2.0, "2"⟩, ⟨4.0, "4"⟩, ⟨8.0, "8"⟩]

/-- Blur radii. -/
def blurScale : List Step := [
  ⟨0.0, "none"⟩, ⟨4.0, "sm"⟩, ⟨8.0, ""⟩, ⟨12.0, "md"⟩, ⟨16.0, "lg"⟩, ⟨24.0, "xl"⟩, ⟨40.0, "2xl"⟩,
  ⟨64.0, "3xl"⟩]

/-- Angles in degrees. -/
def rotationScale : List Float := [0.0, 1.0, 2.0, 3.0, 6.0, 12.0, 45.0, 90.0, 180.0]

/-! ## Choosing a step -/

/-- How far a length may be from a step that stands for it. -/
def stepTolerance : Float := 0.01

/-- The largest share of a length by which it may be rounded. -/
def roundingTolerance : Float := 0.15

/-- The distance of a step from a length. -/
def Step.distance (v : Float) (step : Step) : Float := (step.pixels - v).abs

/-- The nearer of two steps, the first on a tie. -/
def nearerStep (v : Float) (best : Option Step) (step : Step) : Option Step :=
  match best with
  | none => some step
  | some b => if step.distance v < b.distance v then some step else best

/-- The first of the steps nearest to a length. -/
def nearestStep? (scale : List Step) (v : Float) : Option Step :=
  scale.foldl (nearerStep v) none

/-- The step that a length is rounded to, if one is near enough. -/
def roundedStep? (scale : List Step) (v : Float) : Option Step :=
  (nearestStep? scale v).filter fun step =>
    v != 0.0 && ((step.pixels - v) / v).abs ≤ roundingTolerance

/-- The suffix for a length on a scale. -/
def scaled (rounding : Bool) (scale : List Step) (v : Float) : Suffix :=
  match scale.find? fun step => step.distance v < stepTolerance with
  | some step => step.toSuffix
  | none =>
    match if rounding then roundedStep? scale v else none with
    | some step => step.toSuffix
    | none => .length v

end Handoff.Tailwind
