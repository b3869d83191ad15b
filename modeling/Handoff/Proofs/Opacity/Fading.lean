import Handoff.Proofs.UsedColors

/-!
A fill at half its opacity.

The opacity of a paint goes into the alpha of its colors, and where there are none, as in an image,
it only stays with the paint.  `Fill.Fades` compares the fill of a paint whose colors are opaque
with that of the same paint at half its opacity; a color keeps its name then, since a palette does
not look at alpha.

The main statement is `Paint.fades_toDesign`.
-/

namespace Handoff

namespace Color

variable {c : Color}

theorem isOpaque_of_full (full : c.a = 1.0) : c.isOpaque = true := by
  have byte : Color.byte 1.0 = 255 := by decide +kernel
  rw [isOpaque, full, byte]
  rfl

theorem not_isOpaque_of_half (half : c.a = 0.5) : c.isOpaque = false := by
  have byte : Color.byte 0.5 = 128 := by decide +kernel
  rw [isOpaque, half, byte]
  rfl

end Color

theorem Decimal.plain_half : plain (widen 0.5) = "0.5" := by decide +kernel

namespace Design

/-- An opaque color and the same at half its opacity. -/
structure ColorRef.Fades (c d : ColorRef) : Prop where
  full : c.color.a = 1.0
  half : d.color = { c.color with a := 0.5 }
  palette : d.palette = c.palette

/-- A stop of an opaque color and the same at half its opacity. -/
structure GradientStop.Fades (s t : GradientStop) : Prop where
  position : t.position = s.position
  color : s.color.Fades t.color

/-- A fill of opaque colors and the same at half its opacity; an image stays as it is. -/
inductive Fill.Fades : Fill → Fill → Prop
  | solid {c d : ColorRef} (color : c.Fades d) : Fades (.solid c) (.solid d)
  | linearGradient {angle : Float} {stops stops' : List GradientStop} (some : stops ≠ [])
      (each : List.Forall₂ GradientStop.Fades stops stops') :
    Fades (.linearGradient angle stops) (.linearGradient angle stops')
  | image {imageRef : String} {scaleMode : ScaleMode} :
    Fades (.image imageRef scaleMode) (.image imageRef scaleMode)

/-- A paint of opaque colors and the same at half its opacity. -/
structure Paint.Fades (p q : Paint) : Prop where
  fill : p.fill.Fades q.fill
  blendMode : q.blendMode = p.blendMode

/-- Whether a fill is an image. -/
def Fill.isImage : Fill → Bool
  | image _ _ => true
  | _ => false

theorem Fill.Fades.eq_of_isImage {f g : Fill} (fades : f.Fades g) (image : f.isImage = true) :
    f = g := by
  cases fades with
  | solid | linearGradient => cases image
  | image => rfl

end Design

namespace Scene

open Design (ColorRef GradientStop Fill)

/-- A paint that is drawn, and in opaque colors if in any. -/
def Paint.IsOpaque (p : Paint) : Prop :=
  match p.paintType with
  | .solid => (p.color.getD .black).a = 1.0
  | .gradientLinear => p.gradientStops ≠ [] ∧ ∀ stop ∈ p.gradientStops, stop.color.a = 1.0
  | .image => True
  | _ => False

/-- A paint at half its opacity. -/
def Paint.halved (p : Paint) : Paint := { p with opacity := 0.5 }

section

variable {s : Settings} {p : Paint}

theorem unitOpacity_full (full : p.opacity = 1.0) : Decimal.narrow p.unitOpacity = 1.0 := by
  have clamped : Decimal.narrow (Decimal.clamp 1.0 0.0 1.0) = 1.0 := by decide +kernel
  rw [Paint.unitOpacity, full, clamped]

theorem unitOpacity_halved (p : Paint) : Decimal.narrow p.halved.unitOpacity = 0.5 := by
  have clamped : Decimal.narrow (Decimal.clamp 0.5 0.0 1.0) = 0.5 := by decide +kernel
  have half : p.halved.opacity = 0.5 := by rw [Paint.halved]
  rw [Paint.unitOpacity, half, clamped]

theorem shows_of_full (visible : p.visible = true) (full : p.opacity = 1.0) : p.shows = true := by
  have some : decide ((1.0 : Float) > 0.0) = true := by decide +kernel
  rw [Paint.shows, visible, full, some]
  rfl

theorem shows_halved (visible : p.visible = true) : p.halved.shows = true := by
  have some : decide ((0.5 : Float) > 0.0) = true := by decide +kernel
  have half : p.halved.opacity = 0.5 := by rw [Paint.halved]
  have same : p.halved.visible = p.visible := by rw [Paint.halved]
  rw [Paint.shows, same, visible, half, some]
  rfl

/-- An opaque color fades with the paint that it is in. -/
theorem fades_colorRef {c : Color} (isFull : c.a = 1.0) :
    (s.colorRef (c.withOpacity 1.0)).Fades (s.colorRef (c.withOpacity 0.5)) := by
  have whole : Decimal.clampUnit32 (1.0 * 1.0) = 1.0 := by decide +kernel
  have half : Decimal.clampUnit32 (1.0 * 0.5) = 0.5 := by decide +kernel
  have first : c.withOpacity 1.0 = { c with a := 1.0 } := by
    rw [Color.withOpacity, isFull, whole]
  have second : c.withOpacity 0.5 = { c with a := 0.5 } := by
    rw [Color.withOpacity, isFull, half]
  have palette : (s.colorRef { c with a := 0.5 }).palette =
      (s.colorRef { c with a := 1.0 }).palette :=
    Palette.nearest?_congr _ (by simp only [Color.bytes]) (by simp only [Color.bytes])
      (by simp only [Color.bytes]) _
  rw [first, second]
  exact ⟨by rw [Settings.colorRef], by rw [Settings.colorRef, Settings.colorRef], palette⟩

/-- A paint that is drawn in opaque colors fades at half its opacity. -/
theorem Paint.fades_toDesign (isOpaque : p.IsOpaque) (full : p.opacity = 1.0)
    (width height : Float) : ∃ P Q, p.toDesign s width height = .ok P ∧
      p.halved.toDesign s width height = .ok Q ∧ P.Fades Q ∧
        (P.fill.isImage = true ↔ p.paintType = .image) := by
  have whole := unitOpacity_full full
  have half := unitOpacity_halved p
  unfold toDesign toFill
  rw [whole, half]
  unfold IsOpaque at isOpaque
  cases kind : p.paintType <;> rw [kind] at isOpaque
  case solid =>
    have kind' : p.halved.paintType = .solid := kind
    rw [kind']
    exact ⟨_, _, rfl, rfl, ⟨.solid (fades_colorRef isOpaque), rfl⟩, by simp [Fill.isImage]⟩
  case gradientLinear =>
    obtain ⟨some, opaqueStops⟩ := isOpaque
    have kind' : p.halved.paintType = .gradientLinear := kind
    have present : p.gradientStops.isEmpty = false := List.isEmpty_eq_false_iff.mpr some
    have stops : p.halved.gradientStops = p.gradientStops := rfl
    rw [kind']
    simp only [stops, present, Bool.false_eq_true, if_false]
    refine ⟨_, _, rfl, rfl, ⟨.linearGradient (by simpa using some) ?_, rfl⟩, by simp [Fill.isImage]⟩
    rw [List.forall₂_map_left_iff, List.forall₂_map_right_iff, List.forall₂_same]
    exact fun stop member => ⟨rfl, fades_colorRef (opaqueStops stop member)⟩
  case image =>
    have kind' : p.halved.paintType = .image := kind
    rw [kind']
    exact ⟨_, _, rfl, rfl, ⟨.image, rfl⟩, by simp [Fill.isImage]⟩
  all_goals exact isOpaque.elim

end

end Scene

end Handoff
