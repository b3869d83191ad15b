import Handoff.Outline
import Handoff.Settings.Basic
import Handoff.Text.Lines
import Handoff.Warning

/-!
# The style of scene nodes

How the paints, effects and text attributes of a layer become the style of a design node.
Each paint and each effect either has a counterpart or is refused for a `Reason`:
`Paint.toDesign` and `Effect.toDesign` say which.  `Layer.style` keeps the counterparts in
order, `Layer.refusals` the reasons in order.

Every color is looked up in the palette of the target on the way (`Settings.colorRef`).
-/

namespace Handoff

/-- A color with the palette entry that the settings allow it to be called by. -/
def Settings.colorRef (s : Settings) (c : Color) : Design.ColorRef :=
  ⟨c, (Palette.ofFramework s.framework).nearest? c s.tolerance⟩

namespace Scene

/-! ## Paints -/

/-- The counterpart of a blend mode; modes of groups and unknown ones are normal. -/
def BlendMode.toDesign : BlendMode → Design.BlendMode
  | multiply => .multiply
  | screen => .screen
  | overlay => .overlay
  | darken => .darken
  | lighten => .lighten
  | colorDodge => .colorDodge
  | colorBurn => .colorBurn
  | hardLight => .hardLight
  | softLight => .softLight
  | difference => .difference
  | exclusion => .exclusion
  | hue => .hue
  | saturation => .saturation
  | color => .color
  | luminosity => .luminosity
  | normal | passThrough | unknown => .normal

/-- The counterpart of a scale mode. -/
def ScaleMode.toDesign : ScaleMode → Design.ScaleMode
  | fit => .fit
  | crop => .crop
  | tile => .tile
  | fill | unknown => .fill

/-- The angle of a gradient along `(dx, dy)` with the vertical axis pointing down: zero
points up and the angle grows clockwise; two decimals. -/
def angleOf (dx dy : Float) : Float :=
  Decimal.roundHundredths
    (Decimal.wrap (Decimal.degrees (Float.atan2 dy dx) + 90.0) 360)

/-- The length by which a unit of the unit square is drawn. -/
def unitLength (side : Float) : Float :=
  if side > 0.0 then side else 1.0

/-- The angle of a gradient on a node of the given size; it points down when the handles
do not say otherwise. -/
def Paint.angle (p : Paint) (width height : Float) : Float :=
  match p.gradientHandles with
  | start :: finish :: _ =>
    let dx := (finish.x - start.x) * unitLength width
    let dy := (finish.y - start.y) * unitLength height
    if dx * dx + dy * dy == 0.0 then 180.0 else angleOf dx dy
  | _ => 180.0

/-- The opacity of a paint between zero and one. -/
def Paint.unitOpacity (p : Paint) : Float :=
  Decimal.clamp p.opacity 0.0 1.0

/-- The fill that a paint stands for on a node of the given size, or why there is none. -/
def Paint.toFill (s : Settings) (width height : Float) (p : Paint) :
    Except Reason Design.Fill :=
  let opacity := Decimal.narrow p.unitOpacity
  match p.paintType with
  | .solid =>
    .ok (.solid (s.colorRef ((p.color.getD Color.black).withOpacity opacity)))
  | .gradientLinear =>
    if p.gradientStops.isEmpty then .error .gradientWithoutStops
    else
      .ok (.linearGradient (p.angle width height)
        (p.gradientStops.map fun stop =>
          ⟨Decimal.clamp stop.position 0.0 1.0,
            s.colorRef (stop.color.withOpacity opacity)⟩))
  | .image => .ok (.image (p.imageHash.getD "") p.scaleMode.toDesign)
  | .gradientRadial => .error .radialGradient
  | .gradientAngular => .error .angularGradient
  | .gradientDiamond => .error .diamondGradient
  | .video => .error .videoFill
  | .unknown => .error .unknownPaint

/-- The paint of a design that a paint stands for, or why there is none. -/
def Paint.toDesign (s : Settings) (width height : Float) (p : Paint) :
    Except Reason Design.Paint :=
  (p.toFill s width height).map fun fill =>
    ⟨fill, p.unitOpacity, p.blendMode.toDesign⟩

/-- Whether a paint shows at all. -/
def Paint.shows (p : Paint) : Bool :=
  p.visible && p.opacity > 0.0

/-! ## Effects -/

/-- The color of a shadow without one of its own. -/
def shadowColor : Color := ⟨0.0, 0.0, 0.0, 0.25⟩

/-- The shadow of an effect. -/
def Effect.shadow (s : Settings) (e : Effect) : Design.Shadow where
  color := s.colorRef (e.color.getD shadowColor)
  offsetX := e.offset.x
  offsetY := e.offset.y
  blur := Decimal.larger e.radius 0.0
  spread := e.spread

/-- The effect of a design that an effect stands for, or why there is none. -/
def Effect.toDesign (s : Settings) (e : Effect) : Except Reason Design.Effect :=
  match e.effectType with
  | .dropShadow => .ok (.dropShadow (e.shadow s))
  | .innerShadow => .ok (.innerShadow (e.shadow s))
  | .layerBlur => .ok (.layerBlur (Decimal.larger e.radius 0.0))
  | .backgroundBlur => .ok (.backgroundBlur (Decimal.larger e.radius 0.0))
  | .noise => .error .noiseEffect
  | .texture => .error .textureEffect
  | .unknown => .error .unknownEffect

/-! ## Corners -/

/-- The corners of a layer: four radii if they are given and differ, else one. -/
def Layer.corners (l : Layer) : Design.CornerRadius :=
  let single : Design.CornerRadius := match l.cornerRadius with
    | some r => if r > 0.0 then .uniform r else .none
    | none => .none
  match l.cornerRadii with
  | some c =>
    let tl := Decimal.larger c.topLeft 0.0
    let tr := Decimal.larger c.topRight 0.0
    let br := Decimal.larger c.bottomRight 0.0
    let bl := Decimal.larger c.bottomLeft 0.0
    if tr == tl && br == tl && bl == tl then
      if tl > 0.0 then .uniform tl else single
    else .perCorner tl tr br bl
  | none => single

/-! ## Typography -/

/-- The weights that the names of font styles contain; the first that occurs counts. -/
def styleWeights : List (String × Nat) := [
  ("extralight", 200), ("ultralight", 200), ("semibold", 600), ("demibold", 600),
  ("extrabold", 800), ("ultrabold", 800), ("thin", 100), ("hairline", 100), ("light", 300),
  ("medium", 500), ("bold", 700), ("black", 900), ("heavy", 900)]

/-- The name of a font style in lower-case letters and digits. -/
def plainStyleName (style : String) : List Char :=
  (style.toList.map Char.toLower).filter fun c => c.isAlpha || c.isDigit

/-- The weight that the name of a font style stands for. -/
def styleWeight (style : String) : Nat :=
  let name := plainStyleName style
  match styleWeights.find? fun (word, _) => Text.occursIn word.toList name with
  | some (_, weight) => weight
  | none => 400

/-- Whether the name of a font style stands for a slanted one. -/
def styleIsItalic (style : String) : Bool :=
  let name := plainStyleName style
  Text.occursIn "italic".toList name || Text.occursIn "oblique".toList name

/-- A share of a font size in percent, as a length of two decimals. -/
def shareOf (size percent : Float) : Float :=
  Decimal.roundHundredths (size * percent / 100.0)

/-- The height of a line of the given font size. -/
def LineHeight.pixels? (size : Float) (h : LineHeight) : Option Float :=
  match h.unit with
  | .pixels => some h.value
  | .percent => some (shareOf size h.value)
  | .auto | .unknown => none

/-- The space between letters of the given font size. -/
def LetterSpacing.pixels (size : Float) (s : LetterSpacing) : Float :=
  match s.unit with
  | .pixels => s.value
  | .percent => shareOf size s.value
  | .unknown => 0.0

/-- The counterpart of a horizontal alignment. -/
def TextAlign.toDesign : TextAlign → Design.TextAlign
  | center => .center
  | right => .right
  | justified => .justified
  | left | unknown => .left

/-- The counterpart of a vertical alignment. -/
def TextAlignVertical.toDesign : TextAlignVertical → Design.TextAlignVertical
  | center => .center
  | bottom => .bottom
  | top | unknown => .top

/-- The counterpart of a case transform. -/
def TextCase.toDesign : TextCase → Design.TextCase
  | upper => .upper
  | lower => .lower
  | title => .title
  | original | unknown => .original

/-- The counterpart of a decoration. -/
def TextDecoration.toDesign : TextDecoration → Design.TextDecoration
  | underline => .underline
  | strikethrough => .strikethrough
  | none | unknown => .none

/-- The family of text without one. -/
def defaultFamily : String := "Inter"

/-- The size of text without one. -/
def defaultFontSize : Float := 12.0

/-- The family of a layer's text. -/
def Layer.fontFamily (l : Layer) : String :=
  match l.fontName with
  | some font => if font.family = "" then defaultFamily else font.family
  | none => defaultFamily

/-- The weight of a layer's text: the given one, else the one of its font style. -/
def Layer.textWeight (l : Layer) : Nat :=
  match l.fontWeight with
  | some w =>
    if w > 0.0 then
      Decimal.toClampedNat 65535 (Decimal.clamp (Decimal.roundHalfAway w) 1.0 1000.0)
    else styleWeight ((l.fontName.map (·.style)).getD "")
  | none => styleWeight ((l.fontName.map (·.style)).getD "")

/-- The font size of a layer's text. -/
def Layer.textSize (l : Layer) : Float :=
  match l.fontSize with
  | some size => if size > 0.0 then size else defaultFontSize
  | none => defaultFontSize

/-- The typography of a layer's text. -/
def Layer.typography (l : Layer) : Design.Typography where
  family := l.fontFamily
  weight := l.textWeight
  italic := styleIsItalic ((l.fontName.map (·.style)).getD "")
  size := l.textSize
  lineHeight := l.lineHeight.bind (·.pixels? l.textSize)
  letterSpacing := (l.letterSpacing.map (·.pixels l.textSize)).getD 0.0
  align := l.textAlign.toDesign
  alignVertical := l.textAlignVertical.toDesign
  textCase := l.textCase.toDesign
  decoration := l.textDecoration.toDesign

/-! ## Layers -/

/-- The counterparts among results, in order. -/
def counterparts {α : Type} (results : List (Except Reason α)) : List α :=
  results.filterMap Except.toOption

/-- The reasons among results, in order. -/
def reasons {α : Type} (results : List (Except Reason α)) : List Reason :=
  results.filterMap fun
    | .ok _ => none
    | .error reason => some reason

/-- The fills of a layer that show, each with its counterpart or the reason against one. -/
def Layer.fillResults (s : Settings) (l : Layer) : List (Except Reason Design.Paint) :=
  (l.fills.filter Paint.shows).map (·.toDesign s l.width l.height)

/-- The strokes of a layer that show; a stroke of no weight does not. -/
def Layer.strokeResults (s : Settings) (l : Layer) : List (Except Reason Design.Paint) :=
  if l.strokeWeight > 0.0 then
    (l.strokes.filter Paint.shows).map (·.toDesign s l.width l.height)
  else []

/-- The effects of a layer that show. -/
def Layer.effectResults (s : Settings) (l : Layer) : List (Except Reason Design.Effect) :=
  (l.effects.filter (·.visible)).map (·.toDesign s)

/-- The counterpart of a stroke alignment. -/
def StrokeAlign.toDesign : StrokeAlign → Design.StrokeAlign
  | center => .center
  | outside => .outside
  | inside | unknown => .inside

/-- The style of a layer of the given kind. -/
def Layer.style (s : Settings) (kind : Design.Kind) (l : Layer) : Design.Style :=
  let strokes := counterparts (l.strokeResults s)
  { fills := counterparts (l.fillResults s)
    strokes
    stroke := if strokes.isEmpty then none else some ⟨l.strokeWeight, l.strokeAlign.toDesign⟩
    effects := counterparts (l.effectResults s)
    cornerRadius := l.corners
    opacity := Decimal.clamp l.opacity 0.0 1.0
    clipsContent := l.clipsContent
    text := if kind = .text then some ⟨l.characters.getD "", l.typography⟩ else none }

/-- Why paints and effects of a layer are missing from its style: fills, strokes, then
effects. -/
def Layer.refusals (s : Settings) (l : Layer) : List Reason :=
  reasons (l.fillResults s) ++ reasons (l.strokeResults s) ++ reasons (l.effectResults s)

end Scene

end Handoff
