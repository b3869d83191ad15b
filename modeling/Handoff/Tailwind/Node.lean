import Handoff.Markup.Element
import Handoff.Design.TextGroup
import Handoff.Tailwind.Utility

/-!
# Nodes in Tailwind

The classes that lay out and paint a node inside its parent, one list for each aspect of
the node.  `classes` puts them together, `omissions` says what of the node has no class.
-/

namespace Handoff.Tailwind

open Design (Node Direction Flow Paint Fill)

/-! ## Layout -/

/-- The class of a distance. -/
def spacing (rounding : Bool) (stem : String) (v : Float) : Utility :=
  ⟨stem, scaled rounding spacingScale v⟩

/-- The classes that place a node. -/
def placement (rounding : Bool) (n : Node) : List Utility :=
  match n.box.layout.placement with
  | .absolute left top =>
    [.bare "absolute", spacing rounding "left" left, spacing rounding "top" top]
  | _ => if n.hasAbsoluteChild then [.bare "relative"] else []

/-- The word for a distribution. -/
def justify : Design.Distribution → String
  | .start => "start"
  | .center => "center"
  | .finish => "end"
  | .spaceBetween => "between"

/-- The word for an alignment. -/
def items : Design.Alignment → String
  | .start => "start"
  | .center => "center"
  | .finish => "end"
  | .baseline => "baseline"

/-- The class of a distance that is only written when there is some. -/
def positive (rounding : Bool) (stem : String) (v : Float) : List Utility :=
  if v > 0.0 then [spacing rounding stem v] else []

/-- The classes of a padding, as few as its symmetry allows. -/
def padding (rounding : Bool) (p : Design.Padding) : List Utility :=
  if p.isZero then []
  else if p.isUniform then [spacing rounding "p" p.top]
  else if p.isSymmetric then positive rounding "px" p.left ++ positive rounding "py" p.top
  else
    positive rounding "pt" p.top ++ positive rounding "pr" p.right ++
      positive rounding "pb" p.bottom ++ positive rounding "pl" p.left

/-- The classes of a flow. -/
def flow (rounding : Bool) (f : Flow) : List Utility :=
  [.bare "flex"] ++ (if f.direction = .vertical then [.named "flex" "col"] else []) ++
  [.named "justify" (justify f.distribution), .named "items" (items f.alignment)] ++
  positive rounding "gap" f.gap ++ (if f.wraps then [.named "flex" "wrap"] else []) ++
  padding rounding f.padding

/-- The stem of the size along a direction. -/
def sizeStem : Direction → String
  | .horizontal => "w"
  | .vertical => "h"

/-- The classes that size a node along an axis. -/
def size (rounding : Bool) (parent : Option Node) (n : Node) (axis : Direction) :
    List Utility :=
  match n.box.layout.sizing.along axis with
  | .fixed v =>
    spacing rounding (sizeStem axis) (Css.fixedSize n axis v) ::
      (if Css.flowAround? parent n = some axis then [.named "shrink" "0"] else [])
  | .hug => []
  | .fill =>
    match n.box.layout.placement with
    | .root => [.named (sizeStem axis) "full"]
    | _ =>
      if Css.flowAround? parent n = some axis then [.named "flex" "1"]
      else [.named "self" "stretch"]

/-! ## Text -/

/-- A family name inside a class. -/
def family (name : String) : String :=
  if name.toList.contains ' ' then "['" ++ Text.substitute ' ' ['_'] name ++ "']"
  else "[" ++ name ++ "]"

/-- A weight by its name if it is a hundred, in brackets otherwise. -/
def weight (w : Nat) : String :=
  if w % 100 = 0 then Design.weightName w else "[" ++ toString w ++ "]"

/-- A line height as a step of four pixels if it is one from three to ten. -/
def leading (height : Float) : String :=
  let steps := height / 4.0
  if Decimal.isWhole steps ∧ steps ≥ 3.0 ∧ steps ≤ 10.0 then
    toString (Decimal.toClampedNat (UInt32.size - 1) steps)
  else "[" ++ Css.px height ++ "]"

/-- The class of a case transform. -/
def textCase : Design.TextCase → List Utility
  | .original => []
  | .upper => [.bare "uppercase"]
  | .lower => [.bare "lowercase"]
  | .title => [.bare "capitalize"]

/-- The class of a decoration. -/
def decoration : Design.TextDecoration → List Utility
  | .none => []
  | .underline => [.bare "underline"]
  | .strikethrough => [.named "line" "through"]

/-- The class of a horizontal alignment. -/
def textAlign : Design.TextAlign → List Utility
  | .left => []
  | .center => [.named "text" "center"]
  | .right => [.named "text" "right"]
  | .justified => [.named "text" "justify"]

/-- The classes of a typography. -/
def typography (rounding : Bool) (t : Design.Typography) : List Utility :=
  [.named "font" (family t.family), ⟨"text", scaled rounding fontSizeScale t.size⟩,
    .named "font" (weight t.weight)] ++
  (if t.italic then [.bare "italic"] else []) ++
  (t.lineHeight.toList.map fun h => .named "leading" (leading h)) ++
  (if t.letterSpacing != 0.0 then
    [.named "tracking" ("[" ++ Css.px t.letterSpacing ++ "]")]
  else []) ++
  textAlign t.align ++ textCase t.textCase ++ decoration t.decoration

/-- The classes of the fill of text; a gradient shows through its letters. -/
def textPaint (fills : List Paint) : List Utility :=
  match fills.getLast?.map Paint.fill with
  | some (.solid c) => [.named "text" (color c)]
  | some (.linearGradient angle stops) =>
    gradient angle stops ++ [.named "bg" "clip-text", .named "text" "transparent"]
  | some (.image _ _) | none => []

/-- The classes that push text down in a box of fixed height. -/
def textBox (n : Node) (t : Design.Typography) : List Utility :=
  let place (word : String) : List Utility :=
    if n.box.layout.sizing.vertical.fixed?.isSome then
      [.bare "flex", .named "flex" "col", .named "justify" word]
    else []
  match t.alignVertical with
  | .top => []
  | .center => place "center"
  | .bottom => place "end"

/-- The classes of the text of a node. -/
def text (rounding : Bool) (n : Node) (t : Design.TextStyle) : List Utility :=
  textPaint n.box.style.fills ++ typography rounding t.typography ++ textBox n t.typography ++
  (if n.box.layout.sizing.horizontal.isHug then [.named "whitespace" "nowrap"] else [])

/-! ## Paint -/

/-- The classes of an image as background. -/
def image (n : Node) (scaleMode : Design.ScaleMode) : List Utility :=
  .named "bg" ("[url(" ++ n.box.placeholder ++ ")]") ::
    match scaleMode with
    | .tile => [.named "bg" "repeat"]
    | .fit => [.named "bg" "contain", .named "bg" "center", .named "bg" "no-repeat"]
    | .fill | .crop => [.named "bg" "cover", .named "bg" "center", .named "bg" "no-repeat"]

/-- The classes of the background. -/
def fillClasses (n : Node) : List Paint → List Utility
  | [] => []
  | [single] =>
    match single.fill with
    | .solid c => [.named "bg" (color c)]
    | .linearGradient angle stops => gradient angle stops
    | .image _ scaleMode => image n scaleMode
  | fills => [.bare ("[background:" ++ arbitrary (Css.backgroundValue n fills) ++ "]")]

/-- The class of the blend modes of a stack of fills. -/
def blend (fills : List Paint) : List Utility :=
  if fills.any Css.blends then
    match fills with
    | [single] => [.named "mix-blend" (Css.blendMode single.blendMode)]
    | _ =>
      [.bare ("[background-blend-mode:" ++
        ",".intercalate (fills.reverse.map (Css.blendMode ·.blendMode)) ++ "]")]
  else []

/-- The classes of the topmost stroke. -/
def border (rounding : Bool) (n : Node) : List Utility :=
  match n.box.style.stroke, n.box.style.strokes.getLast? with
  | some stroke, some top =>
    match top.fill with
    | .solid c =>
      if stroke.align = .outside then
        [.bare "outline", ⟨"outline", scaled rounding outlineScale stroke.weight⟩,
          .named "outline" (color c)]
      else [⟨"border", scaled rounding borderScale stroke.weight⟩, .named "border" (color c)]
    | .linearGradient angle stops =>
      [⟨"border", scaled rounding borderScale stroke.weight⟩,
        .bare ("[border-image:" ++ arbitrary (Css.linearGradient angle stops) ++ "_1]")]
    | .image _ _ => []
  | _, _ => []

/-- The classes of what fills a node: its text, its line, or its background and border. -/
def content (rounding : Bool) (n : Node) : List Utility :=
  match n.box.style.text with
  | some t => text rounding n t
  | none =>
    if n.box.kind.isLine then
      n.box.style.topSolidStroke?.toList.map fun c => .named "bg" (color c)
    else if n.box.kind = .image then []
    else fillClasses n n.box.style.fills ++ blend n.box.style.fills ++ border rounding n

/-! ## Corners and effects -/

/-- The class of a corner that is rounded. -/
def corner (rounding : Bool) (stem : String) (r : Float) : List Utility :=
  if r > 0.0 then [⟨stem, scaled rounding radiusScale r⟩] else []

/-- The classes of the corners. -/
def corners (rounding : Bool) (n : Node) : List Utility :=
  if n.box.kind = .vector .ellipse then [.named "rounded" "full"]
  else
    match n.box.style.cornerRadius with
    | .none => []
    | .uniform r => [⟨"rounded", scaled rounding radiusScale r⟩]
    | .perCorner tl tr br bl =>
      corner rounding "rounded-tl" tl ++ corner rounding "rounded-tr" tr ++
        corner rounding "rounded-br" br ++ corner rounding "rounded-bl" bl

/-- The class of a blur. -/
def blur (rounding : Bool) : Design.Effect → List Utility
  | .layerBlur radius => [⟨"blur", scaled rounding blurScale (radius / 2.0)⟩]
  | .backgroundBlur radius => [⟨"backdrop-blur", scaled rounding blurScale (radius / 2.0)⟩]
  | .dropShadow _ | .innerShadow _ => []

/-- The classes of the effects: blurs one by one, then the shadows together. -/
def effects (rounding : Bool) (n : Node) : List Utility :=
  let shadows := n.box.style.effects.filterMap Css.boxShadow?
  let textShadows := n.box.style.effects.filterMap Css.textShadow?
  n.box.style.effects.flatMap (blur rounding) ++
  (if n.box.kind = .text then
    if textShadows.isEmpty then []
    else [.bare ("[text-shadow:" ++ arbitrary (",".intercalate textShadows) ++ "]")]
  else
    if shadows.isEmpty then []
    else [.named "shadow" ("[" ++ arbitrary (",".intercalate shadows) ++ "]")])

/-- The classes of opacity, clipping and rotation. -/
def finish (n : Node) : List Utility :=
  (if n.box.style.opacity < 1.0 then [.named "opacity" (percent n.box.style.opacity)] else []) ++
  (if n.box.style.clipsContent then [.named "overflow" "hidden"] else []) ++
  (if n.box.geometry.rotation != 0.0 then
    [rotation (-n.box.geometry.rotation), .named "origin" "top-left"]
  else [])

/-! ## All together -/

/-- The classes of a node inside its parent. -/
def classes (rounding : Bool) (parent : Option Node) (n : Node) : List Utility :=
  placement rounding n ++
    (match n.box.layout.mode with
      | .flow f => flow rounding f
      | .absolute => []) ++
    size rounding parent n .horizontal ++ size rounding parent n .vertical ++
    content rounding n ++ corners rounding n ++ effects rounding n ++ finish n

/-- What of the strokes of a node has no class: all but the topmost, and an image. -/
def strokeOmissions (n : Node) : List Reason :=
  if n.box.style.stroke.isNone then []
  else
    match n.box.style.strokes.reverse with
    | [] => []
    | top :: others =>
      (if others.isEmpty then [] else [.multipleStrokes]) ++
      match top.fill with
      | .image _ _ => [.imageStroke]
      | _ => []

/-- What of the contents of a node has no class. -/
def contentOmissions (n : Node) : List Reason :=
  match n.box.style.text, n.box.kind with
  | some _, _ =>
    match n.box.style.fills.reverse with
    | ⟨.image _ _, _, _⟩ :: _ => [.textImageFill]
    | _ => []
  | none, .vector .line => []
  | none, .image => []
  | none, _ => strokeOmissions n

/-- Whether an effect is a shadow inside a shape. -/
def isInnerShadow : Design.Effect → Bool
  | .innerShadow _ => true
  | _ => false

/-- What of a node has no class. -/
def omissions (n : Node) : List Reason :=
  contentOmissions n ++
    if n.box.kind = .text then
      (n.box.style.effects.filter isInnerShadow).map fun _ => .textInnerShadow
    else []

end Handoff.Tailwind
