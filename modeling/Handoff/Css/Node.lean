import Handoff.Css.Style
import Handoff.Design.Node
import Handoff.Text.Lines
import Handoff.Warning

/-!
# Nodes in CSS

The declarations that lay out and paint a node inside its parent.  `declarations` puts
together one list for each aspect of the node, always in the same order;
`omissions` says what of the node has no declaration.
-/

namespace Handoff.Css

open Design (Node Direction Flow Paint Fill)

/-! ## Layout -/

/-- The declarations that place a node. -/
def placement (n : Node) : List Declaration :=
  match n.box.layout.placement with
  | .absolute left top => [⟨"position", "absolute"⟩, ⟨"left", px left⟩, ⟨"top", px top⟩]
  | _ => if n.hasAbsoluteChild then [⟨"position", "relative"⟩] else []

/-- The keyword of a distribution. -/
def justify : Design.Distribution → String
  | .start => "flex-start"
  | .center => "center"
  | .finish => "flex-end"
  | .spaceBetween => "space-between"

/-- The keyword of an alignment. -/
def align : Design.Alignment → String
  | .start => "flex-start"
  | .center => "center"
  | .finish => "flex-end"
  | .baseline => "baseline"

/-- The value of a padding, as short as its symmetry allows. -/
def padding (p : Design.Padding) : String :=
  if p.isUniform then px p.top
  else if p.isSymmetric then px p.top ++ " " ++ px p.left
  else px p.top ++ " " ++ px p.right ++ " " ++ px p.bottom ++ " " ++ px p.left

/-- The keyword of a direction. -/
def flexDirection : Direction → String
  | .horizontal => "row"
  | .vertical => "column"

/-- The declarations of a flow. -/
def flow (f : Flow) : List Declaration :=
  [⟨"display", "flex"⟩,
    ⟨"flex-direction", flexDirection f.direction⟩,
    ⟨"justify-content", justify f.distribution⟩,
    ⟨"align-items", align f.alignment⟩] ++
  (if f.gap > 0.0 then [⟨"gap", px f.gap⟩] else []) ++
  (if f.wraps then [⟨"flex-wrap", "wrap"⟩] else []) ++
  (if f.padding.isZero then [] else [⟨"padding", padding f.padding⟩])

/-- The property of the size along a direction. -/
def sizeProperty : Direction → String
  | .horizontal => "width"
  | .vertical => "height"

/-- The direction of the flow that places a node. -/
def flowAround? (parent : Option Node) (n : Node) : Option Direction :=
  match n.box.layout.placement with
  | .flow => (parent.bind (·.box.layout.flow?)).map (·.direction)
  | _ => none

/-- The fixed size of a node: a line is as thick as its stroke. -/
def fixedSize (n : Node) (axis : Direction) (v : Float) : Float :=
  match n.box.kind.isLine, axis, n.box.style.stroke with
  | true, .vertical, some stroke => stroke.weight
  | _, _, _ => v

/-- The declarations that size a node along an axis. -/
def size (parent : Option Node) (n : Node) (axis : Direction) : List Declaration :=
  match n.box.layout.sizing.along axis with
  | .fixed v =>
    ⟨sizeProperty axis, px (fixedSize n axis v)⟩ ::
      (if flowAround? parent n = some axis then [⟨"flex-shrink", "0"⟩] else [])
  | .hug => []
  | .fill =>
    match n.box.layout.placement with
    | .root => [⟨sizeProperty axis, "100%"⟩]
    | _ =>
      if flowAround? parent n = some axis then [⟨"flex", "1 1 0"⟩]
      else [⟨"align-self", "stretch"⟩]

/-! ## Paint -/

/-- The keyword of a blend mode. -/
def blendMode (m : Design.BlendMode) : String :=
  Text.substitute '_' ['-'] (Design.Enumeration.word m)

/-- One background layer; a plain color has to be a gradient where it is not the only
layer. -/
def layer (n : Node) (single : Bool) (p : Paint) : String :=
  match p.fill with
  | .solid color =>
    let c := color.color.css
    if single then c else "linear-gradient(" ++ c ++ ", " ++ c ++ ")"
  | .linearGradient angle stops => linearGradient angle stops
  | .image _ scaleMode =>
    "url(" ++ n.box.placeholder ++ ")" ++
      match scaleMode with
      | .tile => " repeat"
      | .fit => " center / contain no-repeat"
      | .fill | .crop => " center / cover no-repeat"

/-- The background of a stack of fills, the topmost first. -/
def backgroundValue (n : Node) (fills : List Paint) : String :=
  ", ".intercalate (fills.reverse.map (layer n (fills.length == 1)))

/-- Whether a paint mixes with what lies under it. -/
def blends (p : Paint) : Bool := p.blendMode != .normal

/-- The declarations of a stack of fills. -/
def background (n : Node) (fills : List Paint) : List Declaration :=
  if fills.isEmpty then []
  else
    ⟨"background", backgroundValue n fills⟩ ::
      (if fills.any blends then
        match fills with
        | [single] => [⟨"mix-blend-mode", blendMode single.blendMode⟩]
        | _ =>
          [⟨"background-blend-mode",
            ", ".intercalate (fills.reverse.map (blendMode ·.blendMode))⟩]
      else [])

/-- The declarations of the fill of text; a gradient shows through its letters. -/
def textPaint (fills : List Paint) : List Declaration :=
  match fills.getLast?.map Paint.fill with
  | some (.solid color) => [⟨"color", color.color.css⟩]
  | some (.linearGradient angle stops) =>
    [⟨"background", linearGradient angle stops⟩,
      ⟨"-webkit-background-clip", "text"⟩,
      ⟨"background-clip", "text"⟩,
      ⟨"color", "transparent"⟩]
  | some (.image _ _) | none => []

/-- The declarations of the topmost stroke. -/
def border (n : Node) : List Declaration :=
  match n.box.style.stroke, n.box.style.strokes.getLast? with
  | some stroke, some top =>
    match top.fill with
    | .solid color =>
      let value := px stroke.weight ++ " solid " ++ color.color.css
      match stroke.align with
      | .outside => [⟨"outline", value⟩]
      | .inside => [⟨"border", value⟩, ⟨"box-sizing", "border-box"⟩]
      | .center => [⟨"border", value⟩]
    | .linearGradient angle stops =>
      [⟨"border", px stroke.weight ++ " solid"⟩,
        ⟨"border-image", linearGradient angle stops ++ " 1"⟩]
    | .image _ _ => []
  | _, _ => []

/-- What of the strokes has no declaration. -/
def borderOmissions (n : Node) : List Reason :=
  match n.box.style.stroke with
  | none => []
  | some _ =>
    (if n.box.style.strokes.length > 1 then [.multipleStrokes] else []) ++
    (match n.box.style.strokes.getLast?.map Paint.fill with
      | some (.image _ _) => [.imageStroke]
      | _ => [])

/-! ## Text -/

/-- The declarations that push text down in a box of fixed height. -/
def textBox (n : Node) (t : Design.Typography) : List Declaration :=
  let place (v : String) : List Declaration :=
    if n.box.layout.sizing.vertical.fixed?.isSome then
      [⟨"display", "flex"⟩, ⟨"flex-direction", "column"⟩, ⟨"justify-content", v⟩]
    else []
  match t.alignVertical with
  | .top => []
  | .center => place "center"
  | .bottom => place "flex-end"

/-- The declarations of the text of a node. -/
def text (n : Node) (t : Design.TextStyle) : List Declaration :=
  textPaint n.box.style.fills ++ typography t.typography ++ textBox n t.typography ++
  (if n.box.layout.sizing.horizontal.isHug then [⟨"white-space", "nowrap"⟩] else [])

/-- What of the fill of text has no declaration. -/
def textOmissions (n : Node) : List Reason :=
  match n.box.style.fills.getLast?.map Paint.fill with
  | some (.image _ _) => [.textImageFill]
  | _ => []

/-- The declarations of what fills a node: its text, its line, or its background and
border. -/
def content (n : Node) : List Declaration :=
  match n.box.style.text with
  | some t => text n t
  | none =>
    if n.box.kind.isLine then
      optional "background" (n.box.style.topSolidStroke?.map (·.color.css))
    else if n.box.kind = .image then []
    else background n n.box.style.fills ++ border n

/-- What of the contents of a node has no declaration. -/
def contentOmissions (n : Node) : List Reason :=
  match n.box.style.text with
  | some _ => textOmissions n
  | none =>
    if n.box.kind.isLine ∨ n.box.kind = .image then [] else borderOmissions n

/-! ## Corners and effects -/

/-- The declaration of the corners. -/
def corners (n : Node) : List Declaration :=
  if n.box.kind = .vector .ellipse then [⟨"border-radius", "50%"⟩]
  else
    match n.box.style.cornerRadius with
    | .none => []
    | .uniform r => [⟨"border-radius", px r⟩]
    | .perCorner tl tr br bl =>
      [⟨"border-radius", " ".intercalate ([tl, tr, br, bl].map px)⟩]

/-- The value of a box shadow. -/
def boxShadow (inset : Bool) (s : Design.Shadow) : String :=
  (if inset then "inset " else "") ++ px s.offsetX ++ " " ++ px s.offsetY ++ " " ++
    px s.blur ++ " " ++ px s.spread ++ " " ++ s.color.color.css

/-- The value of a text shadow. -/
def textShadow (s : Design.Shadow) : String :=
  px s.offsetX ++ " " ++ px s.offsetY ++ " " ++ px s.blur ++ " " ++ s.color.color.css

/-- The declaration of a blur. -/
def blur : Design.Effect → List Declaration
  | .layerBlur radius => [⟨"filter", "blur(" ++ px (radius / 2.0) ++ ")"⟩]
  | .backgroundBlur radius => [⟨"backdrop-filter", "blur(" ++ px (radius / 2.0) ++ ")"⟩]
  | .dropShadow _ | .innerShadow _ => []

/-- The box shadow of an effect. -/
def boxShadow? : Design.Effect → Option String
  | .dropShadow s => some (boxShadow false s)
  | .innerShadow s => some (boxShadow true s)
  | .layerBlur _ | .backgroundBlur _ => none

/-- The text shadow of an effect; there is none inside letters. -/
def textShadow? : Design.Effect → Option String
  | .dropShadow s => some (textShadow s)
  | .innerShadow _ | .layerBlur _ | .backgroundBlur _ => none

/-- A list of values as one declaration. -/
def joined (property : String) (values : List String) : List Declaration :=
  if values.isEmpty then [] else [⟨property, ", ".intercalate values⟩]

/-- The declarations of the effects: blurs one by one, then the shadows together. -/
def effects (n : Node) : List Declaration :=
  n.box.style.effects.flatMap blur ++
  (if n.box.kind = .text then
    joined "text-shadow" (n.box.style.effects.filterMap textShadow?)
  else joined "box-shadow" (n.box.style.effects.filterMap boxShadow?))

/-- What of the effects has no declaration. -/
def effectOmissions (n : Node) : List Reason :=
  n.box.style.effects.filterMap fun
    | .innerShadow _ => if n.box.kind = .text then some .textInnerShadow else none
    | _ => none

/-- The declarations of opacity, clipping and rotation. -/
def finish (n : Node) : List Declaration :=
  (if n.box.style.opacity < 1.0 then [⟨"opacity", Decimal.plain n.box.style.opacity⟩] else []) ++
  (if n.box.style.clipsContent then [⟨"overflow", "hidden"⟩] else []) ++
  (if n.box.geometry.rotation != 0.0 then
    [⟨"transform", "rotate(" ++ Decimal.plain (-n.box.geometry.rotation) ++ "deg)"⟩,
      ⟨"transform-origin", "top left"⟩]
  else [])

/-! ## All together -/

/-- The declarations of a node inside its parent. -/
def declarations (parent : Option Node) (n : Node) : List Declaration :=
  settle
    (placement n ++
      (match n.box.layout.mode with
        | .flow f => flow f
        | .absolute => []) ++
      size parent n .horizontal ++ size parent n .vertical ++ content n ++ corners n ++
      effects n ++ finish n)

/-- What of a node has no declaration. -/
def omissions (n : Node) : List Reason :=
  contentOmissions n ++ effectOmissions n

end Handoff.Css
