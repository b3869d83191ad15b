import Handoff.Swift.Value
import Handoff.Swift.View

/-!
# The views of nodes

`base` is the view for what a node is, given the views of its children; `modifiers` are
applied to it in a fixed order.  `view` follows these steps down the tree.

`warnings` says what of the nodes has no view, in the order in which they are worked
through.
-/

namespace Handoff.Swift

open Decimal (plain)
open Design (Node Box Direction Flow Paint Fill Extent)

/-! ## Leaves -/

/-- Whether a node is drawn as a bare shape. -/
def isShape (n : Node) : Bool :=
  (match n.box.kind with
    | .vector _ => true
    | _ => false) && n.children.isEmpty

/-- Whether a node becomes a view without the views of its children. -/
def isLeaf (n : Node) : Bool :=
  n.box.style.text.isSome || n.box.kind == .image || n.box.kind.isLine || isShape n

/-- The modifier of the topmost fill of text. -/
def textFill (fills : List Paint) : List String :=
  match fills.getLast?.map Paint.fill with
  | some (.solid c) => ["foregroundColor(" ++ color c ++ ")"]
  | some (.linearGradient angle stops) =>
    ["foregroundStyle(" ++ linearGradient angle stops ++ ")"]
  | some (.image _ _) | none => []

/-- The modifier of a horizontal alignment. -/
def textAlign : Design.TextAlign → List String
  | .left | .justified => []
  | .center => ["multilineTextAlignment(.center)"]
  | .right => ["multilineTextAlignment(.trailing)"]

/-- The view of a text. -/
def textView (b : Box) (t : Design.TextStyle) : View :=
  (View.leaf ("Text(" ++ literal (t.typography.textCase.apply t.characters) ++ ")")).modified
    (typography t.typography ++ textFill b.style.fills ++ textAlign t.typography.align)

/-- The view of an image. -/
def imageView (b : Box) : View :=
  .leaf ("AsyncImage(url: URL(string: " ++ placeholder b ++ "))")

/-- The view of a line. -/
def lineView (b : Box) : View :=
  (View.leaf "Rectangle()").modified
    (b.style.topSolidStroke?.toList.map fun c => "fill(" ++ color c ++ ")")

/-- The view of a shape, filled with its topmost fill. -/
def shapeView (b : Box) : View :=
  (View.leaf (shape b)).modified
    (b.style.fills.getLast?.toList.map fun p => "fill(" ++ fillStyle b p.fill ++ ")")

/-! ## Stacks -/

/-- The alignment across a flow. -/
def stackAlignment (direction : Direction) (a : Design.Alignment) : String :=
  match direction, a with
  | .horizontal, .start => ".top"
  | .horizontal, .center => ".center"
  | .horizontal, .finish => ".bottom"
  | .horizontal, .baseline => ".firstTextBaseline"
  | .vertical, .start | .vertical, .baseline => ".leading"
  | .vertical, .center => ".center"
  | .vertical, .finish => ".trailing"

/-- The name of the stack of a flow. -/
def stackName : Direction → String
  | .horizontal => "HStack"
  | .vertical => "VStack"

/-- The head of the stack of a flow. -/
def stackHead (f : Flow) (spacing : String) : String :=
  stackName f.direction ++ "(alignment: " ++ stackAlignment f.direction f.alignment ++
    ", spacing: " ++ spacing ++ ")"

/-- The view that takes the free space between two others. -/
def spacer : View := .leaf "Spacer()"

/-- The view of a flow; free space between items goes into spacers. -/
def stackView (f : Flow) (children : List View) : View :=
  if f.distribution = .spaceBetween then
    .group (stackHead f "0") (children.intersperse spacer)
  else .group (stackHead f (plain f.gap)) children

/-- Views on top of each other. -/
def layered (children : List View) : View :=
  .group "ZStack(alignment: .topLeading)" children

/-- The view of a container, given its children with their views.  In a flow those placed
at an offset lie on top of the others. -/
def containerView (b : Box) (views : List (Node × View)) : View :=
  if views.isEmpty then .leaf "Color.clear"
  else
    match b.layout.mode with
    | .flow f =>
      let stack := stackView f (Node.placedAs false views)
      match Node.placedAs true views with
      | [] => stack
      | positioned => layered (stack :: positioned)
    | .absolute => layered (views.map (·.2))

/-- The view for what a node is, given its children with their views. -/
def base (n : Node) (views : List (Node × View)) : View :=
  match n.box.style.text with
  | some t => textView n.box t
  | none =>
    if n.box.kind = .image then imageView n.box
    else if n.box.kind.isLine then lineView n.box
    else if isShape n then shapeView n.box
    else containerView n.box views

/-! ## Modifiers -/

/-- Where contents lie on one axis of a larger frame. -/
inductive Place where
  | near
  | middle
  | far
deriving DecidableEq

/-- The place of a distribution. -/
def Place.ofDistribution : Design.Distribution → Place
  | .start | .spaceBetween => near
  | .center => middle
  | .finish => far

/-- The place of an alignment. -/
def Place.ofAlignment : Design.Alignment → Place
  | .start | .baseline => near
  | .center => middle
  | .finish => far

/-- The places of the contents of a node: horizontal, then vertical. -/
def places (b : Box) : Place × Place :=
  match b.style.text with
  | some t =>
    (match t.typography.align with
      | .center => .middle
      | .right => .far
      | .left | .justified => .near,
    match t.typography.alignVertical with
      | .top => .near
      | .center => .middle
      | .bottom => .far)
  | none =>
    match b.layout.mode with
    | .absolute => (.near, .near)
    | .flow f =>
      let main := Place.ofDistribution f.distribution
      let cross := Place.ofAlignment f.alignment
      match f.direction with
      | .horizontal => (main, cross)
      | .vertical => (cross, main)

/-- The name of an alignment in a frame; in the middle needs none. -/
def frameAlignment? (b : Box) : Option String :=
  match places b with
  | (.near, .near) => some ".topLeading"
  | (.middle, .near) => some ".top"
  | (.far, .near) => some ".topTrailing"
  | (.near, .middle) => some ".leading"
  | (.middle, .middle) => none
  | (.far, .middle) => some ".trailing"
  | (.near, .far) => some ".bottomLeading"
  | (.middle, .far) => some ".bottom"
  | (.far, .far) => some ".bottomTrailing"

/-- The height of a node: a line is as thick as its stroke. -/
def frameHeight (b : Box) : Extent :=
  match b.kind.isLine, b.style.stroke, b.layout.sizing.vertical with
  | true, some stroke, .fixed _ => .fixed stroke.weight
  | _, _, vertical => vertical

/-- The arguments of a frame on one axis; with a flexible frame a fixed size is a least and
a greatest one. -/
def frameArgs (flexible : Bool) (plainName boundName : String) : Extent → List String
  | .fixed v =>
    if flexible then
      ["min" ++ boundName ++ ": " ++ plain v, "max" ++ boundName ++ ": " ++ plain v]
    else [plainName ++ ": " ++ plain v]
  | .fill => ["max" ++ boundName ++ ": .infinity"]
  | .hug => []

/-- The frame of a node, unless it hugs its contents on both axes. -/
def frame (n : Node) : List String :=
  let b := n.box
  let width := b.layout.sizing.horizontal
  let height := frameHeight b
  let flexible := width.isFill || height.isFill
  let args := frameArgs flexible "width" "Width" width ++
    frameArgs flexible "height" "Height" height
  if args.isEmpty then []
  else
    let alignment :=
      if n.children.isEmpty ∧ b.style.text.isNone then none else frameAlignment? b
    ["frame(" ++ ", ".intercalate
      (args ++ alignment.toList.map ("alignment: " ++ ·)) ++ ")"]

/-- The view of one fill under a container. -/
def fillLayer (b : Box) (p : Paint) : View :=
  match p.fill with
  | .solid c =>
    if isRectangle b then .leaf (color c)
    else (View.leaf (shape b)).modified ["fill(" ++ color c ++ ")"]
  | .linearGradient angle stops =>
    (View.leaf (shape b)).modified ["fill(" ++ linearGradient angle stops ++ ")"]
  | .image _ _ =>
    if isRectangle b then imageView b
    else (imageView b).modified ["clipShape(" ++ shape b ++ ")"]

/-- The fills under a container. -/
def background (b : Box) : List String :=
  match b.style.fills with
  | [] => []
  | [single] => ["background(" ++ (fillLayer b single).render 0 ++ ")"]
  | fills => ["background(" ++ (View.group "ZStack" (fills.map (fillLayer b))).render 0 ++ ")"]

/-- The paint of a stroke. -/
def strokePaint? : Fill → Option String
  | .solid c => some (color c)
  | .linearGradient angle stops => some (linearGradient angle stops)
  | .image _ _ => none

/-- The topmost stroke over a node. -/
def stroke (b : Box) : List String :=
  match b.style.stroke, (b.style.strokes.getLast?.map Paint.fill).bind strokePaint? with
  | some s, some paint =>
    let line := paint ++ ", lineWidth: " ++ plain s.weight ++ ")"
    match s.align with
    | .inside => ["overlay(" ++ shape b ++ ".strokeBorder(" ++ line ++ ")"]
    | .center => ["overlay(" ++ shape b ++ ".stroke(" ++ line ++ ")"]
    | .outside =>
      ["overlay(" ++ shape b ++ ".stroke(" ++ line ++ ".padding(-" ++ plain (s.weight / 2.0) ++
        "))"]
  | _, _ => []

/-- The modifier of an effect. -/
def effect : Design.Effect → List String
  | .dropShadow s =>
    ["shadow(color: " ++ color s.color ++ ", radius: " ++ plain (s.blur / 2.0) ++ ", x: " ++
      plain s.offsetX ++ ", y: " ++ plain s.offsetY ++ ")"]
  | .layerBlur radius => ["blur(radius: " ++ plain (radius / 2.0) ++ ")"]
  | .innerShadow _ | .backgroundBlur _ => []

/-- The offset of a node that is placed at one. -/
def placement : Design.Placement → List String
  | .absolute left top => ["offset(x: " ++ plain left ++ ", y: " ++ plain top ++ ")"]
  | .root | .flow => []

/-- The modifiers of a node.  The padding lies inside the frame and the background. -/
def modifiers (n : Node) : List String :=
  let b := n.box
  (match b.layout.flow? with
    | some f => padding f.padding
    | none => []) ++
  frame n ++
  (if b.style.text.isNone && !isShape n && b.kind != .image then background b else []) ++
  (if b.kind.isLine then [] else stroke b) ++
  (if b.style.clipsContent || (b.kind == .image && !isRectangle b) then
    ["clipShape(" ++ shape b ++ ")"]
  else []) ++
  b.style.effects.flatMap effect ++
  (if b.style.opacity < 1.0 then ["opacity(" ++ plain b.style.opacity ++ ")"] else []) ++
  (if b.geometry.rotation != 0.0 then
    ["rotationEffect(.degrees(" ++ plain (-b.geometry.rotation) ++ "), anchor: .topLeading)"]
  else []) ++
  placement b.layout.placement

/-- The comment that names a layer. -/
def commentOf (names : Bool) (b : Box) : Option String :=
  if names then b.name.map (Text.substitute '\n' [' ']) else none

mutual

/-- The view of a node. -/
def view (names : Bool) : Node → View
  | .mk box children =>
    let n := Node.mk box children
    ((base n (childViews names children)).modified (modifiers n)).commented (commentOf names box)

/-- The nodes of a list with their views. -/
def childViews (names : Bool) : List Node → List (Node × View)
  | [] => []
  | n :: rest => (n, view names n) :: childViews names rest

end

/-! ## Warnings -/

/-- What of the flow of a container has no view. -/
def flowOmissions (n : Node) : List Reason :=
  match n.box.layout.flow? with
  | some f => if f.wraps && !n.children.isEmpty then [.wrapping] else []
  | none => []

/-- What of the contents of a node has no view. -/
def contentOmissions (n : Node) : List Reason :=
  match n.box.style.text with
  | some _ =>
    match n.box.style.fills.getLast?.map Paint.fill with
    | some (.image _ _) => [.textImageFill]
    | _ => []
  | none =>
    if n.box.kind = .image ∨ n.box.kind.isLine then []
    else if isShape n then
      if n.box.style.fills.length > 1 then [.multipleFills] else []
    else flowOmissions n

/-- What of the strokes of a node has no view. -/
def strokeOmissions (b : Box) : List Reason :=
  match b.kind.isLine, b.style.stroke, b.style.strokes.getLast?.map Paint.fill with
  | false, some _, some top =>
    (if b.style.strokes.length > 1 then [.multipleStrokes] else []) ++
    (match top with
      | .image _ _ => [.imageStroke]
      | _ => [])
  | _, _, _ => []

/-- What of an effect has no view. -/
def effectOmissions : Design.Effect → List Reason
  | .dropShadow s => if s.spread != 0.0 then [.shadowSpread] else []
  | .innerShadow _ => [.innerShadow]
  | .layerBlur _ => []
  | .backgroundBlur _ => [.backgroundBlur]

mutual

/-- What of a node and those below it has no view. -/
def warnings : Node → List Warning
  | .mk box children =>
    let n := Node.mk box children
    Warning.about box.id box.unsupported ++
      (if isLeaf n then [] else listWarnings children) ++
      Warning.about box.id
        (contentOmissions n ++ strokeOmissions box ++ box.style.effects.flatMap effectOmissions)

/-- What of the nodes of a list has no view. -/
def listWarnings : List Node → List Warning
  | [] => []
  | n :: rest => warnings n ++ listWarnings rest

end

end Handoff.Swift
