import Handoff.Dart.Value

/-!
# Widgets

The widget of a node.  `base` is the widget for what the node is, given the widgets of
its children; `wrapped` puts the widgets for its effects around that; `placed` is the
widget that its parent holds.  `widget` follows these steps down the tree.

`warnings` says what of the nodes has no widget, in the order in which they are worked
through: a node's own paints come after its children.
-/

namespace Handoff.Dart

open Design (Node Box Direction Flow Paint Fill)
open Handoff.Dart.Expr (raw call list commented)

/-! ## Leaves -/

/-- Whether a node becomes a widget without widgets in it. -/
def isLeaf (b : Box) : Bool :=
  b.style.text.isSome || b.kind == .image || b.kind.isLine

/-- Whether the parent makes a node take its share of the flow around it. -/
def expands (parent : Option Node) (n : Node) (axis : Direction) : Bool :=
  match n.box.layout.placement, parent.bind (·.box.layout.flow?) with
  | .flow, some f => !f.wraps && f.direction == axis
  | _, _ => false

/-- The size of a node along an axis; none where the widget or its parent sees to it. -/
def size? (parent : Option Node) (n : Node) (axis : Direction) : Option Expr :=
  match n.box.layout.sizing.along axis with
  | .fixed v => some (number v)
  | .hug => none
  | .fill => if expands parent n axis then none else some (raw "double.infinity")

/-- The shadow of letters. -/
def textShadow? : Design.Effect → Option Expr
  | .dropShadow s =>
    some (call "Shadow"
      (arg "color" (raw (color s.color)) ++ arg "offset" (offset s.offsetX s.offsetY) ++
        arg "blurRadius" (number s.blur)))
  | _ => none

/-- The shadow of a box. -/
def boxShadow? : Design.Effect → Option Expr
  | .dropShadow s =>
    some (call "BoxShadow"
      (arg "color" (raw (color s.color)) ++ arg "offset" (offset s.offsetX s.offsetY) ++
        arg "blurRadius" (number s.blur) ++ arg "spreadRadius" (number s.spread)))
  | _ => none

/-- A list as an argument, unless it is empty. -/
def argList (name : String) (items : List Expr) : List Arg :=
  if items.isEmpty then [] else arg name (list items)

/-- The color of the topmost fill, if it is one color. -/
def topColor? (fills : List Paint) : Option Expr :=
  match fills.getLast?.map Paint.fill with
  | some (.solid c) => some (raw (color c))
  | _ => none

/-- The alignment of text other than left. -/
def textAlign? : Design.TextAlign → Option Expr
  | .left => none
  | .center => some (raw "TextAlign.center")
  | .right => some (raw "TextAlign.right")
  | .justified => some (raw "TextAlign.justify")

/-- A widget in a box of the sizes there are. -/
def sized (width height : Option Expr) (child : Expr) : Expr :=
  if width.isNone ∧ height.isNone then child
  else call "SizedBox" (argOpt "width" width ++ argOpt "height" height ++ arg "child" child)

/-- The widget of a text. -/
def textWidget (parent : Option Node) (n : Node) (t : Design.TextStyle) : Expr :=
  let style := call "TextStyle"
    (textStyleArgs t.typography ++ argOpt "color" (topColor? n.box.style.fills) ++
      argList "shadows" (n.box.style.effects.filterMap textShadow?))
  let text := call "Text"
    (positional (raw (literal (t.typography.textCase.apply t.characters))) ++
      argOpt "textAlign" (textAlign? t.typography.align) ++ arg "style" style)
  sized (size? parent n .horizontal) (size? parent n .vertical) text

/-- The widget of an image. -/
def imageWidget (b : Box) : Expr :=
  let image := call "Image.network"
    (positional (raw ("'" ++ b.placeholder ++ "'")) ++
      argOpt "width" (b.layout.sizing.horizontal.fixed?.map number) ++
      argOpt "height" (b.layout.sizing.vertical.fixed?.map number) ++
      arg "fit" (raw "BoxFit.cover"))
  match borderRadius? b.style.cornerRadius with
  | some radius => call "ClipRRect" (arg "borderRadius" radius ++ arg "child" image)
  | none => image

/-- The widget of a line. -/
def lineWidget (parent : Option Node) (n : Node) : Expr :=
  call "Container"
    (argOpt "width" (size? parent n .horizontal) ++
      argOpt "height" (n.box.style.stroke.map fun s => number s.weight) ++
      argOpt "color" (n.box.style.topSolidStroke?.map fun c => raw (color c)))

/-! ## Decoration -/

/-- The argument for the topmost fill. -/
def fillArg (b : Box) : Fill → List Arg
  | .solid c => arg "color" (raw (color c))
  | .linearGradient angle stops => arg "gradient" (linearGradient angle stops)
  | .image _ scaleMode =>
    arg "image" (call "DecorationImage"
      (arg "image" (raw ("NetworkImage('" ++ b.placeholder ++ "')")) ++
        match scaleMode with
        | .fit => arg "fit" (raw "BoxFit.contain")
        | .tile => arg "repeat" (raw "ImageRepeat.repeat")
        | .fill | .crop => arg "fit" (raw "BoxFit.cover")))

/-- The arguments for the topmost fill and its blend mode. -/
def fillArgs (b : Box) : List Arg :=
  match b.style.fills.getLast? with
  | some top =>
    fillArg b top.fill ++
      (if top.blendMode = .normal then []
      else arg "backgroundBlendMode" (blendMode top.blendMode))
  | none => []

/-- The word for the place of a stroke. -/
def strokeAlign : Design.StrokeAlign → Expr
  | .inside => raw "BorderSide.strokeAlignInside"
  | .center => raw "BorderSide.strokeAlignCenter"
  | .outside => raw "BorderSide.strokeAlignOutside"

/-- The argument for the topmost stroke, if it is of one color. -/
def borderArgs (b : Box) : List Arg :=
  match b.style.stroke, b.style.strokes.getLast?.map Paint.fill with
  | some stroke, some (.solid c) =>
    arg "border" (call "Border.all"
      (arg "color" (raw (color c)) ++ arg "width" (number stroke.weight) ++
        arg "strokeAlign" (strokeAlign stroke.align)))
  | _, _ => []

/-- The argument for the shape: a circle or rounded corners. -/
def shapeArgs (b : Box) : List Arg :=
  if b.kind = .vector .ellipse then arg "shape" (raw "BoxShape.circle")
  else argOpt "borderRadius" (borderRadius? b.style.cornerRadius)

/-- The arguments of the decoration of a box. -/
def decorationArgs (b : Box) : List Arg :=
  fillArgs b ++ borderArgs b ++ shapeArgs b ++
    argList "boxShadow" (b.style.effects.filterMap boxShadow?)

/-- The decoration of a box; none if there is nothing to draw. -/
def decoration? (b : Box) : Option Expr :=
  if (decorationArgs b).isEmpty then none
  else some (call "BoxDecoration" (decorationArgs b))

/-- What of the paints of a box has no decoration. -/
def decorationOmissions (b : Box) : List Reason :=
  (if b.style.fills.length > 1 then [.multipleFills] else []) ++
  (match b.style.stroke, b.style.strokes.getLast?.map Paint.fill with
    | some _, some top =>
      (if b.style.strokes.length > 1 then [.multipleStrokes] else []) ++
      (match top with
        | .solid _ => []
        | _ => [.strokeNotSolid])
    | _, _ => [])

/-! ## Flows and stacks -/

/-- The alignment of a run of a wrapping flow. -/
def wrapAlignment : Design.Distribution → Expr
  | .start => raw "WrapAlignment.start"
  | .center => raw "WrapAlignment.center"
  | .finish => raw "WrapAlignment.end"
  | .spaceBetween => raw "WrapAlignment.spaceBetween"

/-- The alignment across a run of a wrapping flow. -/
def wrapCrossAlignment : Design.Alignment → Expr
  | .center => raw "WrapCrossAlignment.center"
  | .finish => raw "WrapCrossAlignment.end"
  | .start | .baseline => raw "WrapCrossAlignment.start"

/-- The alignment along a row or column other than the start. -/
def mainAxisAlignment? : Design.Distribution → Option Expr
  | .start => none
  | .center => some (raw "MainAxisAlignment.center")
  | .finish => some (raw "MainAxisAlignment.end")
  | .spaceBetween => some (raw "MainAxisAlignment.spaceBetween")

/-- The alignment across a row or column other than the middle. -/
def crossAxisAlignment? : Design.Alignment → Option Expr
  | .start => some (raw "CrossAxisAlignment.start")
  | .center => none
  | .finish => some (raw "CrossAxisAlignment.end")
  | .baseline => some (raw "CrossAxisAlignment.baseline")

/-- An argument that is only written if a condition holds. -/
def argIf (condition : Bool) (name : String) (value : Expr) : List Arg :=
  if condition then arg name value else []

/-- The widget of a flow that wraps. -/
def wrapCall (f : Flow) (children : List Expr) : Expr :=
  call "Wrap"
    (argIf (f.direction == .vertical) "direction" (raw "Axis.vertical") ++
      argIf (f.gap > 0.0) "spacing" (number f.gap) ++
      argIf (f.gap > 0.0) "runSpacing" (number f.gap) ++
      arg "alignment" (wrapAlignment f.distribution) ++
      arg "crossAxisAlignment" (wrapCrossAlignment f.alignment) ++
      arg "children" (list children))

/-- The widget of a flow in one line; `hugs` says that it shrinks to its items. -/
def lineCall (f : Flow) (hugs : Bool) (children : List Expr) : Expr :=
  call (match f.direction with
      | .horizontal => "Row"
      | .vertical => "Column")
    (argIf hugs "mainAxisSize" (raw "MainAxisSize.min") ++
      argOpt "mainAxisAlignment" (mainAxisAlignment? f.distribution) ++
      argOpt "crossAxisAlignment" (crossAxisAlignment? f.alignment) ++
      argIf (f.alignment == .baseline) "textBaseline" (raw "TextBaseline.alphabetic") ++
      argIf (f.gap > 0.0 && f.distribution != .spaceBetween) "spacing" (number f.gap) ++
      arg "children" (list children))

/-- The widget of a flow. -/
def flowCall (f : Flow) (hugs : Bool) (children : List Expr) : Expr :=
  if f.wraps then wrapCall f children else lineCall f hugs children

/-- Widgets on top of each other; `clips` says that what overflows is cut off. -/
def stack (clips : Bool) (children : List Expr) : Expr :=
  call "Stack"
    (argIf (!clips) "clipBehavior" (raw "Clip.none") ++ arg "children" (list children))

/-- The widget that holds the children of a node, each given with its widget.  In a flow
those placed at an offset lie on top of the others. -/
def childrenWidget? (b : Box) (placed : List (Node × Expr)) : Option Expr :=
  if placed.isEmpty then none
  else
    match b.layout.mode with
    | .flow f =>
      let line := flowCall f (b.layout.sizing.along f.direction).isHug (Node.placedAs false placed)
      match Node.placedAs true placed with
      | [] => some line
      | positioned => some (stack false (line :: positioned))
    | .absolute => some (stack b.style.clipsContent (placed.map (·.2)))

/-! ## Containers -/

/-- The padding of a flow, if there is some. -/
def padding? (b : Box) : Option Expr :=
  match b.layout.flow? with
  | some f => if f.padding.isZero then none else some (edgeInsets f.padding)
  | none => none

/-- The widget of a container, given its children with their widgets. -/
def containerWidget (parent : Option Node) (n : Node) (placed : List (Node × Expr)) : Expr :=
  let b := n.box
  let width := size? parent n .horizontal
  let height := size? parent n .vertical
  let child := childrenWidget? b placed
  match decoration? b, padding? b with
  | none, none =>
    let box := call "SizedBox"
      (argOpt "width" width ++ argOpt "height" height ++ argOpt "child" child)
    if b.style.clipsContent then call "ClipRect" (arg "child" box) else box
  | decoration, padding =>
    call "Container"
      (argOpt "width" width ++ argOpt "height" height ++ argOpt "padding" padding ++
        argIf (b.style.clipsContent && decoration.isSome) "clipBehavior" (raw "Clip.antiAlias") ++
        argOpt "decoration" decoration ++ argOpt "child" child)

/-! ## Nodes -/

/-- The widget for what a node is, given its children with their widgets. -/
def base (parent : Option Node) (n : Node) (placed : List (Node × Expr)) : Expr :=
  match n.box.style.text with
  | some t => textWidget parent n t
  | none =>
    if n.box.kind = .image then imageWidget n.box
    else if n.box.kind.isLine then lineWidget parent n
    else containerWidget parent n placed

/-- A widget under an effect. -/
def withEffect (widget : Expr) : Design.Effect → Expr
  | .layerBlur radius =>
    call "ImageFiltered" (arg "imageFilter" (blurFilter radius) ++ arg "child" widget)
  | .backgroundBlur radius =>
    call "ClipRect" (arg "child"
      (call "BackdropFilter" (arg "filter" (blurFilter radius) ++ arg "child" widget)))
  | .dropShadow _ | .innerShadow _ => widget

/-- A widget under an opacity. -/
def withOpacity (opacity : Float) (widget : Expr) : Expr :=
  if opacity < 1.0 then
    call "Opacity" (arg "opacity" (number opacity) ++ arg "child" widget)
  else widget

/-- A widget turned by degrees counter-clockwise. -/
def withRotation (rotation : Float) (widget : Expr) : Expr :=
  if rotation != 0.0 then
    call "Transform.rotate"
      (arg "angle" (raw (Decimal.atMost 4 (Decimal.radians (-rotation)))) ++
        arg "alignment" (raw "Alignment.topLeft") ++ arg "child" widget)
  else widget

/-- A widget under a comment that names its layer. -/
def withName (names : Bool) (name : Option String) (widget : Expr) : Expr :=
  match names, name with
  | true, some name => commented (Text.substitute '\n' [' '] name) widget
  | _, _ => widget

/-- A widget under the effects, opacity, rotation and name of its node. -/
def wrapped (names : Bool) (b : Box) (widget : Expr) : Expr :=
  withName names b.name
    (withRotation b.geometry.rotation
      (withOpacity b.style.opacity (b.style.effects.foldl withEffect widget)))

/-- A widget as its parent holds it. -/
def placed (parent n : Node) (widget : Expr) : Expr :=
  match n.box.layout.placement, parent.box.layout.flow? with
  | .absolute left top, _ =>
    call "Positioned"
      (arg "left" (number left) ++ arg "top" (number top) ++ arg "child" widget)
  | .flow, some f =>
    if !f.wraps && (n.box.layout.sizing.along f.direction).isFill then
      call "Expanded" (arg "child" widget)
    else widget
  | _, _ => widget

mutual

/-- The widget of a node inside its parent. -/
def widget (names : Bool) (parent : Option Node) : Node → Expr
  | .mk box children =>
    let n := Node.mk box children
    wrapped names box (base parent n (placedChildren names n children))

/-- The children of a node with their widgets. -/
def placedChildren (names : Bool) (parent : Node) : List Node → List (Node × Expr)
  | [] => []
  | n :: rest =>
    (n, placed parent n (widget names (some parent) n)) :: placedChildren names parent rest

end

/-! ## Warnings -/

/-- What of the contents of a node has no widget. -/
def contentOmissions (b : Box) : List Reason :=
  match b.style.text with
  | some _ =>
    match b.style.fills.getLast?.map Paint.fill with
    | some (.linearGradient _ _) | some (.image _ _) => [.textFillNotSolid]
    | _ => []
  | none => if isLeaf b then [] else decorationOmissions b

/-- What of the effects of a node has no widget. -/
def effectOmissions (b : Box) : List Reason :=
  b.style.effects.filterMap fun
    | .innerShadow _ => some .innerShadow
    | _ => none

mutual

/-- What of a node and those below it has no widget. -/
def warnings : Node → List Warning
  | .mk box children =>
    Warning.about box.id box.unsupported ++
      (if isLeaf box then [] else listWarnings children) ++
      Warning.about box.id (contentOmissions box ++ effectOmissions box)

/-- What of the nodes of a list has no widget. -/
def listWarnings : List Node → List Warning
  | [] => []
  | n :: rest => warnings n ++ listWarnings rest

end

/-- Whether an effect is a blur. -/
def isBlur : Design.Effect → Bool
  | .layerBlur _ | .backgroundBlur _ => true
  | _ => false

mutual

/-- Whether a widget of a node or of those below it blurs. -/
def blurs : Node → Bool
  | .mk box children =>
    box.style.effects.any isBlur || (!isLeaf box && listBlurs children)

/-- Whether a widget of the nodes of a list blurs. -/
def listBlurs : List Node → Bool
  | [] => false
  | n :: rest => blurs n || listBlurs rest

end

end Handoff.Dart
