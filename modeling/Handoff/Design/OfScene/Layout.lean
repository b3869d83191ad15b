import Handoff.Design.Layout
import Handoff.Outline

/-!
# The layout of scene nodes

How the auto-layout attributes of a layer become the layout of a design node.  A node
flows its children when its own auto-layout has a direction or, if the settings allow it,
the one that was inferred; `Layer.mode` decides this.  `Layer.extent` gives the size on
one axis: what the layer asks for where that is possible, the measured size otherwise.
-/

namespace Handoff

open Design (Direction Mode Extent Flow Geometry)

namespace Scene

/-! ## Flows -/

/-- The direction of a layout mode. -/
def LayoutMode.direction? : LayoutMode → Option Direction
  | horizontal => some .horizontal
  | vertical => some .vertical
  | none | unknown => .none

/-- The distribution of a primary alignment. -/
def PrimaryAlign.distribution : PrimaryAlign → Design.Distribution
  | center => .center
  | max => .finish
  | spaceBetween => .spaceBetween
  | min | unknown => .start

/-- The alignment of a counter alignment; only horizontal flows have a common baseline. -/
def CounterAlign.alignment (a : CounterAlign) (direction : Direction) : Design.Alignment :=
  match a with
  | center => .center
  | max => .finish
  | baseline => if direction = .horizontal then .baseline else .start
  | min | unknown => .start

/-- The padding of an auto-layout, never negative. -/
def AutoLayout.padding (a : AutoLayout) : Design.Padding where
  top := Decimal.larger a.paddingTop 0.0
  right := Decimal.larger a.paddingRight 0.0
  bottom := Decimal.larger a.paddingBottom 0.0
  left := Decimal.larger a.paddingLeft 0.0

/-- The flow of an auto-layout that has a direction.  Where the free space goes between the
items there is no gap besides. -/
def AutoLayout.flow? (a : AutoLayout) : Option Flow :=
  a.mode.direction?.map fun direction =>
    let distribution := a.primaryAlign.distribution
    { direction
      gap := if distribution = .spaceBetween then 0.0 else Decimal.larger a.itemSpacing 0.0
      padding := a.padding
      distribution
      alignment := a.counterAlign.alignment direction
      wraps := a.wrap == .wrap }

/-- Whether an auto-layout has a direction. -/
def AutoLayout.flows (a : AutoLayout) : Bool :=
  a.mode.direction?.isSome

/-- The auto-layout in force for the children of a layer: its own if that has a direction,
else the inferred one if the settings allow it. -/
def Layer.autoLayoutInForce? (s : Settings) (l : Layer) : Option AutoLayout :=
  if l.autoLayout.flows then some l.autoLayout
  else if s.optimizeLayout then l.inferredAutoLayout.filter AutoLayout.flows
  else none

/-- How a layer of the given kind arranges its children. -/
def Layer.mode (s : Settings) (kind : Design.Kind) (l : Layer) : Mode :=
  match kind with
  | .container | .component =>
    match (l.autoLayoutInForce? s).bind AutoLayout.flow? with
    | some flow => .flow flow
    | none => .absolute
  | _ => .absolute

end Scene

/-! ## Sizes and places -/

/-- What a node is laid out against. -/
inductive Surroundings where
  /-- Nothing is known of the parent. -/
  | root
  /-- A parent that arranges its children in the given mode. -/
  | inside (mode : Mode)

/-- The direction of the flow around a node, if there is one. -/
def Surroundings.direction? : Surroundings → Option Direction
  | root => none
  | inside mode => mode.flow?.map (·.direction)

namespace Scene

/-- Whether a layer takes part in the flow around it. -/
def Layer.isInFlow (l : Layer) (around : Surroundings) : Bool :=
  around.direction?.isSome && l.positioning != .absolute

/-- The extent that an explicit sizing asks for; a fixed size asks for nothing. -/
def AxisSizing.extent? : AxisSizing → Option Extent
  | hug => some .hug
  | fill => some .fill
  | fixed | unknown => none

/-- Whether a layer without explicit sizing asks to fill the flow around it: along the
flow by growing, across it by stretching. -/
def Layer.asksToFill (l : Layer) (around : Surroundings) (axis : Direction) : Bool :=
  match around.direction? with
  | some direction =>
    if direction = axis then l.layoutGrow > 0.0 else l.layoutAlign == .stretch
  | none => false

/-- Whether a text box follows its text on an axis. -/
def TextAutoResize.follows (r : TextAutoResize) (axis : Direction) : Bool :=
  match r with
  | widthAndHeight => true
  | height => axis == .vertical
  | _ => false

/-- The extent that a layer asks for on an axis. -/
def Layer.requested? (l : Layer) (kind : Design.Kind) (around : Surroundings)
    (axis : Direction) : Option Extent :=
  let explicit := match axis with
    | .horizontal => l.sizingHorizontal
    | .vertical => l.sizingVertical
  match explicit with
  | some sizing => sizing.extent?
  | none =>
    if l.asksToFill around axis then some .fill
    else if kind = .text ∧ l.textAutoResize.follows axis then some .hug
    else none

/-- The extent of a layer on an axis.  Only flows and texts can hug their contents, and
only a node in a flow can fill it; where the request is not possible, the measured size
stands. -/
def Layer.extent (l : Layer) (kind : Design.Kind) (mode : Mode) (around : Surroundings)
    (axis : Direction) (measured : Float) : Extent :=
  match l.requested? kind around axis with
  | some .hug => if mode.flow?.isSome ∨ kind = .text then .hug else .fixed measured
  | some .fill => if l.isInFlow around then .fill else .fixed measured
  | _ => .fixed measured

/-- The extents of a layer; a root fills the width if the settings say so. -/
def Layer.sizing (s : Settings) (l : Layer) (kind : Design.Kind) (mode : Mode)
    (geometry : Geometry) (around : Surroundings) : Design.Sizing where
  horizontal :=
    match around, s.responsiveRoot with
    | .root, true => .fill
    | _, _ => l.extent kind mode around .horizontal geometry.width
  vertical := l.extent kind mode around .vertical geometry.height

/-- How the surroundings place a layer. -/
def Layer.placement (l : Layer) (geometry : Geometry) : Surroundings → Design.Placement
  | .root => .root
  | .inside (.flow _) =>
    if l.positioning = .absolute then .absolute geometry.x geometry.y else .flow
  | .inside .absolute => .absolute geometry.x geometry.y

/-- The layout of a layer of the given kind. -/
def Layer.layout (s : Settings) (l : Layer) (kind : Design.Kind) (geometry : Geometry)
    (around : Surroundings) : Design.Layout :=
  let mode := l.mode s kind
  ⟨mode, l.sizing s kind mode geometry around, l.placement geometry around⟩

end Scene

end Handoff
