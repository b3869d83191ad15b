import Handoff.Color.Basic
import Handoff.Scene.Vocabulary

/-!
# Scenes

A scene is what the design tool hands over: a tree of nodes, each with the attributes of
its layer.  `Layer` holds the attributes of one node, `Node` puts the children to it.

Coordinates are relative to the parent node.  Fills and strokes are listed from bottom
to top.
-/

namespace Handoff.Scene

/-- A point or offset. -/
structure Point where
  x : Float
  y : Float
deriving BEq

/-- The origin. -/
def Point.zero : Point := ⟨0.0, 0.0⟩

/-- A color at a position of a gradient. -/
structure ColorStop where
  position : Float
  color : Color
deriving BEq

/-- A fill or stroke of a node. -/
structure Paint where
  paintType : PaintType := .solid
  visible : Bool := true
  opacity : Float := 1.0
  blendMode : BlendMode := .normal
  color : Option Color := none
  gradientStops : List ColorStop := []
  /-- Start, end and width handle in the unit square of the node. -/
  gradientHandles : List Point := []
  imageHash : Option String := none
  scaleMode : ScaleMode := .fill
deriving BEq

/-- A shadow, blur or other effect of a node. -/
structure Effect where
  effectType : EffectType := .dropShadow
  visible : Bool := true
  radius : Float := 0.0
  color : Option Color := none
  offset : Point := .zero
  spread : Float := 0.0
deriving BEq

/-- The auto-layout that a frame applies to its children. -/
structure AutoLayout where
  mode : LayoutMode := .none
  wrap : LayoutWrap := .noWrap
  paddingLeft : Float := 0.0
  paddingRight : Float := 0.0
  paddingTop : Float := 0.0
  paddingBottom : Float := 0.0
  itemSpacing : Float := 0.0
  primaryAlign : PrimaryAlign := .min
  counterAlign : CounterAlign := .min
deriving BEq

/-- A font family and the name of one of its styles. -/
structure FontName where
  family : String := ""
  style : String := ""
deriving BEq

/-- A line height with its unit. -/
structure LineHeight where
  unit : LineHeightUnit
  value : Float
deriving BEq

/-- A letter spacing with its unit. -/
structure LetterSpacing where
  unit : LetterSpacingUnit
  value : Float
deriving BEq

/-- One value for each corner. -/
structure Corners where
  topLeft : Float
  topRight : Float
  bottomRight : Float
  bottomLeft : Float
deriving BEq

/-- The corners clockwise from the top left. -/
def Corners.toList (c : Corners) : List Float :=
  [c.topLeft, c.topRight, c.bottomRight, c.bottomLeft]

/-- The attributes of one node. -/
structure Layer where
  id : String := ""
  name : String := ""
  /-- The type that the design tool gives the node. -/
  nodeType : String := ""
  visible : Bool := true
  x : Float := 0.0
  y : Float := 0.0
  width : Float := 0.0
  height : Float := 0.0
  /-- Degrees, counter-clockwise. -/
  rotation : Float := 0.0
  opacity : Float := 1.0
  blendMode : BlendMode := .normal
  fills : List Paint := []
  strokes : List Paint := []
  strokeWeight : Float := 0.0
  strokeAlign : StrokeAlign := .inside
  effects : List Effect := []
  cornerRadius : Option Float := none
  cornerRadii : Option Corners := none
  clipsContent : Bool := false
  /-- The auto-layout that was set on the node. -/
  autoLayout : AutoLayout := {}
  /-- The auto-layout that the design tool guessed for a node without one. -/
  inferredAutoLayout : Option AutoLayout := none
  sizingHorizontal : Option AxisSizing := none
  sizingVertical : Option AxisSizing := none
  positioning : Positioning := .auto
  layoutGrow : Float := 0.0
  layoutAlign : LayoutAlign := .inherit
  characters : Option String := none
  fontName : Option FontName := none
  fontSize : Option Float := none
  fontWeight : Option Float := none
  lineHeight : Option LineHeight := none
  letterSpacing : Option LetterSpacing := none
  textAlign : TextAlign := .left
  textAlignVertical : TextAlignVertical := .top
  textCase : TextCase := .original
  textDecoration : TextDecoration := .none
  textAutoResize : TextAutoResize := .none
deriving BEq

/-- A node: a layer and the nodes on it, from bottom to top. -/
inductive Node where
  | mk (layer : Layer) (children : List Node)

namespace Node

/-- The attributes of a node. -/
def layer : Node → Layer
  | mk layer _ => layer

/-- The children of a node. -/
def children : Node → List Node
  | mk _ children => children

end Node

/-- Whether a layer draws anything itself: a fill, a stroke of some weight or an
effect. -/
def Layer.hasVisualStyle (l : Layer) : Bool :=
  l.fills.any (·.visible) || (l.strokeWeight > 0.0 && l.strokes.any (·.visible)) ||
    l.effects.any (·.visible)

/-! ## Making scenes -/

/-- A paint of one color. -/
def Paint.ofColor (c : Color) : Paint := { color := some c }

/-- A gradient from `start` to `finish`. -/
def Paint.linear (start finish : Point) (stops : List ColorStop) : Paint :=
  { paintType := .gradientLinear, gradientStops := stops, gradientHandles := [start, finish] }

/-- A paint of the image with the given hash. -/
def Paint.image (hash : String) : Paint :=
  { paintType := .image, imageHash := some hash }

namespace Node

/-- A node of a type, with nothing else set. -/
def new (id nodeType : String) : Node :=
  mk { id := id, nodeType := nodeType } []

/-- The node with its layer changed. -/
def withLayer (f : Layer → Layer) (n : Node) : Node :=
  mk (f n.layer) n.children

/-- The node with a name. -/
def withName (name : String) : Node → Node :=
  withLayer fun l => { l with name := name }

/-- The node with position and size. -/
def withBounds (x y width height : Float) : Node → Node :=
  withLayer fun l => { l with x := x, y := y, width := width, height := height }

/-- The node with another fill on top. -/
def withFill (paint : Paint) : Node → Node :=
  withLayer fun l => { l with fills := l.fills ++ [paint] }

/-- The node with text. -/
def withCharacters (text : String) : Node → Node :=
  withLayer fun l => { l with characters := some text }

/-- The node with another child on top. -/
def withChild (n child : Node) : Node :=
  mk n.layer (n.children ++ [child])

end Node

end Handoff.Scene
