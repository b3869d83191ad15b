import Handoff.Design.Node
import Handoff.Scene.Basic

/-!
# Outlines

The outline of a scene is what will be shown of it: hidden nodes are left out, a group
that only holds one other node is replaced by that node, and only frames, groups and
instances keep their children.  `Outline.ofNode` is this step, before any style or
layout is worked out.

A group that is replaced leaves its offset behind: `dx` and `dy` of an outline add up
the offsets of the groups around the node, from the outermost.

Each node is identified by its own id or, if it has none, by the id of its parent and its
place among the children.
-/

namespace Handoff

namespace Scene

/-- Whether a visible fill of a layer is an image. -/
def Layer.hasImageFill (l : Layer) : Bool :=
  l.fills.any fun p => p.visible && p.paintType == .image

/-- What a layer becomes in a design; none for a type that has no counterpart. -/
def Layer.kind? (l : Layer) : Option Design.Kind :=
  match l.nodeType with
  | "FRAME" | "COMPONENT" | "COMPONENT_SET" | "SECTION" => some .container
  | "INSTANCE" => some .component
  | "GROUP" => some .group
  | "TEXT" => some .text
  | "RECTANGLE" => some (if l.hasImageFill then .image else .vector .rectangle)
  | "ELLIPSE" => some (if l.hasImageFill then .image else .vector .ellipse)
  | "LINE" => some (.vector .line)
  | "VECTOR" | "STAR" | "POLYGON" | "BOOLEAN_OPERATION" => some (.vector .path)
  | _ => none

/-- What a layer becomes, a plain container standing in for types without a
counterpart. -/
def Layer.kind (l : Layer) : Design.Kind :=
  l.kind?.getD .container

/-- Whether a layer is a group that shows nothing and asks for nothing itself. -/
def Layer.isBareGroup (l : Layer) : Bool :=
  l.nodeType == "GROUP" && !l.hasVisualStyle && !(l.opacity < 1.0) && l.rotation == 0.0 &&
    l.positioning != .absolute && !(l.layoutGrow > 0.0)

/-- The child that may stand in for a node: the only visible one of a bare group, unless
it is placed absolutely. -/
def Node.passThrough? (n : Node) : Option Node :=
  if n.layer.isBareGroup then
    match n.children.filter (·.layer.visible) with
    | [only] => if only.layer.positioning == .absolute then none else some only
    | _ => none
  else none

end Scene

/-- A scene node that is shown, with all that is shown below it. -/
inductive Outline where
  | mk (layer : Scene.Layer) (id : String) (dx dy : Float) (children : List Outline)

namespace Outline

/-- The attributes of the scene node. -/
def layer : Outline → Scene.Layer
  | mk layer _ _ _ _ => layer

/-- The identity of the node. -/
def id : Outline → String
  | mk _ id _ _ _ => id

/-- The horizontal offset left by the groups around the node. -/
def dx : Outline → Float
  | mk _ _ dx _ _ => dx

/-- The vertical offset left by the groups around the node. -/
def dy : Outline → Float
  | mk _ _ _ dy _ => dy

/-- What is shown below the node. -/
def children : Outline → List Outline
  | mk _ _ _ _ children => children

/-- The identity of a layer. -/
def identity (layer : Scene.Layer) (fallback : String) : String :=
  if layer.id = "" then fallback else layer.id

/-- The fallback identity of the child at an index. -/
def childIdentity (parent : String) (index : Nat) : String :=
  parent ++ ":" ++ toString index

/-- The only child of a bare group, if it may stand in for the group. -/
def standIn (layer : Scene.Layer) (children : List Scene.Node) : Bool :=
  (Scene.Node.mk layer children).passThrough?.isSome

mutual

/-- The outline of a node, none if the node is hidden; `fallback` identifies it if it has
no id, and `dx` and `dy` are the offsets of the groups replaced around it. -/
def ofNode (fallback : String) (dx dy : Float) : Scene.Node → Option Outline
  | .mk layer children =>
    if !layer.visible then none
    else if standIn layer children then
      firstVisible fallback (dx + layer.x) (dy + layer.y) children
    else
      let id := identity layer fallback
      let kept := if layer.kind.holdsChildren then ofChildren id 0 children else []
      some (mk layer id dx dy kept)

/-- The outline of the first visible node of a list. -/
def firstVisible (fallback : String) (dx dy : Float) : List Scene.Node → Option Outline
  | [] => none
  | n :: rest =>
    match ofNode fallback dx dy n with
    | some o => some o
    | none => firstVisible fallback dx dy rest

/-- The outlines of the children of a node, the first of which has the given index. -/
def ofChildren (parent : String) (index : Nat) : List Scene.Node → List Outline
  | [] => []
  | n :: rest =>
    (ofNode (childIdentity parent index) 0.0 0.0 n).toList ++
      ofChildren parent (index + 1) rest

end

/-- The outlines of the roots of a selection. -/
def ofRoots (roots : List Scene.Node) : List Outline :=
  ofChildren "root" 0 roots

mutual

/-- A node, then all below it. -/
def preorder : Outline → List Outline
  | mk layer id dx dy children => mk layer id dx dy children :: preorderList children

/-- The nodes of a list of outlines, each before its children. -/
def preorderList : List Outline → List Outline
  | [] => []
  | o :: rest => o.preorder ++ preorderList rest

end

end Outline

end Handoff
