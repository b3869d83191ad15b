import Handoff.Design.Layout
import Handoff.Design.Style
import Handoff.Warning

/-!
# Designs

A design is what all targets are written from: a forest of nodes in which nothing is
hidden, every node has one layout and one style, and every node has an identifier of its
own.  `Box` holds what is said of one node, `Node` puts the children to it.

`Node.preorder` lists a node before its children and those from first to last; it is the
order of everything that is collected from a design.
-/

namespace Handoff.Design

/-- The shape of a vector. -/
inductive Shape where
  | rectangle
  | ellipse
  | line
  /-- Any other outline; only its bounds are known. -/
  | path
deriving DecidableEq, Repr, Inhabited

instance : Enumeration Shape where
  word
    | .rectangle => "rectangle"
    | .ellipse => "ellipse"
    | .line => "line"
    | .path => "path"
  all := [.rectangle, .ellipse, .line, .path]
  find_word a := by cases a <;> rfl

/-- What a node is. -/
inductive Kind where
  | container
  | text
  | vector (shape : Shape)
  | image
  | group
  /-- An instance of a component. -/
  | component
deriving DecidableEq, Repr

namespace Kind

/-- Whether a node of the kind may have children. -/
def holdsChildren : Kind → Bool
  | container | group | component => true
  | _ => false

/-- The word that names a node without a usable name. -/
def fallbackName : Kind → String
  | container => "frame"
  | text => "text"
  | vector _ => "shape"
  | image => "image"
  | group => "group"
  | component => "instance"

/-- Whether a node of the kind is a line. -/
def isLine (k : Kind) : Bool := k == .vector .line

end Kind

/-- Position relative to the parent, size and rotation in degrees counter-clockwise. -/
structure Geometry where
  x : Float
  y : Float
  width : Float
  height : Float
  rotation : Float
deriving BEq

/-- What is said of one node. -/
structure Box where
  id : String
  kind : Kind
  /-- The name that the layer was given. -/
  name : Option String
  /-- An identifier that no other node has. -/
  uniqueName : String
  geometry : Geometry
  style : Style
  layout : Layout
  /-- The scene type of a node that stands in for one without a kind. -/
  unsupportedType : Option String
deriving BEq

/-- A node: a box and the nodes in it. -/
inductive Node where
  | mk (box : Box) (children : List Node)

namespace Node

/-- What is said of a node. -/
def box : Node → Box
  | mk box _ => box

/-- The children of a node. -/
def children : Node → List Node
  | mk _ children => children

mutual

/-- A node, then all below it. -/
def preorder : Node → List Node
  | mk box children => mk box children :: preorderList children

/-- The nodes of a forest, each before its children. -/
def preorderList : List Node → List Node
  | [] => []
  | n :: rest => n.preorder ++ preorderList rest

end

/-- Whether a child is placed at an offset. -/
def hasAbsoluteChild (n : Node) : Bool :=
  n.children.any (·.box.layout.placement.isAbsolute)

/-- Of what was made from nodes, the part whose nodes are placed at an offset, or the part
whose nodes are not. -/
def placedAs {α : Type} (absolute : Bool) (made : List (Node × α)) : List α :=
  (made.filter fun (n, _) => n.box.layout.placement.isAbsolute == absolute).map (·.2)

end Node

/-- The address of a stand-in image of the given size in whole pixels, at least one. -/
def placeholderImage (width height : Float) : String :=
  let side (v : Float) : String :=
    toString (Decimal.toClampedNat (UInt32.size - 1) (Decimal.larger (Decimal.roundHalfAway v) 1.0))
  "https://placehold.co/" ++ side width ++ "x" ++ side height

namespace Box

/-- The characters of a text. -/
def characters? (b : Box) : Option String :=
  b.style.text.map (·.characters)

/-- The address of a stand-in for the images of a node. -/
def placeholder (b : Box) : String :=
  placeholderImage b.geometry.width b.geometry.height

/-- What every target says of a node that stands in for one of an unsupported type. -/
def unsupported (b : Box) : List Reason :=
  b.unsupportedType.toList.map .unsupportedType

end Box

end Handoff.Design
