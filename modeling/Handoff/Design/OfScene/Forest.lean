import Handoff.Warning
import Handoff.Design.OfScene.Layout
import Handoff.Design.OfScene.Style
import Handoff.Naming

/-!
# The design of a selection

`Design.ofSelection` makes the design of the selected roots: their outlines, with layout,
style and a unique name worked out for each node.  Names are taken in preorder from a
`Registry`, which may have names of earlier selections in it.

A node is never refused.  What is missing from the design is said by
`Outline.warnings`; only a selection of which nothing is visible has no design.
-/

namespace Handoff

namespace Outline

/-- Where a node lies relative to its parent in the design. -/
def geometry (o : Outline) : Design.Geometry where
  x := o.layer.x + o.dx
  y := o.layer.y + o.dy
  width := Decimal.larger o.layer.width 0.0
  height := Decimal.larger o.layer.height 0.0
  rotation := o.layer.rotation

/-- The style of a node; one of an unsupported type has none. -/
def style (s : Settings) (o : Outline) : Design.Style :=
  match o.layer.kind? with
  | some kind => o.layer.style s kind
  | none => .plain

/-- Why the design of a node is not all of it. -/
def refusals (s : Settings) (o : Outline) : List Reason :=
  match o.layer.kind? with
  | some _ => o.layer.refusals s
  | none => [.unsupportedType o.layer.nodeType]

/-- The box of a node under a unique name. -/
def box (s : Settings) (around : Surroundings) (uniqueName : String) (o : Outline) :
    Design.Box where
  id := o.id
  kind := o.layer.kind
  name := if o.layer.name = "" then none else some o.layer.name
  uniqueName
  geometry := o.geometry
  style := o.style s
  layout := o.layer.layout s o.layer.kind o.geometry around
  unsupportedType := if o.layer.kind?.isSome then none else some o.layer.nodeType

mutual

/-- The design of a node, and the names taken after it. -/
def toDesign (s : Settings) (around : Surroundings) (names : Registry) :
    Outline → Design.Node × Registry
  | mk layer id dx dy children =>
    let o := mk layer id dx dy children
    let (uniqueName, names) := names.register layer.name layer.kind.fallbackName
    let box := o.box s around uniqueName
    let (nodes, names) := listToDesign s (.inside box.layout.mode) names children
    (.mk box nodes, names)

/-- The designs of a list of nodes in turn. -/
def listToDesign (s : Settings) (around : Surroundings) (names : Registry) :
    List Outline → List Design.Node × Registry
  | [] => ([], names)
  | o :: rest =>
    let (node, names) := o.toDesign s around names
    let (nodes, names) := listToDesign s around names rest
    (node :: nodes, names)

end

/-- All that is missing from the designs of outlines, node by node in preorder. -/
def warnings (s : Settings) (outlines : List Outline) : List Warning :=
  (preorderList outlines).flatMap fun o => Warning.about o.id (o.refusals s)

end Outline

/-- What the roots of a selection are laid out against. -/
def Surroundings.ofParent (s : Settings) : Option Scene.Node → Surroundings
  | some parent => .inside (parent.layer.mode s parent.layer.kind)
  | none => .root

namespace Design

/-- A node placed as a root. -/
def Node.asRoot : Node → Node
  | mk box children =>
    mk { box with layout := { box.layout with placement := .root } } children

/-- The design of a selection under the given parent, and the names taken after it. -/
def ofSelection (s : Settings) (parent : Option Scene.Node) (roots : List Scene.Node)
    (names : Registry) : List Node × Registry :=
  let (nodes, names) :=
    Outline.listToDesign s (.ofParent s parent) names (Outline.ofRoots roots)
  (nodes.map Node.asRoot, names)

/-- All that is missing from the design of a selection. -/
def warningsOf (s : Settings) (roots : List Scene.Node) : List Warning :=
  Outline.warnings s (Outline.ofRoots roots)

/-- The design of a selection on its own; an error when nothing is visible. -/
def build (s : Settings) (parent : Option Scene.Node) (roots : List Scene.Node) :
    Except ConversionError (List Node) :=
  match (ofSelection s parent roots .empty).1 with
  | [] => .error .emptySelection
  | forest => .ok forest

end Design

end Handoff
